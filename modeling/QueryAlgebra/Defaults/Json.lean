import QueryAlgebra.Defaults.Reading
import QueryAlgebra.Json.Reader

/-!
# Defaults in JSON

The view of JSON trees through which defaults and sort keys are read. A number has to be
written with digits alone. A record may also be written as the list of its values; trailing
ones may then be missing. A choice is a text, or a record whose single key has the value
`null`. A text or key with a lone surrogate is an error where it is used.
-/

namespace QueryAlgebra

namespace Json

/-- The number of a literal that consists of digits. -/
def naturalOfLiteral? (literal : String) : Option Nat :=
  let digits := literal.toList
  if !digits.isEmpty && digits.all Char.isDigit then
    some (digits.foldl (fun n c => 10 * n + (c.toNat - '0'.toNat)) 0)
  else none

/-- The fields of a record, when every key is well formed. -/
def namedFields? (fields : List (Option String × Source)) : Option (List (String × Source)) :=
  fields.mapM fun (key, value) => key.map fun key => (key, value)

/-- JSON trees as values to read. -/
def view : View Source where
  text?
    | .text s => s
    | _ => none
  natural?
    | .number literal => naturalOfLiteral? literal
    | _ => none
  items?
    | .list items => some items
    | _ => none
  record? keys
    | .record fields => namedFields? fields
    | .list values => if values.length ≤ keys.length then some (keys.zip values) else none
    | _ => none
  choice?
    | .text s => s
    | .record [(key, .null)] => key
    | _ => none

end Json

/-- Reads defaults from a JSON text and checks them. -/
def Defaults.ofJson (text : String) : Except Fault Defaults :=
  Defaults.ofRead ((Json.read? text).bind (Defaults.read? Json.view))

/-- Reads a sort key from a JSON text. -/
def SortKey.ofJson (text : String) : Except Fault SortKey :=
  match (Json.read? text).bind (SortKey.read? Json.view) with
  | none => .error .json
  | some k => .ok k

/-- Reads a direction from a JSON text. -/
def Direction.ofJson (text : String) : Except Fault Direction :=
  match ((Json.read? text).bind Json.view.choice?).bind Direction.ofName? with
  | none => .error .json
  | some d => .ok d

end QueryAlgebra
