import QueryAlgebra.Defaults.Reading
import QueryAlgebra.Yaml.Reader

/-!
# Defaults in YAML

The view of YAML trees through which defaults are read. Every scalar is a text, however it
was written. A plain scalar without characters is also an empty list and an empty record,
and a text without a document gives the defaults that hold when nothing is configured. The
choice of a name may be made by a local tag on a scalar that is null.

References let a short text stand for a long list. How many of them reading may follow is
therefore bounded by the size of the document.
-/

namespace QueryAlgebra

namespace Yaml

/-- The digit in some base. -/
def digitValue? (base : Nat) (c : Char) : Option Nat :=
  (Text.hexValue? c).filter (· < base)

/-- The number that a sequence of digits spells in some base; there is at least one. -/
def numeral? (base : Nat) (digits : List Char) : Option Nat :=
  if digits.isEmpty then none
  else digits.foldlM (fun n c => (digitValue? base c).map (base * n + ·)) 0

/-- The natural number that a plain scalar spells: in decimal digits without leading zeros,
or in another base with its marker. A plus sign may stand in front. -/
def natural? (text : String) : Option Nat :=
  let cs := match text.toList with
    | '+' :: rest => rest
    | cs => cs
  match cs with
  | '0' :: 'x' :: digits => numeral? 16 digits
  | '0' :: 'o' :: digits => numeral? 8 digits
  | '0' :: 'b' :: digits => numeral? 2 digits
  | '0' :: _ :: _ => none
  | digits => numeral? 10 digits

/-- The plain scalars that spell null. -/
def isNull (text : String) : Bool :=
  text == "" || text == "~" || text == "null" || text == "Null" || text == "NULL"

/-- The tag of integers. -/
def integerTag : String := "tag:yaml.org,2002:int"

/-- The name in a local tag, which begins with an exclamation mark. -/
def localName? (tag : Option (Option String)) : Option String :=
  match tag with
  | some (some text) =>
    match text.toList with
    | '!' :: [] => some "!"
    | '!' :: name => some (String.ofList name)
    | _ => none
  | _ => none

namespace Node

/-- The text of a scalar. -/
def text? : Node → Option String
  | scalar _ _ _ text => some text
  | _ => none

/-- The number of a scalar that is plain, or literal with the tag of integers. -/
def natural? : Node → Option Nat
  | scalar _ tag style text =>
    if style = .plain ∨ (style = .literal ∧ tag = some (some integerTag)) then
      Yaml.natural? text
    else none
  | _ => none

/-- The items of a sequence. -/
def items? : Node → Option (List Node)
  | sequence _ items => some items
  | scalar _ _ .plain "" => some []
  | _ => none

/-- The pairs of a mapping. -/
def pairs? : Node → Option (List (Node × Node))
  | mapping _ pairs => some pairs
  | scalar _ _ .plain "" => some []
  | _ => none

/-- The name that a scalar chooses. -/
def choice? : Node → Option String
  | scalar _ tag style text =>
    match localName? tag with
    | some name => if style = .plain ∧ isNull text then some name else none
    | none => some text
  | _ => none

/-- Nodes as values to read, where references mean the nodes known under their numbers. -/
def view (known : List (Nat × Node)) : View Node where
  text? node := (resolve? known node).bind text?
  natural? node := (resolve? known node).bind natural?
  items? node := (resolve? known node).bind items?
  record? _ node :=
    ((resolve? known node).bind pairs?).bind fun pairs =>
      pairs.mapM fun (key, value) =>
        ((resolve? known key).bind text?).map fun key => (key, value)
  choice? node := (resolve? known node).bind choice?

/-- The number of references to follow in reading a list, given their number for an
item. -/
def listDetours (known : List (Nat × Node)) (item : Node → Nat) (node : Node) : Nat :=
  let items := ((resolve? known node).bind items?).getD []
  items.foldr (item · + ·) node.detour

/-- The number of references to follow in reading a record, given their number for a field.
Every key is read. -/
def recordDetours (known : List (Nat × Node)) (field : String → Node → Nat) (node : Node) :
    Nat :=
  let pairs := ((resolve? known node).bind pairs?).getD []
  pairs.foldr
    (fun (key, value) n =>
      key.detour + ((resolve? known key).bind text?).elim 0 (field · value) + n)
    node.detour

end Node

end Yaml

/-- The number of references to follow in reading a sort key. The values of keys that are
passed over are not read. -/
def SortKey.detours (known : List (Nat × Yaml.Node)) : Yaml.Node → Nat :=
  Yaml.Node.recordDetours known fun key value =>
    if key = "field" ∨ key = "order" then value.detour else 0

namespace Defaults

/-- The number of references to follow in reading defaults. -/
def detours (known : List (Nat × Yaml.Node)) : Yaml.Node → Nat :=
  Yaml.Node.recordDetours known fun key value =>
    if key = "page_size" then value.detour
    else if key = "attributes" then Yaml.Node.listDetours known Yaml.Node.detour value
    else if key = "sort" then Yaml.Node.listDetours known (SortKey.detours known) value
    else 0

/-- The number of references that may be followed for each event of a document. -/
def detoursPerEvent : Nat := 100

/-- Reads defaults from the root of a document, without checking them. -/
def ofRoot? (root : Yaml.Node) : Option Defaults :=
  let known := root.numbered
  if detours known root ≤ detoursPerEvent * root.events then
    Defaults.read? (Yaml.Node.view known) root
  else none

/-- Reads defaults from a YAML text and checks them. -/
def ofYaml (text : String) : Except Fault Defaults :=
  match Yaml.read? text with
  | none => .error (.defaults .malformed)
  | some none => check {}
  | some (some root) => ofRead (ofRoot? root)

end Defaults

end QueryAlgebra
