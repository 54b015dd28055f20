import QueryAlgebra.Defaults.Basic

/-!
# Reading defaults from structured texts

Defaults are read from JSON and from YAML by the same rules. What differs is how a value of
the format is seen as a text, a number, a list, a record or a choice between names; a
`View` collects these, and `Defaults.read?` and `SortKey.read?` are the rules.

The defaults have the keys `page_size`, `attributes` and `sort`, each at most once and none
required; there is no other key. A sort key has `field`, which is required, and `order`;
other keys are passed over.
-/

namespace QueryAlgebra

/-- How the values of a format are seen. A record gets its expected keys, in order, for
formats in which it may be written without them. -/
structure View (α : Type) where
  text? : α → Option String
  natural? : α → Option Nat
  items? : α → Option (List α)
  record? : List String → α → Option (List (String × α))
  choice? : α → Option String

namespace View

variable {α β : Type}

/-- The value of a key that may be missing, but not occur twice. -/
def single? (key : String) (fields : List (String × α)) : Option (Option α) :=
  match fields.filter fun field => field.1 = key with
  | [] => some none
  | [field] => some (some field.2)
  | _ => none

/-- Reads the value of a key, or takes what stands for a missing one. -/
def field? (key : String) (read : α → Option β) (missing : Option β)
    (fields : List (String × α)) : Option β :=
  (single? key fields).bind fun
    | none => missing
    | some value => read value

end View

/-- Reads a sort key. -/
def SortKey.read? {α : Type} (view : View α) (value : α) : Option SortKey := do
  let fields ← view.record? ["field", "order"] value
  let field ← View.field? "field" view.text? none fields
  let direction ← View.field? "order" (fun value => (view.choice? value).bind Direction.ofName?)
    (some .standard) fields
  return { field, direction }

namespace Defaults

/-- The keys of defaults, in the order in which they may be written without names. -/
def keys : List String := ["page_size", "attributes", "sort"]

/-- The largest page size that can be configured. -/
def largestPageSize : Nat := 0xFFFFFFFF

/-- Reads a page size, which may be zero here. -/
def readPageSize? {α : Type} (view : View α) (value : α) : Option Nat :=
  (view.natural? value).filter (· ≤ largestPageSize)

/-- Reads a list, item by item. -/
def readList? {α β : Type} (view : View α) (read : α → Option β) (value : α) :
    Option (List β) :=
  (view.items? value).bind (List.mapM read)

/-- Reads defaults, without checking them. -/
def read? {α : Type} (view : View α) (value : α) : Option Defaults := do
  let fields ← view.record? keys value
  guard (fields.all fun field => keys.contains field.1)
  let pageSize ← View.field? "page_size" (readPageSize? view) (some standardPageSize) fields
  let attributes ← View.field? "attributes" (readList? view view.text?) (some []) fields
  let sort ← View.field? "sort" (readList? view (SortKey.read? view)) (some []) fields
  return { pageSize, attributes, sort }

/-- The defaults that were read, checked. -/
def ofRead (d : Option Defaults) : Except Fault Defaults :=
  match d with
  | none => .error (.defaults .malformed)
  | some d => d.check

end Defaults

end QueryAlgebra
