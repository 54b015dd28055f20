import QueryAlgebra.Document

/-!
# Sort keys

A `SortKey` orders results by a field, in one of two directions. It is sent as a record
with the field as its key. In defaults it is written differently, with the names `field`
and `order`.
-/

namespace QueryAlgebra

/-- Smallest first or largest first. -/
inductive Direction where
  | ascending
  | descending
  deriving DecidableEq

namespace Direction

/-- Ascending unless something else is asked for. -/
def standard : Direction := ascending

/-- The name of the direction on the wire. -/
def name : Direction → String
  | ascending => "asc"
  | descending => "desc"

/-- The longer name that defaults may use as well. -/
def longName : Direction → String
  | ascending => "ascending"
  | descending => "descending"

/-- The direction of either name. -/
def ofName? (s : String) : Option Direction :=
  if s = ascending.name ∨ s = ascending.longName then some ascending
  else if s = descending.name ∨ s = descending.longName then some descending
  else none

theorem ofName?_eq_some_iff (s : String) (d : Direction) :
    ofName? s = some d ↔ s = d.name ∨ s = d.longName := by
  cases d <;> simp only [ofName?, name, longName] <;> grind

end Direction

/-- A field to sort by. -/
structure SortKey where
  field : String
  direction : Direction := .standard
  deriving DecidableEq

/-- The key as it is sent. -/
def SortKey.document (k : SortKey) : Document :=
  .single k.field (.single "order" (.text k.direction.name))

end QueryAlgebra
