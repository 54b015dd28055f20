import QueryAlgebra.Condition.Tuning
import QueryAlgebra.Text.Blank

/-!
# Ranges

A `Range` asks for a field between bounds, each of which may be missing. Its parameters are
set one by one: a bound has to be finite, a boost has to be allowed, and everything else is
free. The field never changes.
-/

namespace QueryAlgebra

/-- How a range is compared with a field that holds a range itself. -/
inductive Range.Relation where
  | intersects
  | contains
  | within
  deriving DecidableEq

namespace Range.Relation

/-- A range intersects unless something else is asked for. -/
def standard : Range.Relation := intersects

/-- The name of the relation on the wire. -/
def name : Range.Relation → String
  | intersects => "INTERSECTS"
  | contains => "CONTAINS"
  | within => "WITHIN"

theorem name_injective : Function.Injective name := by
  intro r s h
  cases r <;> cases s <;> first | rfl | simp [name] at h

end Range.Relation

/-- The field lies within bounds. There may be none at all. -/
structure Range where
  field : String
  above : Option Value := none
  atLeast : Option Value := none
  below : Option Value := none
  atMost : Option Value := none
  boost : Option Binary64 := none
  format : Option String := none
  relation : Option Range.Relation := none
  timeZone : Option String := none
  deriving DecidableEq

namespace Range

inductive Setting where
  | above (v : Value)
  | atLeast (v : Value)
  | below (v : Value)
  | atMost (v : Value)
  | boost (b : Binary64)
  | format (s : String)
  | relation (r : Relation)
  | timeZone (s : String)
  deriving DecidableEq

def create (field : String) : Except Fault Range :=
  if Text.isBlank field then .error (.blankField .range) else .ok { field }

def set (r : Range) : Setting → Except Fault Range
  | .above v => (checkValue .range r.field v).map fun v => { r with above := some v }
  | .atLeast v => (checkValue .range r.field v).map fun v => { r with atLeast := some v }
  | .below v => (checkValue .range r.field v).map fun v => { r with below := some v }
  | .atMost v => (checkValue .range r.field v).map fun v => { r with atMost := some v }
  | .boost b => (checkBoost b).map fun b => { r with boost := some b }
  | .format s => .ok { r with format := some s }
  | .relation relation => .ok { r with relation := some relation }
  | .timeZone s => .ok { r with timeZone := some s }

def configure (r : Range) (settings : List Setting) : Except Fault Range :=
  settings.foldlM set r

def same (r s : Range) : Bool :=
  r.field == s.field && sameOption Value.same r.above s.above &&
    sameOption Value.same r.atLeast s.atLeast && sameOption Value.same r.below s.below &&
    sameOption Value.same r.atMost s.atMost && sameOption Binary64.same r.boost s.boost &&
    r.format == s.format && r.relation == s.relation && r.timeZone == s.timeZone

/-- The parameters as fields of a document. -/
def fields (r : Range) : List (String × Document) :=
  Document.parameter "gt" Value.document r.above ++
    Document.parameter "gte" Value.document r.atLeast ++
    Document.parameter "lt" Value.document r.below ++
    Document.parameter "lte" Value.document r.atMost ++
    Document.parameter "boost" Document.float r.boost ++
    Document.parameter "format" .text r.format ++
    Document.parameter "relation" (fun relation => .text relation.name) r.relation ++
    Document.parameter "time_zone" .text r.timeZone

def document (r : Range) : Document :=
  .single "range" (.single r.field (.record r.fields))

end Range

end QueryAlgebra
