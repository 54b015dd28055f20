import QueryAlgebra.Condition.Tuning
import QueryAlgebra.Text.Blank

/-!
# Comparison with several values

A `Terms` asks for a field that equals one of several values. On the wire the values stand
under the field's name in one record with the boost, so no field may have that name.
-/

namespace QueryAlgebra

/-- The field equals one of several values, all of one kind. -/
structure Terms where
  field : String
  values : List Value
  boost : Option Binary64 := none
  deriving DecidableEq

namespace Terms

/-- The name that stands beside the field on the wire. -/
def reserved : String := "boost"

/-- The field is checked first, then every value by itself, and only then their number and
their kinds. -/
def create (field : String) (values : List Value) : Except Fault Terms :=
  if Text.isBlank field then .error (.blankField .terms)
  else if field = reserved then .error (.reservedField field)
  else if values.all Value.isFinite then
    match values with
    | [] => .error (.noTerms field)
    | first :: rest =>
      match rest.find? fun v => v.kind ≠ first.kind with
      | some other => .error (.mixedTerms field first.kind other.kind)
      | none => .ok { field, values := first :: rest }
  else .error (.notFinite .terms field)

def setBoost (t : Terms) (b : Binary64) : Except Fault Terms :=
  (checkBoost b).map fun b => { t with boost := some b }

def same (s t : Terms) : Bool :=
  s.field == t.field && sameList Value.same s.values t.values &&
    sameOption Binary64.same s.boost t.boost

def document (t : Terms) : Document :=
  .single "terms" (.record ((t.field, .list (t.values.map Value.document)) ::
    Document.parameter reserved Document.float t.boost))

end Terms

end QueryAlgebra
