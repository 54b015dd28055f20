import QueryAlgebra.Fault
import QueryAlgebra.Sameness

/-!
# Parameters of conditions

The checks that conditions share, and `Tuning`, the optional parameters of a condition that
compares with a single value. Settings are data: `set` applies one of them, and where a
parameter is set twice it holds the last value.
-/

namespace QueryAlgebra

/-- A boost has to be finite and not negative. -/
def isBoost (b : Binary64) : Bool := b.isFinite && b.isNonnegative

/-- The boost itself, where it is allowed. -/
def checkBoost (b : Binary64) : Except Fault Binary64 :=
  if isBoost b then .ok b else .error (.badBoost b)

/-- The value itself, where it is finite. -/
def checkValue (kind : ConditionKind) (field : String) (v : Value) : Except Fault Value :=
  if v.isFinite then .ok v else .error (.notFinite kind field)

theorem checkBoost_eq_ok_iff (b c : Binary64) :
    checkBoost b = .ok c ↔ isBoost b = true ∧ b = c := by
  unfold checkBoost
  split <;> simp_all

theorem checkValue_eq_ok_iff (kind : ConditionKind) (field : String) (v w : Value) :
    checkValue kind field v = .ok w ↔ v.isFinite = true ∧ v = w := by
  unfold checkValue
  split <;> simp_all

/-- The optional parameters of a comparison with a single value. -/
structure Tuning where
  boost : Option Binary64 := none
  caseInsensitive : Option Bool := none
  deriving DecidableEq

namespace Tuning

inductive Setting where
  | boost (b : Binary64)
  | caseInsensitive (b : Bool)
  deriving DecidableEq

def set (t : Tuning) : Setting → Except Fault Tuning
  | .boost b => (checkBoost b).map fun b => { t with boost := some b }
  | .caseInsensitive b => .ok { t with caseInsensitive := some b }

def same (s t : Tuning) : Bool :=
  sameOption Binary64.same s.boost t.boost && s.caseInsensitive == t.caseInsensitive

/-- The parameters as fields of a document. -/
def fields (t : Tuning) : List (String × Document) :=
  Document.parameter "case_insensitive" .bool t.caseInsensitive ++
    Document.parameter "boost" Document.float t.boost

end Tuning

end QueryAlgebra
