/-!
# Kinds of conditions

The kinds of conditions on a single field, with their names on the wire.
-/

namespace QueryAlgebra

/-- The kinds of conditions on a field. -/
inductive ConditionKind where
  | term
  | startsWith
  | terms
  | range
  | presence
  deriving DecidableEq

/-- The name of the condition on the wire. -/
def ConditionKind.name : ConditionKind → String
  | term => "term"
  | startsWith => "prefix"
  | terms => "terms"
  | range => "range"
  | presence => "exists"

theorem ConditionKind.name_injective : Function.Injective ConditionKind.name := by
  intro k l h
  cases k <;> cases l <;> first | rfl | simp [name] at h

end QueryAlgebra
