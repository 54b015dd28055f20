import QueryAlgebra.Condition.Comparison
import QueryAlgebra.Condition.Range
import QueryAlgebra.Condition.Terms

/-!
# Conditions on a field

A `Condition` is about a single field: it equals a value or one of several, starts with a
text, lies between bounds, or holds anything at all.
-/

namespace QueryAlgebra

/-- The field holds any value at all. -/
structure Presence where
  field : String
  deriving DecidableEq

namespace Presence

def create (field : String) : Except Fault Presence :=
  if Text.isBlank field then .error (.blankField .presence) else .ok { field }

def document (p : Presence) : Document :=
  .single "exists" (.single "field" (.text p.field))

end Presence

/-- A condition on a single field. -/
inductive Condition where
  | term (t : Term)
  | startsWith (t : StartsWith)
  | terms (t : Terms)
  | range (r : Range)
  | presence (p : Presence)
  deriving DecidableEq

namespace Condition

def kind : Condition → ConditionKind
  | term _ => .term
  | startsWith _ => .startsWith
  | terms _ => .terms
  | range _ => .range
  | presence _ => .presence

def field : Condition → String
  | term t => t.field
  | startsWith t => t.field
  | terms t => t.field
  | range r => r.field
  | presence p => p.field

def same : Condition → Condition → Bool
  | term s, term t => s.same t
  | startsWith s, startsWith t => s.same t
  | terms s, terms t => s.same t
  | range s, range t => s.same t
  | presence s, presence t => s == t
  | _, _ => false

/-- The condition as it is sent. -/
def document : Condition → Document
  | term t => t.document
  | startsWith t => t.document
  | terms t => t.document
  | range r => r.document
  | presence p => p.document

end Condition

end QueryAlgebra
