import QueryAlgebra.SortKey
import QueryAlgebra.Fault
import QueryAlgebra.Text.Blank

/-!
# Request defaults

`Defaults` are the page size, the attributes and the sort keys that a request has when
nothing else is said. Defaults that come from a text are checked: a page holds at least one
result, and every sort key names a field.
-/

namespace QueryAlgebra

/-- The page size when none is configured. -/
def Defaults.standardPageSize : Nat := 100

/-- What a request has when nothing else is said. -/
structure Defaults where
  pageSize : Nat := Defaults.standardPageSize
  attributes : List String := []
  sort : List SortKey := []
  deriving DecidableEq

namespace Defaults

/-- The defaults themselves, where they can be used. The page size is looked at first. -/
def check (d : Defaults) : Except Fault Defaults :=
  if d.pageSize = 0 then .error (.defaults .zeroPageSize)
  else if d.sort.any fun k => Text.isBlank k.field then .error (.defaults .blankSortField)
  else .ok d

theorem check_eq_ok_iff (d e : Defaults) :
    d.check = .ok e ↔
      d = e ∧ d.pageSize ≠ 0 ∧ ∀ k ∈ d.sort, Text.isBlank k.field = false := by
  unfold check
  split
  case isTrue hzero => simp [hzero]
  case isFalse hzero =>
    split
    case isTrue hblank =>
      obtain ⟨k, hk, hb⟩ := List.any_eq_true.mp hblank
      exact ⟨fun h => (nomatch h), fun h => absurd hb (by simp [h.2.2 k hk])⟩
    case isFalse hblank =>
      have hfields : ∀ k ∈ d.sort, Text.isBlank k.field = false := by
        simpa using hblank
      exact ⟨fun h => ⟨Except.ok.inj h, hzero, hfields⟩, fun h => by rw [h.1]⟩

end Defaults

end QueryAlgebra
