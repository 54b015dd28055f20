import Mathlib.Tactic.Common
import QueryAlgebra.Query.Algebra
import QueryAlgebra.Query.Matching

/-!
# What the clauses of a group decide

A group matches when it admits the record, so that its mandatory clauses match and no
excluded one does, and when enough of its optional clauses match. Both parts split along
appended buckets, and this is how the operators are followed: `Group.Admits` gathers what
`must`, `filter` and `mustNot` say, and `Group.quota` is the number of optional clauses that
a group asks for and has.

`Group.capped` asks for the quota alone. It is the group itself exactly where the threshold
is within reach.
-/

namespace QueryAlgebra

namespace Group

variable {α : Type}

/-- Every mandatory clause matches and no excluded one does. -/
def Admits (v : Condition → Bool) (g : Group Query) : Prop :=
  (∀ q ∈ g.must, Query.holds v q = true) ∧ (∀ q ∈ g.filter, Query.holds v q = true) ∧
    ∀ q ∈ g.mustNot, Query.holds v q = false

/-- The number of optional clauses that have to match, where the group has as many; all of
them otherwise. -/
def quota (g : Group α) : Nat := min g.threshold g.should.length

/-- The group with its quota for a minimum. -/
def capped (g : Group α) : Group α := { g with minimum := some g.quota }

@[simp] theorem threshold_capped (g : Group α) : g.capped.threshold = g.quota := rfl

theorem quota_of_attainable {g : Group α} (h : g.threshold ≤ g.should.length) :
    g.quota = g.threshold :=
  Nat.min_eq_left h

theorem quota_of_length_le {g : Group α} (h : g.should.length ≤ g.threshold) :
    g.quota = g.should.length :=
  Nat.min_eq_right h

/-- Without a minimum, optional clauses count only where nothing else is mandatory. -/
theorem threshold_of_minimum_eq_none {g : Group α} (h : g.minimum = none) :
    g.threshold = if g.should = [] ∨ g.must ≠ [] ∨ g.filter ≠ [] then 0 else 1 := by
  simp [threshold, h, or_assoc]

theorem forall_mem_clauses_iff (g : Group α) (p : α → Prop) :
    (∀ a ∈ g.clauses, p a) ↔
      (∀ a ∈ g.must, p a) ∧ (∀ a ∈ g.should, p a) ∧ (∀ a ∈ g.mustNot, p a) ∧
        ∀ a ∈ g.filter, p a := by
  simp only [clauses, List.forall_mem_append, and_assoc]

theorem isOptional_iff (g : Group α) :
    g.isOptional = true ↔
      g.must = [] ∧ g.mustNot = [] ∧ g.filter = [] ∧ g.minimum = none := by
  simp [isOptional, and_assoc]

end Group

namespace Query

variable {v : Condition → Bool}

theorem holds_group_iff_admits (g : Group Query) :
    holds v (group g) = true ↔
      g.Admits v ∧ g.threshold ≤ g.should.countP (holds v) := by
  rw [holds_group_iff, Group.Admits, and_assoc, and_assoc]

theorem holds_capped_iff (g : Group Query) :
    holds v (group g.capped) = true ↔ g.Admits v ∧ g.quota ≤ g.should.countP (holds v) := by
  rw [holds_group_iff_admits, Group.threshold_capped]
  rfl

theorem holds_capped_of_attainable {g : Group Query}
    (h : g.threshold ≤ g.should.length) :
    holds v (group g.capped) = holds v (group g) := by
  rw [Bool.eq_iff_iff, holds_capped_iff, holds_group_iff_admits,
    Group.quota_of_attainable h]

/-- All clauses match exactly when as many match as there are. -/
theorem length_le_countP_iff (qs : List Query) :
    qs.length ≤ qs.countP (holds v) ↔ ∀ q ∈ qs, holds v q = true := by
  rw [← List.countP_eq_length]
  constructor
  · intro h
    exact Nat.le_antisymm List.countP_le_length h
  · intro h
    exact Nat.le_of_eq h.symm

theorem holds_must_iff (qs : List Query) :
    holds v (group { must := qs }) = true ↔ ∀ q ∈ qs, holds v q = true := by
  rw [holds_group_iff_admits]
  simp [Group.Admits, Group.threshold]

theorem holds_mustNot_iff (qs : List Query) :
    holds v (group { mustNot := qs }) = true ↔ ∀ q ∈ qs, holds v q = false := by
  rw [holds_group_iff_admits]
  simp [Group.Admits, Group.threshold]

theorem holds_choice_iff (qs : List Query) (n : Nat) :
    holds v (group { should := qs, minimum := some n }) = true ↔
      n ≤ qs.countP (holds v) := by
  rw [holds_group_iff_admits]
  simp [Group.Admits, Group.threshold]

/-- Of an optional group one clause has to match, unless it has none. -/
theorem holds_of_isOptional {g : Group Query} (h : g.isOptional = true) :
    holds v (group g) = true ↔ g.should = [] ∨ ∃ q ∈ g.should, holds v q = true := by
  have hthreshold := Group.threshold_of_isOptional h
  obtain ⟨hmust, hmustNot, hfilter, -⟩ := (Group.isOptional_iff g).mp h
  have hadmits : g.Admits v := by
    simp [Group.Admits, hmust, hmustNot, hfilter]
  rw [holds_group_iff_admits, hthreshold]
  by_cases hshould : g.should = []
  · simp [hshould, hadmits]
  · simp [hshould, hadmits]

theorem holds_should_iff {qs : List Query} (h : qs ≠ []) :
    holds v (group { should := qs }) = true ↔ ∃ q ∈ qs, holds v q = true := by
  rw [holds_of_isOptional rfl]
  exact or_iff_right h

end Query

end QueryAlgebra
