import QueryAlgebra.Proofs.Operators.Clauses

/-!
# Conjunction

`Group.and` starts from the mandatory clauses of both groups and adopts their optional
clauses one group after the other. `Group.Settled` is what every stage keeps: optional
clauses are there exactly when their minimum is written out. On a settled group one
adoption adds the quota of the operand and nothing else, whichever of its four ways it
takes, so that two groups are joined with their thresholds capped. A query that is no
group leaves the threshold of the group that takes it in alone.
-/

namespace QueryAlgebra

namespace Group

/-- Optional clauses are there exactly when their minimum is written out. -/
def Settled (g : Group Query) : Prop := g.minimum = none ↔ g.should = []

/-- What is mandatory in either group. -/
def mandatory (g h : Group Query) : Group Query where
  must := g.must ++ h.must
  mustNot := g.mustNot ++ h.mustNot
  filter := g.filter ++ h.filter
  boost := g.boost

theorem and_eq_adopt (g h : Group Query) :
    g.and h = ((g.mandatory h).adopt g).adopt h := rfl

theorem settled_mandatory (g h : Group Query) : (g.mandatory h).Settled := by
  simp [Settled, mandatory]

/-- The four ways in which optional clauses are taken over. In all but the first the
operand has more of them than it asks for. -/
theorem adopt_cases (g operand : Group Query) :
    (operand.should.length ≤ operand.threshold ∧
      g.adopt operand = { g with must := g.must ++ operand.should }) ∨
    (operand.threshold < operand.should.length ∧ g.should = [] ∧
      g.adopt operand =
        { g with should := operand.should, minimum := some operand.threshold }) ∨
    (operand.threshold < operand.should.length ∧ g.should ≠ [] ∧
      g.threshold = 0 ∧ operand.threshold = 0 ∧
      g.adopt operand = { g with should := g.should ++ operand.should }) ∨
    (operand.threshold < operand.should.length ∧ g.should ≠ [] ∧
      g.adopt operand = { g with must := g.must ++
        [.group { should := operand.should, minimum := some operand.threshold }] }) := by
  unfold adopt
  split
  · next hall => exact Or.inl ⟨hall, rfl⟩
  · next hsome =>
    have hfew : operand.threshold < operand.should.length := Nat.lt_of_not_le hsome
    split
    · next hnil =>
      exact Or.inr (Or.inl ⟨hfew, List.isEmpty_iff.mp hnil, rfl⟩)
    · next hne =>
      have hne' : g.should ≠ [] := fun h => hne (List.isEmpty_iff.mpr h)
      split
      · next hzero => exact Or.inr (Or.inr (Or.inl ⟨hfew, hne', hzero.1, hzero.2, rfl⟩))
      · exact Or.inr (Or.inr (Or.inr ⟨hfew, hne', rfl⟩))

/-- An adoption leaves alone what is filtered by, what is excluded and the boost. -/
theorem adopt_frame (g operand : Group Query) :
    (g.adopt operand).filter = g.filter ∧ (g.adopt operand).mustNot = g.mustNot ∧
      (g.adopt operand).boost = g.boost := by
  rcases adopt_cases g operand with
    ⟨-, he⟩ | ⟨-, -, he⟩ | ⟨-, -, -, -, he⟩ | ⟨-, -, he⟩
  all_goals
    rw [he]
    exact ⟨rfl, rfl, rfl⟩

/-- What is filtered by and what is excluded is kept in order; the boost is that of the first
group. -/
theorem and_frame (g h : Group Query) :
    (g.and h).filter = g.filter ++ h.filter ∧ (g.and h).mustNot = g.mustNot ++ h.mustNot ∧
      (g.and h).boost = g.boost := by
  obtain ⟨hfilter, hmustNot, hboost⟩ := adopt_frame (g.mandatory h) g
  obtain ⟨hfilter', hmustNot', hboost'⟩ := adopt_frame ((g.mandatory h).adopt g) h
  rw [and_eq_adopt, hfilter', hfilter, hmustNot', hmustNot, hboost', hboost]
  exact ⟨rfl, rfl, rfl⟩

theorem settled_adopt {g : Group Query} (h : g.Settled) (operand : Group Query) :
    (g.adopt operand).Settled := by
  rcases adopt_cases g operand with
    ⟨-, he⟩ | ⟨hfew, -, he⟩ | ⟨-, hne, -, -, he⟩ | ⟨-, -, he⟩
  · rw [he]
    exact h
  · have hshould : operand.should ≠ [] := List.length_pos_iff.mp (by omega)
    rw [he]
    simp [Settled, hshould]
  · have hmin : g.minimum ≠ none := fun hmin => hne (h.mp hmin)
    rw [he]
    simp [Settled, hne, hmin]
  · rw [he]
    exact h

theorem threshold_of_settled {g : Group Query} (h : g.Settled) :
    g.threshold = g.minimum.getD 0 := by
  cases hmin : g.minimum with
  | none =>
      have hshould : g.should = [] := h.mp hmin
      simp [threshold, hmin, hshould]
  | some n => exact threshold_of_minimum hmin

theorem pinned_of_minimum_eq_none {g : Group Query} (h : g.minimum = none) :
    g.pinned = if g.should = [] ∨ g.must ≠ [] ∨ g.filter ≠ [] then none else some 1 := by
  rw [pinned, h]
  grind

/-- A mandatory clause that is taken in leaves the threshold as it was: this is what the
pinned minimum is for. -/
theorem threshold_andClause (g : Group Query) (q : Query) :
    (g.andClause q).threshold = g.threshold := by
  cases hmin : g.minimum with
  | some n =>
      have hpinned : (g.andClause q).minimum = some n := by
        simp [andClause, pinned, hmin]
      rw [threshold_of_minimum hpinned, threshold_of_minimum hmin]
  | none =>
      have hpinned : (g.andClause q).minimum = g.pinned := rfl
      rw [pinned_of_minimum_eq_none hmin] at hpinned
      rw [threshold_of_minimum_eq_none hmin]
      by_cases hidle : g.should = [] ∨ g.must ≠ [] ∨ g.filter ≠ []
      · rw [if_pos hidle] at hpinned
        have hmust : (g.andClause q).must ≠ [] := by
          simp [andClause]
        rw [threshold_of_minimum_eq_none hpinned, if_pos hidle,
          if_pos (Or.inr (Or.inl hmust))]
      · rw [if_neg hidle] at hpinned
        rw [threshold_of_minimum hpinned, if_neg hidle]

section Admits

variable {v : Condition → Bool}

theorem admits_mandatory_iff (g h : Group Query) :
    (g.mandatory h).Admits v ↔ g.Admits v ∧ h.Admits v := by
  simp only [Admits, mandatory, List.forall_mem_append]
  tauto

theorem admits_must_append_iff (g : Group Query) (qs : List Query) :
    Admits v { g with must := g.must ++ qs } ↔
      g.Admits v ∧ ∀ q ∈ qs, Query.holds v q = true := by
  simp only [Admits, List.forall_mem_append]
  tauto

end Admits

end Group

namespace Query

variable {v : Condition → Bool}

/-- One adoption into a settled group adds the quota of the operand. -/
theorem holds_adopt_iff {g : Group Query} (h : g.Settled) (operand : Group Query) :
    holds v (group (g.adopt operand)) = true ↔
      holds v (group g) = true ∧ operand.quota ≤ operand.should.countP (holds v) := by
  have hsettled := Group.settled_adopt h operand
  rw [holds_group_iff_admits, holds_group_iff_admits, Group.threshold_of_settled hsettled,
    Group.threshold_of_settled h]
  rcases Group.adopt_cases g operand with
    ⟨hall, he⟩ | ⟨hfew, hnil, he⟩ | ⟨hfew, hne, hg, hoperand, he⟩ | ⟨hfew, hne, he⟩
  · rw [he, Group.admits_must_append_iff, Group.quota_of_length_le hall,
      length_le_countP_iff, and_right_comm]
  · have hmin : g.minimum = none := h.mpr hnil
    rw [he, Group.quota_of_attainable (Nat.le_of_lt hfew)]
    simp [hmin, Group.Admits]
  · have hzero : g.minimum.getD 0 = 0 := by
      rw [← Group.threshold_of_settled h, hg]
    rw [he, Group.quota_of_attainable (Nat.le_of_lt hfew)]
    simp [hzero, hoperand, Group.Admits]
  · rw [he, Group.admits_must_append_iff, List.forall_mem_singleton, holds_choice_iff,
      Group.quota_of_attainable (Nat.le_of_lt hfew), and_right_comm]

theorem holds_mandatory_iff (g h : Group Query) :
    holds v (group (g.mandatory h)) = true ↔ g.Admits v ∧ h.Admits v := by
  rw [holds_group_iff_admits, Group.admits_mandatory_iff]
  simp [Group.mandatory, Group.threshold]

theorem holds_and_groups (g h : Group Query) :
    holds v (group (g.and h)) =
      (holds v (group g.capped) && holds v (group h.capped)) := by
  have hmandatory := Group.settled_mandatory g h
  have hadopt := Group.settled_adopt hmandatory g
  rw [Bool.eq_iff_iff, Bool.and_eq_true, Group.and_eq_adopt, holds_adopt_iff hadopt,
    holds_adopt_iff hmandatory, holds_mandatory_iff, holds_capped_iff, holds_capped_iff,
    and_assoc, and_and_and_comm]

theorem holds_andClause (g : Group Query) (q : Query) :
    holds v (group (g.andClause q)) = (holds v (group g) && holds v q) := by
  rw [Bool.eq_iff_iff, Bool.and_eq_true, holds_group_iff_admits, holds_group_iff_admits,
    Group.threshold_andClause]
  have hadmits : (g.andClause q).Admits v ↔ g.Admits v ∧ holds v q = true := by
    rw [← List.forall_mem_singleton (p := fun q => holds v q = true)]
    exact Group.admits_must_append_iff g [q]
  rw [hadmits, and_right_comm]
  rfl

theorem holds_and_of_not_groups {a b : Query}
    (h : ¬(a.kind = .group ∧ b.kind = .group)) :
    holds v (a.and b) = (holds v a && holds v b) := by
  fun_cases and a b with
  | case1 => rw [holds_matchAll, Bool.true_and]
  | case2 => rw [holds_matchNone, Bool.false_and]
  | case3 => rw [holds_matchAll, Bool.and_true]
  | case4 => rw [holds_matchNone, Bool.and_false]
  | case5 => exact absurd ⟨rfl, rfl⟩ h
  | case6 => exact holds_andClause _ b
  | case7 => rw [holds_andClause, Bool.and_comm]
  | case8 =>
      rw [Bool.eq_iff_iff, Bool.and_eq_true, holds_must_iff]
      simp

theorem kind_eq_group_iff (q : Query) : q.kind = .group ↔ ∃ g, q = group g := by
  cases q <;> simp [kind]

/-- A group beside another group counts with its threshold capped; nothing else changes. -/
def cappedBeside : Query → Query → Query
  | group g, group _ => group g.capped
  | q, _ => q

theorem cappedBeside_of_not_groups {a b : Query}
    (h : ¬(a.kind = .group ∧ b.kind = .group)) : a.cappedBeside b = a := by
  fun_cases cappedBeside a b with
  | case1 => exact absurd ⟨rfl, rfl⟩ h
  | case2 => rfl

theorem holds_and_eq_cappedBeside (a b : Query) :
    holds v (a.and b) = (holds v (a.cappedBeside b) && holds v (b.cappedBeside a)) := by
  by_cases h : a.kind = .group ∧ b.kind = .group
  · obtain ⟨g, rfl⟩ := (kind_eq_group_iff a).mp h.1
    obtain ⟨k, rfl⟩ := (kind_eq_group_iff b).mp h.2
    exact holds_and_groups g k
  · rw [holds_and_of_not_groups h, cappedBeside_of_not_groups h,
      cappedBeside_of_not_groups (mt And.symm h)]

/-- The sides of a conjunction are no two groups one of which asks for more optional
clauses than it has. -/
def Attainable (a b : Query) : Prop :=
  ∀ g h, a = group g → b = group h →
    g.threshold ≤ g.should.length ∧ h.threshold ≤ h.should.length

theorem Attainable.symm {a b : Query} (h : Attainable a b) : Attainable b a :=
  fun g k hb ha => (h k g ha hb).symm

theorem Attainable.holds_cappedBeside {a b : Query} (h : Attainable a b) :
    holds v (a.cappedBeside b) = holds v a := by
  fun_cases cappedBeside a b with
  | case1 g k => exact holds_capped_of_attainable (h g k rfl rfl).1
  | case2 => rfl

theorem holds_and_of_attainable {a b : Query} (h : Attainable a b) :
    holds v (a.and b) = (holds v a && holds v b) := by
  rw [holds_and_eq_cappedBeside, h.holds_cappedBeside, h.symm.holds_cappedBeside]

/-- Conjunction is exact up to the capping of two groups, and exact without it unless one of
two groups asks for more optional clauses than it has. -/
theorem holds_and (v : Condition → Bool) (a b : Query) :
    holds v (a.and b) = (holds v (a.cappedBeside b) && holds v (b.cappedBeside a)) ∧
      (Attainable a b → holds v (a.and b) = (holds v a && holds v b)) :=
  ⟨holds_and_eq_cappedBeside a b, holds_and_of_attainable⟩

/-- Two of three fields and one of two: both choices are kept. -/
theorem holds_and_two_of_three :
    Attainable
        (group { should := [leaf (.presence ⟨"a"⟩), leaf (.presence ⟨"b"⟩),
          leaf (.presence ⟨"c"⟩)], minimum := some 2 })
        (group { should := [leaf (.presence ⟨"c"⟩), leaf (.presence ⟨"d"⟩)] }) ∧
      holds (fun c => c.field != "d")
          ((group { should := [leaf (.presence ⟨"a"⟩), leaf (.presence ⟨"b"⟩),
            leaf (.presence ⟨"c"⟩)], minimum := some 2 }).and
            (group { should := [leaf (.presence ⟨"c"⟩), leaf (.presence ⟨"d"⟩)] })) =
        true := by
  have h : Attainable
      (group { should := [leaf (.presence ⟨"a"⟩), leaf (.presence ⟨"b"⟩),
        leaf (.presence ⟨"c"⟩)], minimum := some 2 })
      (group { should := [leaf (.presence ⟨"c"⟩), leaf (.presence ⟨"d"⟩)] }) := by
    rintro g k ⟨⟩ ⟨⟩
    decide
  refine ⟨h, ?_⟩
  rw [(holds_and _ _ _).2 h]
  decide

/-- A group that asks for two clauses and has one matches nothing, but it does not keep a
conjunction with another group from matching. -/
example :
    holds (fun _ => true) (group { should := [leaf (.presence ⟨"a"⟩)], minimum := some 2 }) =
        false ∧
      holds (fun _ => true)
          ((group { should := [leaf (.presence ⟨"a"⟩)], minimum := some 2 }).and
            (group { must := [leaf (.presence ⟨"b"⟩)] })) = true := by
  decide

end Query

end QueryAlgebra
