import QueryAlgebra.Proofs.Operators.Clauses

/-!
# Complement

The negation of a group is one of the ways in which the group can fail,
`Group.failures`: the negation of a mandatory clause, an excluded clause, or the exclusion
of all optional clauses where some of them have to match. `holds_negate_group_iff` says so
in terms of the clauses, whatever becomes of a list with no failure or a single one.

No record matches both a query and its negation. For the converse the exclusion of all
optional clauses has to be the only way of missing the threshold, so that `Group.Modest` is
asked for, of the query and of every group that its negation negates in turn. These are the
groups that are reached through mandatory clauses, `Query.Negatable`.
-/

namespace QueryAlgebra

namespace Group

/-- One optional clause at most is asked for, and only where there is one. -/
def Modest {α : Type} (g : Group α) : Prop :=
  g.threshold ≤ 1 ∧ g.threshold ≤ g.should.length

theorem modest_map {α β : Type} (f : α → β) (g : Group α) :
    (g.map f).Modest ↔ g.Modest := by
  have h : (g.map f).should.length = g.should.length := List.length_map f
  rw [Modest, threshold_map, h, Modest]

/-- The ways in which a group can fail, from the negations of its `must` and `filter`
clauses. -/
def failures (g : Group Query) (must filter : List Query) : List Query :=
  must ++ filter ++ g.mustNot ++
    if !g.should.isEmpty && 0 < g.threshold then [.group { mustNot := g.should }] else []

theorem Modest.threshold_le_countP {α : Type} {g : Group α} (h : g.Modest) {p : α → Bool}
    (hp : ∃ a ∈ g.should, p a = true) : g.threshold ≤ g.should.countP p :=
  Nat.le_trans h.1 (List.one_le_countP_iff.mpr hp)

end Group

namespace Query

/-- One of the queries, as a negation gives it. -/
def oneOf : List Query → Query
  | [] => matchNone
  | [q] => q
  | qs => group { should := qs }

/-- The query, where it is a group, and every group reached from it through mandatory
clauses are modest. -/
def Negatable : Query → Prop :=
  fold (fun _ => True) True (fun _ => True)
    (fun g => g.Modest ∧ (∀ p ∈ g.must, p) ∧ ∀ p ∈ g.filter, p)

theorem negatable_group_iff (g : Group Query) :
    Negatable (group g) ↔
      g.Modest ∧ (∀ q ∈ g.must, Negatable q) ∧ ∀ q ∈ g.filter, Negatable q := by
  have h : Negatable (group g) = ((g.map Negatable).Modest ∧
      (∀ p ∈ (g.map Negatable).must, p) ∧ ∀ p ∈ (g.map Negatable).filter, p) :=
    fold_group _ _ _ _ g
  rw [h, Group.modest_map]
  simp only [Group.map, List.forall_mem_map]

theorem negate_group_eq_oneOf (g : Group Query) :
    negate (group g) = oneOf (g.failures (g.must.map negate) (g.filter.map negate)) := by
  rw [negate_group, Group.negation, oneOf.eq_def]
  rfl

variable {v : Condition → Bool}

theorem holds_oneOf (qs : List Query) : holds v (oneOf qs) = qs.any (holds v) := by
  match qs with
  | [] => rfl
  | [q] => simp [oneOf]
  | q :: r :: qs =>
      rw [Bool.eq_iff_iff, List.any_eq_true]
      exact holds_should_iff (List.cons_ne_nil q (r :: qs))

/-- The negation of a group, in terms of the clauses. -/
theorem holds_negate_group_iff (g : Group Query) :
    holds v (negate (group g)) = true ↔
      (∃ q ∈ g.must, holds v (negate q) = true) ∨
        (∃ q ∈ g.filter, holds v (negate q) = true) ∨
        (∃ q ∈ g.mustNot, holds v q = true) ∨
        (0 < g.threshold ∧ g.should ≠ [] ∧ ∀ q ∈ g.should, holds v q = false) := by
  have hexclusion : (if !g.should.isEmpty && 0 < g.threshold then
        [group { mustNot := g.should }] else []).any (holds v) = true ↔
      0 < g.threshold ∧ g.should ≠ [] ∧ ∀ q ∈ g.should, holds v q = false := by
    by_cases hgating : g.should ≠ [] ∧ 0 < g.threshold
    · rw [if_pos (by simpa using hgating), List.any_cons, List.any_nil, Bool.or_false,
        holds_mustNot_iff]
      simp [hgating]
    · rw [if_neg (by simpa using hgating)]
      simp
      tauto
  rw [negate_group_eq_oneOf, holds_oneOf, Group.failures, List.any_append, Bool.or_eq_true,
    hexclusion]
  simp [or_assoc]

/-- No record matches both a query and its negation. -/
theorem holds_eq_false_of_holds_negate {q : Query} (h : holds v (negate q) = true) :
    holds v q = false := by
  induction q with
  | matchAll boost => exact absurd h (by simp [negate])
  | matchNone => rfl
  | leaf c =>
      have hexcluded := (holds_mustNot_iff [leaf c]).mp h
      exact hexcluded (leaf c) List.mem_cons_self
  | group g hmust _ _ hfilter =>
      rw [← Bool.not_eq_true]
      intro hg
      -- excluded and optional clauses are not negated themselves and need no hypothesis
      obtain ⟨⟨hallMust, hallFilter, hnone⟩, henough⟩ := (holds_group_iff_admits g).mp hg
      rcases (holds_negate_group_iff g).mp h with
        ⟨q, hq, hnot⟩ | ⟨q, hq, hnot⟩ | ⟨q, hq, hholds⟩ | ⟨hpos, -, hfalse⟩
      · exact absurd (hallMust q hq) (by simp [hmust q hq hnot])
      · exact absurd (hallFilter q hq) (by simp [hfilter q hq hnot])
      · exact absurd hholds (by simp [hnone q hq])
      · obtain ⟨q, hq, hholds⟩ := List.countP_pos_iff.mp (Nat.lt_of_lt_of_le hpos henough)
        exact absurd hholds (by simp [hfalse q hq])

/-- What a negatable query does not match, its negation matches. -/
theorem holds_negate_of_holds_eq_false {q : Query} (hq : q.Negatable)
    (h : holds v q = false) : holds v (negate q) = true := by
  induction q with
  | matchAll boost => exact absurd h (by simp)
  | matchNone => rfl
  | leaf c =>
      refine (holds_mustNot_iff [leaf c]).mpr ?_
      simpa using h
  | group g hmust _ _ hfilter =>
      obtain ⟨hmodest, hnegMust, hnegFilter⟩ := (negatable_group_iff g).mp hq
      by_contra hfails
      simp only [holds_negate_group_iff, not_or, not_exists, not_and] at hfails
      obtain ⟨hfailMust, hfailFilter, hfailNot, hfailShould⟩ := hfails
      have hadmits : g.Admits v := by
        refine ⟨?_, ?_, ?_⟩
        · intro q hq
          by_contra hfalse
          exact hfailMust q hq (hmust q hq (hnegMust q hq) (Bool.eq_false_iff.mpr hfalse))
        · intro q hq
          by_contra hfalse
          exact hfailFilter q hq (hfilter q hq (hnegFilter q hq) (Bool.eq_false_iff.mpr hfalse))
        · intro q hq
          exact Bool.eq_false_iff.mpr (hfailNot q hq)
      have henough : g.threshold ≤ g.should.countP (holds v) := by
        rcases Nat.eq_zero_or_pos g.threshold with hzero | hpos
        · rw [hzero]
          exact Nat.zero_le _
        · -- a threshold of one is missed only if every optional clause is
          have hshould : g.should ≠ [] :=
            List.length_pos_iff.mp (Nat.lt_of_lt_of_le hpos hmodest.2)
          apply hmodest.threshold_le_countP
          simpa using hfailShould hpos hshould
      have hg := (holds_group_iff_admits g).mpr ⟨hadmits, henough⟩
      exact absurd hg (by simp [h])

theorem holds_negate_of_negatable {q : Query} (hq : q.Negatable) :
    holds v (negate q) = !holds v q := by
  cases h : holds v q with
  | false => exact holds_negate_of_holds_eq_false hq h
  | true =>
      rw [Bool.not_true, ← Bool.not_eq_true]
      intro hnegate
      exact absurd (holds_eq_false_of_holds_negate hnegate) (by simp [h])

/-- No record matches both a query and its negation, and every record matches one of them
where the query is negatable. -/
theorem holds_negate (v : Condition → Bool) (q : Query) :
    ¬(holds v q = true ∧ holds v (negate q) = true) ∧
      (q.Negatable → holds v (negate q) = !holds v q) := by
  refine ⟨?_, holds_negate_of_negatable⟩
  rintro ⟨hq, hnegate⟩
  exact absurd hq (by simp [holds_eq_false_of_holds_negate hnegate])

/-- What is excluded or optional may ask for more than it has. -/
theorem holds_negate_excluded_choice :
    Negatable (group {
        must := [group { should := [leaf (.presence ⟨"a"⟩), leaf (.presence ⟨"b"⟩)] }]
        should := [group { should := [leaf (.presence ⟨"c"⟩)], minimum := some 3 }]
        mustNot := [group { should := [leaf (.presence ⟨"d"⟩)], minimum := some 2 }]
        minimum := some 1 }) ∧
      holds (fun _ => true) (negate (group {
        must := [group { should := [leaf (.presence ⟨"a"⟩), leaf (.presence ⟨"b"⟩)] }]
        should := [group { should := [leaf (.presence ⟨"c"⟩)], minimum := some 3 }]
        mustNot := [group { should := [leaf (.presence ⟨"d"⟩)], minimum := some 2 }]
        minimum := some 1 })) = true := by
  have h : Negatable (group {
      must := [group { should := [leaf (.presence ⟨"a"⟩), leaf (.presence ⟨"b"⟩)] }]
      should := [group { should := [leaf (.presence ⟨"c"⟩)], minimum := some 3 }]
      mustNot := [group { should := [leaf (.presence ⟨"d"⟩)], minimum := some 2 }]
      minimum := some 1 }) := by
    simp [negatable_group_iff, Group.Modest, Group.threshold]
  refine ⟨h, ?_⟩
  rw [(holds_negate _ _).2 h]
  decide

end Query

end QueryAlgebra
