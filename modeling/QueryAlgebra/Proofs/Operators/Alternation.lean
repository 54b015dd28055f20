import Mathlib.Logic.Function.Iterate
import QueryAlgebra.Proofs.Operators.Chains
import QueryAlgebra.Proofs.Operators.Flatness

/-!
# Repeated negation

Negation is not its own inverse: it drops boosts and clauses that do not count, and it gives up a
group for the only way in which the group can fail. Negated again and again, a query nevertheless
ends up alternating with its negation, `Query.Alternates`, and `Query.SettlesWithin` counts the
negations that this takes.

One negation of a group is enough unless the group can fail in a single way. That way then stands
for the group, `negate_group_cases`: a clause, the negation of a clause, or the exclusion of one.
The clause comes to light after two negations at most, which pays for one level of depth.
-/

namespace QueryAlgebra

namespace Query

/-- Two negations lead back to the query. -/
def Alternates (q : Query) : Prop := negate (negate q) = q

/-- After that many negations at most, the query alternates. -/
def SettlesWithin (n : Nat) (q : Query) : Prop := ∃ k ≤ n, Alternates (negate^[k] q)

/-- The query alternates with a negation of its own depth. -/
structure Balanced (q : Query) : Prop where
  alternates : Alternates q
  depth_eq : depth (negate q) = depth q

theorem iterate_negate_add_two (n : Nat) (q : Query) :
    negate^[n + 2] q = negate^[n] q ↔ Alternates (negate^[n] q) := by
  rw [Function.iterate_succ_apply', Function.iterate_succ_apply']
  rfl

section Alternating

theorem alternates_leaf (c : Condition) : Alternates (leaf c) := rfl

theorem negate_should {qs : List Query} (h : qs ≠ []) :
    negate (group { should := qs }) = group { mustNot := qs } := by
  rw [negate_group_eq_oneOf]
  simp [Group.failures, Group.threshold, h, oneOf]

theorem negate_mustNot (qs : List Query) : negate (group { mustNot := qs }) = oneOf qs := by
  rw [negate_group_eq_oneOf]
  simp [Group.failures]

theorem oneOf_of_two_le_length {qs : List Query} (h : 2 ≤ qs.length) :
    oneOf qs = group { should := qs } := by
  obtain ⟨q, r, rest, rfl⟩ := exists_cons_cons_of_two_le_length h
  rfl

theorem Balanced.negation {q : Query} (h : Balanced q) : Balanced (negate q) where
  alternates := congrArg negate h.alternates
  depth_eq := by rw [h.alternates, h.depth_eq]

theorem balanced_matchNone : Balanced matchNone := ⟨rfl, rfl⟩

theorem balanced_matchAll : Balanced (matchAll none) := balanced_matchNone.negation

section Bucket

variable {qs : List Query} (h : 2 ≤ qs.length)
include h

theorem balanced_should : Balanced (group { should := qs }) := by
  have hshould := negate_should (List.ne_nil_of_length_pos (Nat.lt_of_succ_lt h))
  refine ⟨?_, ?_⟩
  · rw [Alternates, hshould, negate_mustNot, oneOf_of_two_le_length h]
  · rw [hshould, depth_group, depth_group]
    simp [Group.clauses]

theorem balanced_mustNot : Balanced (group { mustNot := qs }) := by
  rw [← negate_should (List.ne_nil_of_length_pos (Nat.lt_of_succ_lt h))]
  exact (balanced_should h).negation

end Bucket

theorem Alternates.iterate {q : Query} (h : Alternates q) (k : Nat) :
    negate^[k] q = q ∨ negate^[k] q = negate q := by
  induction k with
  | zero => exact Or.inl rfl
  | succ k ih =>
      rw [Function.iterate_succ_apply']
      rcases ih with he | he
      · exact Or.inr (congrArg negate he)
      · rw [he]
        exact Or.inl h

theorem Balanced.depth_iterate {q : Query} (h : Balanced q) (k : Nat) :
    depth (negate^[k] q) = depth q := by
  rcases h.alternates.iterate k with he | he
  · rw [he]
  · rw [he, h.depth_eq]

end Alternating

section Settling

/-- What a single way of failing makes of a negation. Without one, or with several of them, the
negation alternates and stays as deep as it is. -/
theorem negate_group_cases (g : Group Query) :
    Balanced (negate (group g)) ∨
      ∃ q ∈ g.clauses, negate (group g) = negate q ∨ negate (group g) = q ∨
        negate (group g) = group { mustNot := [q] } := by
  rw [negate_group_eq_oneOf]
  rcases hfailures : g.failures (g.must.map negate) (g.filter.map negate) with
    _ | ⟨f, _ | ⟨f', fs⟩⟩
  · exact Or.inl balanced_matchNone
  · have hf : f ∈ g.failures (g.must.map negate) (g.filter.map negate) := by
      simp [hfailures]
    simp only [Group.failures, List.mem_append, List.mem_map] at hf
    rcases hf with ((⟨q, hq, rfl⟩ | ⟨q, hq, rfl⟩) | hq) | hexclusion
    · exact Or.inr ⟨q, by simp [Group.clauses, hq], Or.inl rfl⟩
    · exact Or.inr ⟨q, by simp [Group.clauses, hq], Or.inl rfl⟩
    · exact Or.inr ⟨f, by simp [Group.clauses, hq], Or.inr (Or.inl rfl)⟩
    · -- the exclusion of all optional clauses, of which there may be just one
      split at hexclusion
      · next hgating =>
        obtain rfl := List.mem_singleton.mp hexclusion
        rcases hshould : g.should with _ | ⟨q, _ | ⟨r, qs⟩⟩
        · simp [hshould] at hgating
        · exact Or.inr ⟨q, by simp [Group.clauses, hshould], Or.inr (Or.inr rfl)⟩
        · exact Or.inl (balanced_mustNot (by simp))
      · exact absurd hexclusion List.not_mem_nil
  · exact Or.inl (balanced_should (by simp))

variable {n : Nat} {q r : Query}

theorem SettlesWithin.mono {m : Nat} (h : SettlesWithin n q) (hle : n ≤ m) :
    SettlesWithin m q := by
  obtain ⟨k, hk, halternates⟩ := h
  exact ⟨k, Nat.le_trans hk hle, halternates⟩

theorem SettlesWithin.of_alternates (h : Alternates q) : SettlesWithin n q :=
  ⟨0, Nat.zero_le n, h⟩

theorem SettlesWithin.of_negate (h : SettlesWithin n (negate q)) : SettlesWithin (n + 1) q := by
  obtain ⟨k, hk, halternates⟩ := h
  exact ⟨k + 1, Nat.succ_le_succ hk, halternates⟩

theorem SettlesWithin.negation (h : SettlesWithin n q) : SettlesWithin n (negate q) := by
  obtain ⟨k, hk, halternates⟩ := h
  refine ⟨k, hk, ?_⟩
  rw [← Function.iterate_succ_apply, Function.iterate_succ_apply']
  exact congrArg negate halternates

/-- A level of depth costs two negations at most. -/
theorem settlesWithin_depth (q : Query) : SettlesWithin (2 * depth q + 1) q := by
  induction q with
  | matchAll boost => exact .of_negate (.of_alternates balanced_matchNone.alternates)
  | matchNone => exact .of_alternates balanced_matchNone.alternates
  | leaf c => exact .of_alternates (alternates_leaf c)
  | group g hmust hshould hmustNot hfilter =>
      have hclauses : ∀ q ∈ g.clauses, SettlesWithin (2 * depth q + 1) q :=
        (Group.forall_mem_clauses_iff g _).mpr ⟨hmust, hshould, hmustNot, hfilter⟩
      rcases negate_group_cases g with hbalanced | ⟨q, hq, hnegate⟩
      · exact .of_negate (.of_alternates hbalanced.alternates)
      · have hsettles := hclauses q hq
        have hdepth := depth_lt_of_mem_clauses hq
        rcases hnegate with he | he | he
        · have hnext : SettlesWithin (2 * depth q + 1) (negate (group g)) := by
            rw [he]
            exact hsettles.negation
          exact hnext.of_negate.mono (by omega)
        · have hnext : SettlesWithin (2 * depth q + 1) (negate (group g)) := by
            rwa [he]
          exact hnext.of_negate.mono (by omega)
        · have hnext : SettlesWithin (2 * depth q + 1) (negate (negate (group g))) := by
            rwa [he, negate_mustNot]
          exact hnext.of_negate.of_negate.mono (by omega)

/-- However often a query is negated, it gets one level deeper at most. -/
theorem depth_iterate_negate_le (q : Query) (k : Nat) :
    depth (negate^[k] q) ≤ depth q + 1 := by
  induction q generalizing k with
  | matchAll boost =>
      cases k with
      | zero => exact Nat.zero_le _
      | succ k => exact Nat.le_succ_of_le (Nat.le_of_eq (balanced_matchNone.depth_iterate k))
  | matchNone => exact Nat.le_succ_of_le (Nat.le_of_eq (balanced_matchNone.depth_iterate k))
  | leaf c =>
      rcases (alternates_leaf c).iterate k with he | he
      · rw [he]
        exact Nat.le_succ _
      · rw [he]
        exact depth_negate_le _
  | group g hmust hshould hmustNot hfilter =>
      have hclauses : ∀ q ∈ g.clauses, ∀ k, depth (negate^[k] q) ≤ depth q + 1 :=
        (Group.forall_mem_clauses_iff g _).mpr ⟨hmust, hshould, hmustNot, hfilter⟩
      cases k with
      | zero => exact Nat.le_succ _
      | succ k =>
          rw [Function.iterate_succ_apply]
          rcases negate_group_cases g with hbalanced | ⟨q, hq, hnegate⟩
          · rw [hbalanced.depth_iterate]
            exact depth_negate_le _
          · have hdepth := depth_lt_of_mem_clauses hq
            rcases hnegate with he | he | he
            · rw [he, ← Function.iterate_succ_apply]
              exact Nat.le_trans (hclauses q hq _) (by omega)
            · rw [he]
              exact Nat.le_trans (hclauses q hq _) (by omega)
            · rw [he]
              cases k with
              | zero =>
                  have hexcluded : depth (group { mustNot := [q] }) ≤ depth q + 1 := by
                    rw [depth_group_le_iff]
                    simp [Group.clauses]
                  exact Nat.le_trans hexcluded (by omega)
              | succ k =>
                  rw [Function.iterate_succ_apply, negate_mustNot]
                  exact Nat.le_trans (hclauses q hq _) (by omega)

/-- Every negation of a query that settles is among the first ones. -/
theorem SettlesWithin.exists_iterate_eq (h : SettlesWithin n q) (k : Nat) :
    ∃ j ≤ n + 1, negate^[k] q = negate^[j] q := by
  obtain ⟨m, hm, halternates⟩ := h
  rcases Nat.le_total k m with hk | hk
  · exact ⟨k, by omega, rfl⟩
  · obtain ⟨i, rfl⟩ := Nat.exists_eq_add_of_le' hk
    rw [Function.iterate_add_apply]
    rcases halternates.iterate i with he | he
    · exact ⟨m, by omega, he⟩
    · refine ⟨m + 1, by omega, ?_⟩
      rw [he, Function.iterate_succ_apply']

end Settling

/-- Repeated negation ends in a cycle of two queries, after twice as many negations as the query
has levels and one more. Until then only that many different queries come up, none of them more
than one level deeper than the query. The cycle is reached at once by conditions, constants
without a boost, and groups of two or more clauses that are all optional or all excluded. -/
theorem cycle_of_negations :
    (∀ q : Query,
      (∃ n ≤ 2 * depth q + 1, negate^[n + 2] q = negate^[n] q) ∧
        ∀ k, (∃ j ≤ 2 * depth q + 2, negate^[k] q = negate^[j] q) ∧
          depth (negate^[k] q) ≤ depth q + 1) ∧
      (∀ c, negate^[2] (leaf c) = leaf c) ∧
      negate^[2] matchNone = matchNone ∧
      negate^[2] (matchAll none) = matchAll none ∧
      ∀ qs : List Query, 2 ≤ qs.length →
        negate^[2] (group { should := qs }) = group { should := qs } ∧
          negate^[2] (group { mustNot := qs }) = group { mustNot := qs } := by
  refine ⟨?_, alternates_leaf, balanced_matchNone.alternates, balanced_matchAll.alternates, ?_⟩
  · intro q
    have hsettles := settlesWithin_depth q
    constructor
    · obtain ⟨n, hn, halternates⟩ := hsettles
      exact ⟨n, hn, (iterate_negate_add_two n q).mpr halternates⟩
    · intro k
      exact ⟨hsettles.exists_iterate_eq k, depth_iterate_negate_le q k⟩
  · intro qs h
    exact ⟨(balanced_should h).alternates, (balanced_mustNot h).alternates⟩

/-- A choice turns into the exclusion of its clauses, one of which is a group of one clause, and
back. -/
theorem cycle_of_negations_choice :
    2 ≤ [leaf (.presence ⟨"a"⟩), group { mustNot := [leaf (.presence ⟨"b"⟩)] }].length ∧
      negate^[2] (group
          { should := [leaf (.presence ⟨"a"⟩), group { mustNot := [leaf (.presence ⟨"b"⟩)] }] }) =
        group
          { should := [leaf (.presence ⟨"a"⟩), group { mustNot := [leaf (.presence ⟨"b"⟩)] }] } := by
  have h : 2 ≤ [leaf (.presence ⟨"a"⟩),
      group { mustNot := [leaf (.presence ⟨"b"⟩)] }].length := by
    decide
  exact ⟨h, (cycle_of_negations.2.2.2.2 _ h).1⟩

/-- The bound is reached: a single boosted alternative has to lose its group and its boost. -/
example :
    same (negate^[4] (group { should := [matchAll (some (.finite false 1023 0))] }))
        (negate^[2] (group { should := [matchAll (some (.finite false 1023 0))] })) = false ∧
      negate^[5] (group { should := [matchAll (some (.finite false 1023 0))] }) =
        negate^[3] (group { should := [matchAll (some (.finite false 1023 0))] }) :=
  ⟨by decide, rfl⟩

end Query

end QueryAlgebra
