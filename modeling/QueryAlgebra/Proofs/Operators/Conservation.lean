import Mathlib.Algebra.BigOperators.Group.Multiset.Basic
import Mathlib.Tactic.Abel
import QueryAlgebra.Proofs.Operators.Complement
import QueryAlgebra.Proofs.Operators.Conjunction
import QueryAlgebra.Proofs.Operators.Disjunction
import QueryAlgebra.Query.Shape

/-!
# Conservation of conditions

The operators rearrange clauses but neither lose nor repeat a condition. This is said on
`Query.leafBag`, the conditions that occur, each as often as it occurs: `and`, `or` and `add`
add the bags of their operands, whatever groups they make on the way.

A negation drops the optional clauses that do not count. They stand in the groups that it
negates one after the other, `Query.mandatoryGroups`, and make up `Query.idleBag`.
-/

namespace QueryAlgebra

namespace Query

/-- The conditions that occur, regardless of their order. -/
def leafBag (q : Query) : Multiset Condition := q.leaves

/-- The conditions that occur in any of the queries. -/
def leafBags (qs : List Query) : Multiset Condition := (qs.map leafBag).sum

@[simp] theorem leafBag_matchAll (boost : Option Binary64) : leafBag (matchAll boost) = 0 := rfl

@[simp] theorem leafBag_matchNone : leafBag matchNone = 0 := rfl

@[simp] theorem leafBags_nil : leafBags [] = 0 := rfl

@[simp] theorem leafBags_cons (q : Query) (qs : List Query) :
    leafBags (q :: qs) = leafBag q + leafBags qs := by
  rw [leafBags, List.map_cons, List.sum_cons, leafBags]

@[simp] theorem leafBags_append (qs rs : List Query) :
    leafBags (qs ++ rs) = leafBags qs + leafBags rs := by
  rw [leafBags, List.map_append, List.sum_append, leafBags, leafBags]

theorem leafBags_eq_coe (qs : List Query) : leafBags qs = (qs.flatMap leaves : List Condition) := by
  induction qs with
  | nil => rfl
  | cons q qs ih => rw [leafBags_cons, ih, List.flatMap_cons, ← Multiset.coe_add, leafBag]

theorem leafBags_perm {qs rs : List Query} (h : qs.Perm rs) : leafBags qs = leafBags rs :=
  (h.map leafBag).sum_eq

theorem leafBag_group (g : Group Query) :
    leafBag (group g) =
      leafBags g.must + leafBags g.should + leafBags g.mustNot + leafBags g.filter := by
  rw [leafBag, leaves_group, ← leafBags_eq_coe, Group.clauses, leafBags_append, leafBags_append,
    leafBags_append]

theorem leafBag_alternatives (q : Query) : leafBags q.alternatives = leafBag q := by
  cases q with
  | group g =>
      by_cases h : g.isOptional = true
      · obtain ⟨hmust, hmustNot, hfilter, -⟩ := (Group.isOptional_iff g).mp h
        rw [alternatives_of_isOptional h, leafBag_group, hmust, hmustNot, hfilter]
        simp
      · rw [alternatives_of_not_isOptional h]
        simp
  | _ => simp [alternatives]

/-- Whichever way optional clauses are taken over, they are taken over once. -/
theorem leafBag_adopt (g operand : Group Query) :
    leafBag (group (g.adopt operand)) = leafBag (group g) + leafBags operand.should := by
  rcases Group.adopt_cases g operand with
    ⟨-, he⟩ | ⟨-, hnil, he⟩ | ⟨-, -, -, -, he⟩ | ⟨-, -, he⟩
  · rw [he, leafBag_group, leafBag_group, leafBags_append]
    abel
  · rw [he, leafBag_group, leafBag_group, hnil, leafBags_nil]
    abel
  · rw [he, leafBag_group, leafBag_group, leafBags_append]
    abel
  · -- a group of its own, which repeats nothing although its threshold is written out
    have hnested : leafBag (group { should := operand.should, minimum := some operand.threshold }) =
        leafBags operand.should := by
      simp [leafBag_group]
    rw [he, leafBag_group, leafBag_group, leafBags_append, leafBags_cons, leafBags_nil, hnested]
    abel

theorem leafBag_group_and (g h : Group Query) :
    leafBag (group (g.and h)) = leafBag (group g) + leafBag (group h) := by
  have hmandatory : leafBag (group (g.mandatory h)) =
      leafBags g.must + leafBags h.must + (leafBags g.mustNot + leafBags h.mustNot) +
        (leafBags g.filter + leafBags h.filter) := by
    simp [leafBag_group, Group.mandatory]
  rw [Group.and_eq_adopt, leafBag_adopt, leafBag_adopt, hmandatory, leafBag_group, leafBag_group]
  abel

/-- A query that is taken in as a mandatory clause. -/
theorem leafBag_must_append (g : Group Query) (q : Query) (minimum : Option Nat) :
    leafBag (group { g with must := g.must ++ [q], minimum := minimum }) =
      leafBag (group g) + leafBag q := by
  rw [leafBag_group, leafBag_group, leafBags_append, leafBags_cons, leafBags_nil]
  abel

theorem leafBag_append (g h : Group Query) :
    leafBag (group (g.append h)) = leafBag (group g) + leafBag (group h) := by
  simp only [leafBag_group, Group.append, leafBags_append]
  abel

theorem leafBag_pair (a b : Query) :
    leafBag (group { must := [a, b] }) = leafBag a + leafBag b := by
  simp [leafBag_group]

variable {a b : Query}

theorem leafBag_and (ha : a.isConstant = false) (hb : b.isConstant = false) :
    leafBag (a.and b) = leafBag a + leafBag b := by
  fun_cases and a b with
  | case1 => exact absurd ha (by simp [isConstant])
  | case2 => exact absurd ha (by simp [isConstant])
  | case3 => exact absurd hb (by simp [isConstant])
  | case4 => exact absurd hb (by simp [isConstant])
  | case5 g h => exact leafBag_group_and g h
  | case6 g => exact leafBag_must_append g b g.pinned
  | case7 _ h =>
      rw [add_comm]
      exact leafBag_must_append h a h.pinned
  | case8 => exact leafBag_pair a b

theorem leafBag_or (ha : a.isConstant = false) (hb : b.isConstant = false) :
    leafBag (a.or b) = leafBag a + leafBag b := by
  obtain ⟨g, he, hoptional, hperm⟩ := or_eq_group ha hb
  have halternatives : leafBag (group g) = leafBags g.should := by
    rw [← leafBag_alternatives, alternatives_of_isOptional hoptional]
  rw [he, halternatives, leafBags_perm hperm, leafBags_append, leafBag_alternatives,
    leafBag_alternatives]

theorem leafBag_add (ha : a.isConstant = false) (hb : b.isConstant = false) :
    leafBag (a.add b) = leafBag a + leafBag b := by
  fun_cases add a b with
  | case1 => exact absurd ha (by simp [isConstant])
  | case2 => exact absurd ha (by simp [isConstant])
  | case3 => exact absurd hb (by simp [isConstant])
  | case4 => exact absurd hb (by simp [isConstant])
  | case5 g h => exact leafBag_append g h
  | case6 g => exact leafBag_must_append g b g.minimum
  | case7 _ h =>
      rw [add_comm]
      exact leafBag_must_append h a h.minimum
  | case8 => exact leafBag_pair a b

mutual

/-- The query, where it is a group, and every group that is reached from it through mandatory
clauses. -/
def mandatoryGroups : Query → List (Group Query)
  | group ⟨must, should, mustNot, filter, boost, minimum⟩ =>
    ⟨must, should, mustNot, filter, boost, minimum⟩ ::
      (mandatoryGroupsEach must ++ mandatoryGroupsEach filter)
  | _ => []

/-- `mandatoryGroups`, clause by clause. -/
def mandatoryGroupsEach : List Query → List (Group Query)
  | [] => []
  | q :: qs => mandatoryGroups q ++ mandatoryGroupsEach qs

end

theorem mandatoryGroupsEach_eq_flatMap (qs : List Query) :
    mandatoryGroupsEach qs = qs.flatMap mandatoryGroups := by
  induction qs with
  | nil => rfl
  | cons q qs ih => rw [mandatoryGroupsEach, ih, List.flatMap_cons]

theorem mandatoryGroups_group (g : Group Query) :
    mandatoryGroups (group g) = g :: (g.must ++ g.filter).flatMap mandatoryGroups := by
  rw [mandatoryGroups, mandatoryGroupsEach_eq_flatMap, mandatoryGroupsEach_eq_flatMap,
    List.flatMap_append]

/-- The conditions in optional clauses of groups that ask for none of them. -/
def idleConditions (groups : List (Group Query)) : Multiset Condition :=
  ((groups.filter fun g => g.threshold = 0).map fun g => leafBags g.should).sum

/-- The conditions that a negation leaves out, because they do not decide anything. -/
def idleBag (q : Query) : Multiset Condition := idleConditions q.mandatoryGroups

theorem idleConditions_append (gs hs : List (Group Query)) :
    idleConditions (gs ++ hs) = idleConditions gs + idleConditions hs := by
  rw [idleConditions, List.filter_append, List.map_append, List.sum_append, idleConditions,
    idleConditions]

theorem idleBag_group (g : Group Query) :
    idleBag (group g) =
      (if g.threshold = 0 then leafBags g.should else 0) +
        (idleConditions (g.must.flatMap mandatoryGroups) +
          idleConditions (g.filter.flatMap mandatoryGroups)) := by
  have hself : idleConditions [g] = if g.threshold = 0 then leafBags g.should else 0 := by
    by_cases h : g.threshold = 0
    · simp [idleConditions, h]
    · simp [idleConditions, h]
  rw [idleBag, mandatoryGroups_group, ← List.singleton_append, idleConditions_append, hself,
    List.flatMap_append, idleConditions_append]

theorem leafBag_oneOf (qs : List Query) : leafBag (oneOf qs) = leafBags qs := by
  match qs with
  | [] => rfl
  | [q] => simp [oneOf]
  | q :: r :: qs => simp [oneOf, leafBag_group]

/-- What a list of negations holds and what it leaves out, from the same for each of them. -/
theorem leafBags_map_negate {qs : List Query}
    (h : ∀ q ∈ qs, leafBag q.negate + idleBag q = leafBag q) :
    leafBags (qs.map negate) + idleConditions (qs.flatMap mandatoryGroups) = leafBags qs := by
  induction qs with
  | nil => rfl
  | cons q qs ih =>
      obtain ⟨hq, hqs⟩ := List.forall_mem_cons.mp h
      have hidle : idleBag q = idleConditions q.mandatoryGroups := rfl
      rw [List.map_cons, leafBags_cons, leafBags_cons, List.flatMap_cons, idleConditions_append,
        ← hidle, ← hq, ← ih hqs]
      abel

/-- The optional clauses of a group are either excluded by its negation or left out. -/
theorem leafBags_exclusion (g : Group Query) :
    leafBags (if !g.should.isEmpty && 0 < g.threshold then
        [group { mustNot := g.should }] else []) +
      (if g.threshold = 0 then leafBags g.should else 0) = leafBags g.should := by
  by_cases hnil : g.should = []
  · simp [hnil]
  · by_cases hzero : g.threshold = 0
    · simp [hzero]
    · simp [hnil, hzero, Nat.pos_of_ne_zero hzero, leafBag_group]

theorem leafBag_negate (q : Query) : leafBag q.negate + idleBag q = leafBag q := by
  induction q with
  | matchAll boost => rfl
  | matchNone => rfl
  | leaf c => simp [negate, idleBag, mandatoryGroups, idleConditions, leafBag_group]
  | group g hmust _ _ hfilter =>
      -- three buckets of `g` are shared out, and `mustNot` goes into the negation as it is
      have hMust := leafBags_map_negate hmust
      have hFilter := leafBags_map_negate hfilter
      have hShould := leafBags_exclusion g
      rw [negate_group_eq_oneOf, leafBag_oneOf, Group.failures, leafBags_append,
        leafBags_append, leafBags_append, idleBag_group, leafBag_group]
      conv_rhs => rw [← hMust, ← hFilter, ← hShould]
      abel

/-- No condition is lost or repeated. The operators that join two queries keep the conditions
of both, and of two groups what is filtered by and what is excluded in its order; a negation
keeps all conditions but those in optional clauses that decide nothing. -/
theorem conservation_of_leaves :
    (∀ a b : Query, a.isConstant = false → b.isConstant = false →
      leafBag (a.and b) = leafBag a + leafBag b ∧
        leafBag (a.or b) = leafBag a + leafBag b ∧
        leafBag (a.add b) = leafBag a + leafBag b) ∧
      (∀ g h : Group Query,
        (∃ k, (group g).and (group h) = group k ∧
          k.filter = g.filter ++ h.filter ∧ k.mustNot = g.mustNot ++ h.mustNot) ∧
        ∃ k, (group g).add (group h) = group k ∧
          k.filter = g.filter ++ h.filter ∧ k.mustNot = g.mustNot ++ h.mustNot) ∧
      ∀ q : Query, leafBag q.negate + idleBag q = leafBag q := by
  refine ⟨?_, ?_, leafBag_negate⟩
  · intro a b ha hb
    exact ⟨leafBag_and ha hb, leafBag_or ha hb, leafBag_add ha hb⟩
  · intro g h
    obtain ⟨hfilter, hmustNot, -⟩ := Group.and_frame g h
    exact ⟨⟨g.and h, rfl, hfilter, hmustNot⟩, ⟨g.append h, rfl, rfl, rfl⟩⟩

/-- Two choices that share a condition, one of which has to become a group of its own: the
condition is kept twice. -/
theorem conservation_of_leaves_two_choices :
    isConstant (group { should := [leaf (.presence ⟨"a"⟩), leaf (.presence ⟨"b"⟩)] }) = false ∧
      isConstant (group { should := [leaf (.presence ⟨"a"⟩), leaf (.presence ⟨"c"⟩)] }) =
        false ∧
      leafBag ((group { should := [leaf (.presence ⟨"a"⟩), leaf (.presence ⟨"b"⟩)] }).and
          (group { should := [leaf (.presence ⟨"a"⟩), leaf (.presence ⟨"c"⟩)] })) =
        {.presence ⟨"a"⟩, .presence ⟨"b"⟩, .presence ⟨"a"⟩, .presence ⟨"c"⟩} := by
  refine ⟨rfl, rfl, ?_⟩
  rw [(conservation_of_leaves.1 _ _ rfl rfl).1]
  rfl

end Query

end QueryAlgebra
