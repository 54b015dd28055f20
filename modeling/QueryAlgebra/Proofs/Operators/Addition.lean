import QueryAlgebra.Proofs.Operators.Clauses

/-!
# Addition

`Query.add` concatenates buckets and reinterprets nothing. `Query.asGroup` is a query in the form
in which it is concatenated, a group as it is and any other query as the one mandatory clause of a
group. A chain of additions to a group then has the buckets of all of them in order, and the boost
and the minimum of the group that the chain starts with, `foldl_add_group`.

Optional clauses that come together count differently from before. Without them,
`Group.Choiceless`, an addition is a conjunction.
-/

namespace QueryAlgebra

namespace Group

/-- No optional clauses, and no minimum that asks for one. -/
def Choiceless (g : Group Query) : Prop := g.should = [] ∧ ∀ n ∈ g.minimum, n = 0

theorem append_assoc (g h k : Group Query) :
    (g.append h).append k = g.append (h.append k) := by
  simp [append]

/-- Only the group that comes first says what the boost and the minimum are. -/
theorem foldl_append (g : Group Query) (hs : List (Group Query)) :
    hs.foldl append g =
      { must := g.must ++ hs.flatMap must
        should := g.should ++ hs.flatMap should
        mustNot := g.mustNot ++ hs.flatMap mustNot
        filter := g.filter ++ hs.flatMap filter
        boost := g.boost
        minimum := g.minimum } := by
  induction hs generalizing g with
  | nil => simp
  | cons h hs ih =>
      rw [List.foldl_cons, ih]
      simp [append]

theorem Choiceless.threshold_eq_zero {g : Group Query} (h : g.Choiceless) :
    g.threshold = 0 := by
  obtain ⟨hshould, hminimum⟩ := h
  cases hmin : g.minimum with
  | none => rw [threshold_of_minimum_eq_none hmin, if_pos (Or.inl hshould)]
  | some n => rw [threshold_of_minimum hmin, hminimum n hmin]

theorem Choiceless.append {g h : Group Query} (hg : g.Choiceless) (hh : h.Choiceless) :
    (g.append h).Choiceless := by
  refine ⟨?_, hg.2⟩
  change g.should ++ h.should = []
  rw [hg.1, hh.1, List.append_nil]

theorem admits_append_iff {v : Condition → Bool} (g h : Group Query) :
    (g.append h).Admits v ↔ g.Admits v ∧ h.Admits v := by
  simp only [Admits, Group.append, List.forall_mem_append]
  tauto

end Group

namespace Query

/-- The query as it is concatenated: a group is itself, and any other query is the one mandatory
clause of a group. -/
def asGroup : Query → Group Query
  | group g => g
  | q => { must := [q] }

theorem asGroup_of_not_group {q : Query} (h : ∀ g, q = group g → False) :
    q.asGroup = { must := [q] } := by
  cases q with
  | group g => exact absurd rfl (h g)
  | _ => rfl

theorem add_eq_append (g : Group Query) {q : Query} (h : q.isConstant = false) :
    (group g).add q = group (g.append q.asGroup) := by
  cases q with
  | group k => rfl
  | leaf c => simp [add, asGroup, Group.addClause, Group.append]
  | _ => exact absurd h (by simp [isConstant])

/-- A chain of additions to a group concatenates. -/
theorem foldl_add_group (g : Group Query) {qs : List Query}
    (h : ∀ q ∈ qs, q.isConstant = false) :
    qs.foldl add (group g) = group ((qs.map asGroup).foldl Group.append g) := by
  induction qs generalizing g with
  | nil => rfl
  | cons q qs ih =>
      obtain ⟨hq, hqs⟩ := List.forall_mem_cons.mp h
      rw [List.foldl_cons, add_eq_append g hq, ih _ hqs, List.map_cons, List.foldl_cons]

section Matching

variable {v : Condition → Bool}

theorem holds_of_choiceless {g : Group Query} (h : g.Choiceless) :
    holds v (group g) = true ↔ g.Admits v := by
  rw [holds_group_iff_admits, h.threshold_eq_zero]
  exact and_iff_left (Nat.zero_le _)

theorem holds_append {g h : Group Query} (hg : g.Choiceless) (hh : h.Choiceless) :
    holds v (group (g.append h)) = (holds v (group g) && holds v (group h)) := by
  rw [Bool.eq_iff_iff, Bool.and_eq_true, holds_of_choiceless (hg.append hh),
    holds_of_choiceless hg, holds_of_choiceless hh, Group.admits_append_iff]

theorem holds_asGroup (q : Query) : holds v (group q.asGroup) = holds v q := by
  by_cases h : ∃ g, q = group g
  · obtain ⟨g, rfl⟩ := h
    rfl
  · rw [asGroup_of_not_group fun g hg => h ⟨g, hg⟩, Bool.eq_iff_iff, holds_must_iff,
      List.forall_mem_singleton]

theorem choiceless_asGroup {q : Query} (h : ∀ g, q = group g → g.Choiceless) :
    q.asGroup.Choiceless := by
  cases q with
  | group g => exact h g rfl
  | _ => exact ⟨rfl, by simp [asGroup]⟩

/-- What a chain of additions matches, as long as nobody brings optional clauses. -/
theorem holds_foldl_append {g : Group Query} {qs : List Query} (hg : g.Choiceless)
    (h : ∀ q ∈ qs, q.asGroup.Choiceless) :
    holds v (group ((qs.map asGroup).foldl Group.append g)) =
      (holds v (group g) && qs.all (holds v)) := by
  induction qs generalizing g with
  | nil => simp
  | cons q qs ih =>
      obtain ⟨hq, hqs⟩ := List.forall_mem_cons.mp h
      rw [List.map_cons, List.foldl_cons, ih (hg.append hq) hqs, holds_append hg hq,
        holds_asGroup, List.all_cons, Bool.and_assoc]

end Matching

/-- Addition concatenates: a chain of additions to a group has the buckets of all its members in
order, with the boost and the minimum of the group. So it is associative on groups, does not
care on which side of a group a condition stands, and is a conjunction where no member has
optional clauses or asks for any. -/
theorem concatenation_of_additions :
    (∀ (g : Group Query) (qs : List Query), (∀ q ∈ qs, q.isConstant = false) →
      qs.foldl add (group g) = group
        { must := g.must ++ qs.flatMap fun q => q.asGroup.must
          should := g.should ++ qs.flatMap fun q => q.asGroup.should
          mustNot := g.mustNot ++ qs.flatMap fun q => q.asGroup.mustNot
          filter := g.filter ++ qs.flatMap fun q => q.asGroup.filter
          boost := g.boost
          minimum := g.minimum } ∧
      (g.Choiceless → (∀ h, group h ∈ qs → h.Choiceless) → ∀ v,
        holds v (qs.foldl add (group g)) = (holds v (group g) && qs.all (holds v)))) ∧
    (∀ g h k : Group Query,
      ((group g).add (group h)).add (group k) = (group g).add ((group h).add (group k))) ∧
    ∀ (c : Condition) (g : Group Query), (leaf c).add (group g) = (group g).add (leaf c) := by
  refine ⟨?_, ?_, fun c g => rfl⟩
  · intro g qs hqs
    constructor
    · rw [foldl_add_group g hqs, Group.foldl_append]
      simp only [List.flatMap_map]
    · intro hg hgroups v
      rw [foldl_add_group g hqs]
      apply holds_foldl_append hg
      intro q hq
      exact choiceless_asGroup fun h he => hgroups h (he ▸ hq)
  · intro g h k
    exact congrArg group (Group.append_assoc g h k)

/-- A condition and an exclusion that are added to a filter. -/
theorem concatenation_of_additions_exclusion :
    (∀ q ∈ [leaf (.presence ⟨"b"⟩),
        group { mustNot := [leaf (.presence ⟨"c"⟩)], minimum := some 0 }],
      q.isConstant = false) ∧
    Group.Choiceless { filter := [leaf (.presence ⟨"a"⟩)] } ∧
    (∀ h, group h ∈ [leaf (.presence ⟨"b"⟩),
        group { mustNot := [leaf (.presence ⟨"c"⟩)], minimum := some 0 }] → h.Choiceless) ∧
    [leaf (.presence ⟨"b"⟩),
        group { mustNot := [leaf (.presence ⟨"c"⟩)], minimum := some 0 }].foldl add
        (group { filter := [leaf (.presence ⟨"a"⟩)] }) =
      group
        { must := [leaf (.presence ⟨"b"⟩)]
          mustNot := [leaf (.presence ⟨"c"⟩)]
          filter := [leaf (.presence ⟨"a"⟩)] } ∧
    holds (fun c => c.field != "c")
      ([leaf (.presence ⟨"b"⟩),
        group { mustNot := [leaf (.presence ⟨"c"⟩)], minimum := some 0 }].foldl add
        (group { filter := [leaf (.presence ⟨"a"⟩)] })) = true := by
  have hconstant : ∀ q ∈ [leaf (.presence ⟨"b"⟩),
      group { mustNot := [leaf (.presence ⟨"c"⟩)], minimum := some 0 }],
      q.isConstant = false := by
    simp [isConstant]
  have hfirst : Group.Choiceless { filter := [leaf (.presence ⟨"a"⟩)] } := by
    simp [Group.Choiceless]
  have hgroups : ∀ h, group h ∈ [leaf (.presence ⟨"b"⟩),
      group { mustNot := [leaf (.presence ⟨"c"⟩)], minimum := some 0 }] → h.Choiceless := by
    simp [Group.Choiceless]
  obtain ⟨hbuckets, hmatching⟩ := concatenation_of_additions.1 _ _ hconstant
  refine ⟨hconstant, hfirst, hgroups, hbuckets, ?_⟩
  rw [hmatching hfirst hgroups]
  decide

/-- An optional clause that is added to a mandatory one counts no longer, so that a record may
match the outcome that does not match both. -/
example :
    holds (fun c => c.field == "a")
        ((group { must := [leaf (.presence ⟨"a"⟩)] }).add
          (group { should := [leaf (.presence ⟨"b"⟩)] })) = true ∧
      holds (fun c => c.field == "a") (group { should := [leaf (.presence ⟨"b"⟩)] }) =
        false := by
  decide

end Query

end QueryAlgebra
