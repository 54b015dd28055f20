import QueryAlgebra.Proofs.Operators.Heredity
import QueryAlgebra.Query.Shape

/-!
# Chains stay flat

However long a chain of one operator is, its outcome is at most one level deeper than the
deepest of the queries in it. Each operator is followed by a bound on the clauses of the group
that it makes, `depth_group_le_iff`.

The bounds are carried through the chain. With `and` the optional clauses that become a group
of their own are always those of the query that is taken in, never those gathered so far, and
so the gathered group may be one level deeper than that query. With `or` what has been gathered
stands beside the query once it is an optional group, so that the bound is on its alternatives.
-/

namespace QueryAlgebra

namespace Query

theorem foldr_max_le_iff (ns : List Nat) (d : Nat) :
    ns.foldr max 0 ≤ d ↔ ∀ n ∈ ns, n ≤ d := by
  induction ns with
  | nil => simp
  | cons n ns ih => rw [List.foldr_cons, Nat.max_le, ih, List.forall_mem_cons]

/-- A group is at most one level deeper than its clauses. -/
theorem depth_group_le_iff (g : Group Query) (d : Nat) :
    depth (group g) ≤ d + 1 ↔ ∀ q ∈ g.clauses, depth q ≤ d := by
  rw [depth_group, Nat.add_le_add_iff_right, foldr_max_le_iff, List.forall_mem_map]

theorem exists_depth_group (g : Group Query) : ∃ d, depth (group g) = d + 1 :=
  ⟨_, depth_group g⟩

/-- The clauses of a group are below it. -/
theorem depth_lt_of_mem_clauses {g : Group Query} {q : Query} (h : q ∈ g.clauses) :
    depth q < depth (group g) := by
  obtain ⟨d, hd⟩ := exists_depth_group g
  have hclauses := (depth_group_le_iff g d).mp (Nat.le_of_eq hd)
  rw [hd]
  exact Nat.lt_succ_of_le (hclauses q h)

theorem depth_of_not_group {q : Query} (h : ∀ g, q = group g → False) : depth q = 0 := by
  cases q with
  | group g => exact absurd rfl (h g)
  | _ => rfl

theorem depth_le_of_mem_alternatives {q r : Query} (h : r ∈ q.alternatives) :
    depth r ≤ depth q := by
  cases q with
  | group g =>
      rw [alternatives] at h
      split at h
      · have hmem : r ∈ g.clauses := by
          simp [Group.clauses, h]
        exact Nat.le_of_lt (depth_lt_of_mem_clauses hmem)
      · exact Nat.le_of_eq (congrArg depth (List.mem_singleton.mp h))
  | _ => exact Nat.le_of_eq (congrArg depth (List.mem_singleton.mp h))

section Groups

variable {d : Nat}

theorem depth_must_le {a b : Query} (ha : depth a ≤ d) (hb : depth b ≤ d) :
    depth (group { must := [a, b] }) ≤ d + 1 := by
  rw [depth_group_le_iff]
  simp [Group.clauses, ha, hb]

/-- One more mandatory clause; the minimum has no part in the depth. -/
theorem depth_must_append_le {g : Group Query} {q : Query} {minimum : Option Nat}
    (hg : depth (group g) ≤ d + 1) (hq : depth q ≤ d) :
    depth (group { g with must := g.must ++ [q], minimum := minimum }) ≤ d + 1 := by
  rw [depth_group_le_iff] at hg ⊢
  exact Group.forall_mem_clauses_must_append hg hq

theorem depth_append_le {g h : Group Query} (hg : depth (group g) ≤ d + 1)
    (hh : depth (group h) ≤ d + 1) : depth (group (g.append h)) ≤ d + 1 := by
  rw [depth_group_le_iff] at hg hh ⊢
  exact Group.forall_mem_clauses_append hg hh

/-- Only optional clauses of the second group can get one level deeper, so that a first group
may be deeper by one to begin with. -/
theorem depth_group_and_le {g h : Group Query} (hg : depth (group g) ≤ d + 1)
    (hh : depth (group h) ≤ d) : depth (group (g.and h)) ≤ d + 1 := by
  have hbelow : ∀ q ∈ h.clauses, depth q ≤ d := by
    intro q hq
    exact Nat.le_trans (Nat.le_of_lt (depth_lt_of_mem_clauses hq)) hh
  have hnested : depth (group { should := h.should, minimum := some h.threshold }) ≤ d := by
    obtain ⟨e, he⟩ := exists_depth_group h
    have hclauses := (depth_group_le_iff h e).mp (Nat.le_of_eq he)
    have hshould := ((Group.forall_mem_clauses_iff h _).mp hclauses).2.1
    have hle : depth (group { should := h.should, minimum := some h.threshold }) ≤ e + 1 := by
      rw [depth_group_le_iff]
      simpa [Group.clauses] using hshould
    exact Nat.le_trans hle (he ▸ hh)
  rw [depth_group_le_iff] at hg ⊢
  exact Group.forall_mem_clauses_and hg hbelow fun _ => hnested

end Groups

section Chains

variable {d : Nat}

theorem depth_and_le {a b : Query} (ha : depth a ≤ d + 1) (hb : depth b ≤ d) :
    depth (a.and b) ≤ d + 1 := by
  fun_cases and a b with
  | case1 => exact Nat.le_succ_of_le hb
  | case2 => exact Nat.zero_le _
  | case3 => exact ha
  | case4 => exact Nat.zero_le _
  | case5 => exact depth_group_and_le ha hb
  | case6 => exact depth_must_append_le ha hb
  | case7 =>
      have hzero : depth a = 0 := depth_of_not_group ‹_›
      exact depth_must_append_le (Nat.le_succ_of_le hb) (hzero ▸ Nat.zero_le d)
  | case8 =>
      have hzero : depth a = 0 := depth_of_not_group ‹_›
      exact depth_must_le (hzero ▸ Nat.zero_le d) hb

theorem depth_all_le {qs : List Query} (h : ∀ q ∈ qs, depth q ≤ d) :
    depth (all qs) ≤ d + 1 := by
  refine List.foldlRecOn (motive := fun a => depth a ≤ d + 1) qs Query.and (Nat.zero_le _) ?_
  intro a ha q hq
  exact depth_and_le ha (h q hq)

/-- The alternatives of a disjunction of queries that are no constants are those of its sides. -/
theorem depth_le_of_mem_alternatives_or {a b : Query} (ha : ∀ r ∈ a.alternatives, depth r ≤ d)
    (hb : depth b ≤ d) : ∀ r ∈ (a.or b).alternatives, depth r ≤ d := by
  have hbelow : ∀ r ∈ b.alternatives, depth r ≤ d := by
    intro r hr
    exact Nat.le_trans (depth_le_of_mem_alternatives hr) hb
  rcases isConstant_cases a b with hconstant | ⟨ha', hb'⟩
  · rcases or_eq_operand hconstant with he | he
    · rw [he]
      exact ha
    · rw [he]
      exact hbelow
  · obtain ⟨g, he, hoptional, hperm⟩ := or_eq_group ha' hb'
    rw [he, alternatives_of_isOptional hoptional]
    intro r hr
    rcases List.mem_append.mp (hperm.mem_iff.mp hr) with hr | hr
    · exact ha r hr
    · exact hbelow r hr

/-- A query is at most one level deeper than its alternatives. -/
theorem depth_le_of_alternatives {q : Query} (h : ∀ r ∈ q.alternatives, depth r ≤ d) :
    depth q ≤ d + 1 := by
  cases q with
  | group g =>
      by_cases hoptional : g.isOptional = true
      · obtain ⟨hmust, hmustNot, hfilter, -⟩ := (Group.isOptional_iff g).mp hoptional
        rw [alternatives_of_isOptional hoptional] at h
        rw [depth_group_le_iff]
        simpa [Group.clauses, hmust, hmustNot, hfilter] using h
      · rw [alternatives_of_not_isOptional hoptional, List.forall_mem_singleton] at h
        exact Nat.le_succ_of_le h
  | _ => exact Nat.zero_le _

theorem depth_any_le {qs : List Query} (h : ∀ q ∈ qs, depth q ≤ d) :
    depth (any qs) ≤ d + 1 := by
  apply depth_le_of_alternatives
  refine List.foldlRecOn (motive := fun a => ∀ r ∈ a.alternatives, depth r ≤ d) qs Query.or
    ?_ ?_
  · exact List.forall_mem_singleton.mpr (Nat.zero_le d)
  · intro a ha q hq
    exact depth_le_of_mem_alternatives_or ha (h q hq)

theorem depth_add_le {a b : Query} (ha : depth a ≤ d + 1) (hb : depth b ≤ d + 1) :
    depth (a.add b) ≤ d + 1 := by
  fun_cases add a b with
  | case1 => exact hb
  | case2 => exact ha
  | case3 => exact ha
  | case4 => exact hb
  | case5 => exact depth_append_le ha hb
  | case6 =>
      have hzero : depth b = 0 := depth_of_not_group ‹_›
      exact depth_must_append_le ha (hzero ▸ Nat.zero_le d)
  | case7 =>
      have hzero : depth a = 0 := depth_of_not_group ‹_›
      exact depth_must_append_le hb (hzero ▸ Nat.zero_le d)
  | case8 =>
      have hzero : depth a = 0 := depth_of_not_group ‹_›
      have hzero' : depth b = 0 := depth_of_not_group ‹_›
      exact depth_must_le (hzero ▸ Nat.zero_le d) (hzero' ▸ Nat.zero_le d)

theorem depth_foldl_add_le {q : Query} {qs : List Query} (h : ∀ r ∈ q :: qs, depth r ≤ d) :
    depth (qs.foldl add q) ≤ max 1 d := by
  obtain ⟨hq, hqs⟩ := List.forall_mem_cons.mp h
  -- a group has depth one at least, so the bound is a successor in any case
  obtain ⟨e, he⟩ : ∃ e, max 1 d = e + 1 := ⟨max 1 d - 1, by omega⟩
  have hle : d ≤ e + 1 := he ▸ Nat.le_max_right 1 d
  rw [he]
  refine List.foldlRecOn (motive := fun a => depth a ≤ e + 1) qs add (Nat.le_trans hq hle) ?_
  intro a ha r hr
  exact depth_add_le ha (Nat.le_trans (hqs r hr) hle)

end Chains

theorem depth_oneOf_le {qs : List Query} {d : Nat} (h : ∀ q ∈ qs, depth q ≤ d) :
    depth (oneOf qs) ≤ d + 1 := by
  match qs, h with
  | [], _ => exact Nat.zero_le _
  | [q], h => exact Nat.le_succ_of_le (h q List.mem_cons_self)
  | q :: r :: qs, h =>
      refine (depth_group_le_iff { should := q :: r :: qs } d).mpr ?_
      simpa [Group.clauses] using h

/-- One level comes from the alternatives of a negation; excluded clauses stay where they are
and optional ones get a group of exclusions instead of the one they were in. -/
theorem depth_negate_le (q : Query) : depth (negate q) ≤ depth q + 1 := by
  induction q with
  | matchAll boost => exact Nat.zero_le _
  | matchNone => exact Nat.zero_le _
  | leaf c =>
      rw [negate, depth_group_le_iff]
      exact List.forall_mem_singleton.mpr (Nat.le_refl 0)
  | group g hmust _ _ hfilter =>
      obtain ⟨d, hd⟩ := exists_depth_group g
      have hclauses := (depth_group_le_iff g d).mp (Nat.le_of_eq hd)
      obtain ⟨hgMust, hgShould, hgMustNot, hgFilter⟩ :=
        (Group.forall_mem_clauses_iff g _).mp hclauses
      rw [negate_group_eq_oneOf, hd]
      apply depth_oneOf_le
      simp only [Group.failures, List.forall_mem_append, List.forall_mem_map]
      refine ⟨⟨⟨?_, ?_⟩, ?_⟩, ?_⟩
      · intro q hq
        exact Nat.le_trans (hmust q hq) (Nat.succ_le_succ (hgMust q hq))
      · intro q hq
        exact Nat.le_trans (hfilter q hq) (Nat.succ_le_succ (hgFilter q hq))
      · intro q hq
        exact Nat.le_succ_of_le (hgMustNot q hq)
      · split
        · rw [List.forall_mem_singleton, depth_group_le_iff]
          simpa [Group.clauses] using hgShould
        · exact List.forall_mem_nil _

/-- A chain is at most one level deeper than what is in it, whatever its length, a chain of
additions no deeper at all unless it makes a first group, and a negation adds one level at
most. -/
theorem depth_of_chains :
    (∀ (d : Nat) (qs : List Query), (∀ q ∈ qs, depth q ≤ d) →
      depth (all qs) ≤ d + 1 ∧ depth (any qs) ≤ d + 1) ∧
    (∀ (d : Nat) (q : Query) (qs : List Query), (∀ r ∈ q :: qs, depth r ≤ d) →
      depth (qs.foldl add q) ≤ max 1 d) ∧
    ∀ q : Query, depth q.negate ≤ depth q + 1 :=
  ⟨fun _ _ h => ⟨depth_all_le h, depth_any_le h⟩, fun _ _ _ => depth_foldl_add_le,
    depth_negate_le⟩

/-- Three choices are joined: the second one becomes a group of its own, and the third one
beside it and not below it. -/
theorem depth_of_chains_three_choices :
    (∀ q ∈ [group { should := [leaf (.presence ⟨"a"⟩), leaf (.presence ⟨"b"⟩)] },
        group { should := [leaf (.presence ⟨"c"⟩), leaf (.presence ⟨"d"⟩)] },
        group { should := [leaf (.presence ⟨"e"⟩), leaf (.presence ⟨"f"⟩)] }], depth q ≤ 1) ∧
      depth (all [group { should := [leaf (.presence ⟨"a"⟩), leaf (.presence ⟨"b"⟩)] },
        group { should := [leaf (.presence ⟨"c"⟩), leaf (.presence ⟨"d"⟩)] },
        group { should := [leaf (.presence ⟨"e"⟩), leaf (.presence ⟨"f"⟩)] }]) ≤ 2 := by
  have h : ∀ q ∈ [group { should := [leaf (.presence ⟨"a"⟩), leaf (.presence ⟨"b"⟩)] },
      group { should := [leaf (.presence ⟨"c"⟩), leaf (.presence ⟨"d"⟩)] },
      group { should := [leaf (.presence ⟨"e"⟩), leaf (.presence ⟨"f"⟩)] }], depth q ≤ 1 := by
    decide
  exact ⟨h, (depth_of_chains.1 1 _ h).1⟩

/-- The bound is reached. -/
example :
    depth (all [group { should := [leaf (.presence ⟨"a"⟩), leaf (.presence ⟨"b"⟩)] },
      group { should := [leaf (.presence ⟨"c"⟩), leaf (.presence ⟨"d"⟩)] }]) = 2 := by
  decide

end Query

end QueryAlgebra
