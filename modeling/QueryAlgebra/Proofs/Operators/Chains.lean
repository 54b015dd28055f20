import QueryAlgebra.Proofs.Operators.Disjunction

/-!
# What a chain comes to

`Query.any` and `Query.all` lead an accumulator through a list. It starts as a constant, becomes
the first query that is none, and is a group from the second one on.

A disjunction is settled by the first `matchAll`. Otherwise its group is optional from the
beginning, and every further query adds its alternatives to it, in whatever order. A conjunction
is settled by any `matchNone`. Otherwise `matchAll` replaces only itself, and a group of mandatory
conditions takes in one condition after the other.
-/

namespace QueryAlgebra

theorem exists_cons_cons_of_two_le_length {α : Type} {as : List α} (h : 2 ≤ as.length) :
    ∃ a b rest, as = a :: b :: rest := by
  cases as with
  | nil => simp at h
  | cons a as =>
      cases as with
      | nil => simp at h
      | cons b rest => exact ⟨a, b, rest, rfl⟩

namespace Query

/-- The queries that are left when those of one kind are dropped. -/
def without (k : QueryKind) (qs : List Query) : List Query := qs.filter fun q => q.kind ≠ k

theorem mem_without_iff {k : QueryKind} {qs : List Query} {q : Query} :
    q ∈ without k qs ↔ q ∈ qs ∧ q.kind ≠ k := by
  simp [without]

theorem without_cons_of_eq {k : QueryKind} {q : Query} (h : q.kind = k) (qs : List Query) :
    without k (q :: qs) = without k qs :=
  List.filter_cons_of_neg (by simpa using h)

theorem without_cons_of_ne {k : QueryKind} {q : Query} (h : q.kind ≠ k) (qs : List Query) :
    without k (q :: qs) = q :: without k qs :=
  List.filter_cons_of_pos (by simpa using h)

theorem kind_eq_matchAll_iff (q : Query) : q.kind = .matchAll ↔ ∃ b, q = matchAll b := by
  cases q <;> simp [kind]

theorem kind_eq_matchNone_iff (q : Query) : q.kind = .matchNone ↔ q = matchNone := by
  cases q <;> simp [kind]

theorem isConstant_eq_false_iff (q : Query) :
    q.isConstant = false ↔ q.kind ≠ .matchAll ∧ q.kind ≠ .matchNone := by
  cases q <;> simp [kind, isConstant]

section Disjunction

theorem or_eq_right_of_matchAll {a q : Query} (ha : a.kind ≠ .matchAll)
    (hq : q.kind = .matchAll) : a.or q = q := by
  obtain ⟨b, rfl⟩ := (kind_eq_matchAll_iff q).mp hq
  cases a with
  | matchAll c => exact absurd rfl ha
  | _ => rfl

theorem kind_or_ne_matchAll {a q : Query} (ha : a.kind ≠ .matchAll)
    (hq : q.kind ≠ .matchAll) : (a.or q).kind ≠ .matchAll := by
  rcases isConstant_cases a q with hconstant | ⟨ha', hq'⟩
  · rcases or_eq_operand hconstant with he | he
    · rwa [he]
    · rwa [he]
  · obtain ⟨g, he, -, -⟩ := or_eq_group ha' hq'
    rw [he]
    simp [kind]

theorem foldl_or_matchAll (b : Option Binary64) (qs : List Query) :
    qs.foldl or (matchAll b) = matchAll b := by
  induction qs with
  | nil => rfl
  | cons q qs ih => exact ih

/-- The first query that matches everything settles a disjunction. -/
theorem foldl_or_of_find? {a q : Query} {qs : List Query} (ha : a.kind ≠ .matchAll)
    (h : qs.find? (fun r => r.kind = .matchAll) = some q) : qs.foldl or a = q := by
  induction qs generalizing a with
  | nil => exact nomatch h
  | cons r qs ih =>
      rw [List.foldl_cons]
      by_cases hr : r.kind = .matchAll
      · rw [List.find?_cons_of_pos (by simpa using hr), Option.some.injEq] at h
        subst h
        rw [or_eq_right_of_matchAll ha hr]
        obtain ⟨b, rfl⟩ := (kind_eq_matchAll_iff r).mp hr
        exact foldl_or_matchAll b qs
      · rw [List.find?_cons_of_neg (by simpa using hr)] at h
        exact ih (kind_or_ne_matchAll ha hr) h

theorem matchNone_or (q : Query) : matchNone.or q = q := rfl

theorem foldl_or_without (a : Query) (qs : List Query) :
    (without .matchNone qs).foldl or a = qs.foldl or a := by
  have hneutral : (fun a q : Query => if decide (q.kind ≠ .matchNone) = true then a.or q else a) =
      or := by
    funext a q
    split
    · rfl
    · next hq =>
      have hq' : q = matchNone := by simpa [kind_eq_matchNone_iff] using hq
      rw [hq', or_matchNone]
  rw [without, List.foldl_filter, hneutral]

/-- An optional group takes in the alternatives of one query after the other. -/
theorem foldl_or_group {g : Group Query} (hg : g.isOptional = true) {qs : List Query}
    (h : ∀ q ∈ qs, q.isConstant = false) :
    ∃ k : Group Query, qs.foldl or (group g) = group k ∧ k.isOptional = true ∧
      k.should.Perm (g.should ++ qs.flatMap alternatives) := by
  induction qs generalizing g with
  | nil => exact ⟨g, rfl, hg, by simp⟩
  | cons q qs ih =>
      obtain ⟨hq, hqs⟩ := List.forall_mem_cons.mp h
      obtain ⟨k, hk, hoptional, hperm⟩ := or_eq_group (a := group g) rfl hq
      obtain ⟨m, hm, hoptional', hperm'⟩ := ih hoptional hqs
      refine ⟨m, ?_, hoptional', ?_⟩
      · rw [List.foldl_cons, hk, hm]
      · rw [alternatives_of_isOptional hg] at hperm
        rw [List.flatMap_cons, ← List.append_assoc]
        exact hperm'.trans (hperm.append_right _)

theorem any_cons_cons {q r : Query} {qs : List Query}
    (h : ∀ p ∈ q :: r :: qs, p.isConstant = false) :
    ∃ g : Group Query, any (q :: r :: qs) = group g ∧ g.isOptional = true ∧
      g.should.Perm ((q :: r :: qs).flatMap alternatives) := by
  obtain ⟨hq, hr, hqs⟩ := (List.forall_mem_cons.mp h).imp_right List.forall_mem_cons.mp
  obtain ⟨g, hg, hoptional, hperm⟩ := or_eq_group hq hr
  obtain ⟨k, hk, hoptional', hperm'⟩ := foldl_or_group hoptional hqs
  refine ⟨k, ?_, hoptional', ?_⟩
  · rw [any, List.foldl_cons, List.foldl_cons, matchNone_or, hg, hk]
  · rw [List.flatMap_cons, List.flatMap_cons, ← List.append_assoc]
    exact hperm'.trans (hperm.append_right _)

end Disjunction

section Conjunction

theorem and_matchNone (a : Query) : a.and matchNone = matchNone := by
  cases a <;> rfl

theorem foldl_and_matchNone (qs : List Query) : qs.foldl and matchNone = matchNone := by
  induction qs with
  | nil => rfl
  | cons q qs ih => exact ih

/-- Any query that matches nothing settles a conjunction. -/
theorem all_of_mem_matchNone {qs : List Query} (h : matchNone ∈ qs) : all qs = matchNone := by
  obtain ⟨before, after, rfl⟩ := List.append_of_mem h
  rw [all, List.foldl_append, List.foldl_cons, and_matchNone, foldl_and_matchNone]

theorem and_eq_left_of_matchAll {a q : Query} (ha : a.kind ≠ .matchAll)
    (hq : q.kind = .matchAll) : a.and q = a := by
  obtain ⟨b, rfl⟩ := (kind_eq_matchAll_iff q).mp hq
  cases a with
  | matchAll c => exact absurd rfl ha
  | _ => rfl

theorem kind_and_ne_matchAll {a q : Query} (ha : a.kind ≠ .matchAll)
    (hq : q.kind ≠ .matchAll) : (a.and q).kind ≠ .matchAll := by
  cases a with
  | matchAll b => exact absurd rfl ha
  | matchNone => exact ha
  | leaf c | group g =>
      cases q with
      | matchAll b => exact absurd rfl hq
      | _ => simp [and, kind]

theorem foldl_and_without {a : Query} (ha : a.kind ≠ .matchAll) (qs : List Query) :
    qs.foldl and a = (without .matchAll qs).foldl and a := by
  induction qs generalizing a with
  | nil => rfl
  | cons q qs ih =>
      by_cases hq : q.kind = .matchAll
      · rw [without_cons_of_eq hq, List.foldl_cons, and_eq_left_of_matchAll ha hq, ih ha]
      · rw [without_cons_of_ne hq, List.foldl_cons, List.foldl_cons,
          ih (kind_and_ne_matchAll ha hq)]

/-- As long as the accumulator matches everything, it is the query that came last. -/
theorem foldl_and_matchAll (b : Option Binary64) (qs : List Query) :
    qs.foldl and (matchAll b) =
      match without .matchAll qs with
      | [] => qs.getLastD (matchAll b)
      | q :: rest => rest.foldl and q := by
  induction qs generalizing b with
  | nil => rfl
  | cons q qs ih =>
      by_cases hq : q.kind = .matchAll
      · obtain ⟨c, rfl⟩ := (kind_eq_matchAll_iff q).mp hq
        rw [without_cons_of_eq hq, List.getLastD_cons]
        exact ih c
      · rw [without_cons_of_ne hq]
        exact foldl_and_without hq qs

/-- Mandatory conditions take in one condition after the other. -/
theorem foldl_and_leaves (must : List Query) {qs : List Query}
    (h : ∀ q ∈ qs, q.isLeaf = true) :
    qs.foldl and (group { must }) = group { must := must ++ qs } := by
  induction qs generalizing must with
  | nil => rw [List.append_nil]; rfl
  | cons q qs ih =>
      obtain ⟨hq, hqs⟩ := List.forall_mem_cons.mp h
      cases q with
      | leaf c =>
          have hstep : (group { must }).and (leaf c) = group { must := must ++ [leaf c] } := by
            simp [and, Group.andClause, Group.pinned]
          rw [List.foldl_cons, hstep, ih _ hqs, List.append_assoc]
          rfl
      | _ => exact absurd hq (by simp [isLeaf])

theorem foldl_and_cons_leaves {q r : Query} {qs : List Query}
    (h : ∀ p ∈ q :: r :: qs, p.isLeaf = true) :
    (r :: qs).foldl and q = group { must := q :: r :: qs } := by
  obtain ⟨hq, hr, hqs⟩ := (List.forall_mem_cons.mp h).imp_right List.forall_mem_cons.mp
  have hpair : q.and r = group { must := [q, r] } := by
    cases q with
    | leaf c =>
        cases r with
        | leaf d => rfl
        | _ => exact absurd hr (by simp [isLeaf])
    | _ => exact absurd hq (by simp [isLeaf])
  rw [List.foldl_cons, hpair, foldl_and_leaves _ hqs]
  rfl

end Conjunction

/-- What a chain comes to. A disjunction is the first query that matches everything, where there
is one. Otherwise those that match nothing are dropped: one that is left stays as it is, and more
give an optional group of the alternatives of all. A conjunction matches nothing where one of its
members does. Otherwise those that match everything are dropped: if none is left it is the last
of them, one that is left stays as it is, and more that are conditions give the group in which
they are mandatory. -/
theorem normalForm_of_chains (qs : List Query) :
    (∀ q, qs.find? (fun r => r.kind = .matchAll) = some q → any qs = q) ∧
    ((∀ q ∈ qs, q.kind ≠ .matchAll) →
      (without .matchNone qs = [] → any qs = matchNone) ∧
      (∀ q, without .matchNone qs = [q] → any qs = q) ∧
      (2 ≤ (without .matchNone qs).length →
        ∃ g : Group Query, any qs = group g ∧ g.isOptional = true ∧
          g.should.Perm ((without .matchNone qs).flatMap alternatives))) ∧
    (matchNone ∈ qs → all qs = matchNone) ∧
    (without .matchAll qs = [] → all qs = qs.getLastD (matchAll none)) ∧
    (∀ q, without .matchAll qs = [q] → all qs = q) ∧
    (2 ≤ (without .matchAll qs).length → (∀ q ∈ without .matchAll qs, q.isLeaf = true) →
      all qs = group { must := without .matchAll qs }) := by
  have hany : any qs = any (without .matchNone qs) := (foldl_or_without matchNone qs).symm
  have hall := foldl_and_matchAll none qs
  refine ⟨?_, ?_, all_of_mem_matchNone, ?_, ?_, ?_⟩
  · intro q hq
    exact foldl_or_of_find? (by simp [kind]) hq
  · intro hqs
    refine ⟨?_, ?_, ?_⟩
    · intro hrest
      rw [hany, hrest, any_nil]
    · intro q hrest
      rw [hany, hrest]
      exact matchNone_or q
    · intro hlength
      have hconstant : ∀ q ∈ without .matchNone qs, q.isConstant = false := by
        intro q hq
        obtain ⟨hmem, hkind⟩ := mem_without_iff.mp hq
        exact (isConstant_eq_false_iff q).mpr ⟨hqs q hmem, hkind⟩
      obtain ⟨q, r, rest, hrest⟩ := exists_cons_cons_of_two_le_length hlength
      rw [hrest] at hconstant
      rw [hany, hrest]
      exact any_cons_cons hconstant
  · intro hrest
    rw [hrest] at hall
    exact hall
  · intro q hrest
    rw [hrest] at hall
    exact hall
  · intro hlength hleaves
    obtain ⟨q, r, rest, hrest⟩ := exists_cons_cons_of_two_le_length hlength
    rw [hrest] at hall hleaves ⊢
    exact hall.trans (foldl_and_cons_leaves hleaves)

/-- Constants between conditions and choices. -/
theorem normalForm_of_chains_constants :
    any [leaf (.presence ⟨"a"⟩), matchAll none, leaf (.presence ⟨"b"⟩)] = matchAll none ∧
    (∃ g : Group Query,
      any [leaf (.presence ⟨"a"⟩), matchNone,
        group { should := [leaf (.presence ⟨"b"⟩), leaf (.presence ⟨"c"⟩)] }] = group g ∧
      g.isOptional = true ∧
      g.should.Perm
        [leaf (.presence ⟨"a"⟩), leaf (.presence ⟨"b"⟩), leaf (.presence ⟨"c"⟩)]) ∧
    all [leaf (.presence ⟨"a"⟩), matchNone] = matchNone ∧
    all [leaf (.presence ⟨"a"⟩), matchAll none, leaf (.presence ⟨"b"⟩)] =
      group { must := [leaf (.presence ⟨"a"⟩), leaf (.presence ⟨"b"⟩)] } := by
  refine ⟨?_, ?_, ?_, ?_⟩
  · exact (normalForm_of_chains _).1 _ rfl
  · exact ((normalForm_of_chains _).2.1 (by simp [kind])).2.2 (by decide)
  · exact (normalForm_of_chains _).2.2.1 (by simp)
  · exact (normalForm_of_chains _).2.2.2.2.2 (by decide) (by simp [without, kind, isLeaf])

end Query

end QueryAlgebra
