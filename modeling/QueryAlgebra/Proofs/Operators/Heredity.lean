import QueryAlgebra.Proofs.Operators.Complement
import QueryAlgebra.Proofs.Operators.Conjunction
import QueryAlgebra.Proofs.Operators.Disjunction

/-!
# Properties that the operators hand on

A property `p` may look at a single query only, such as the boost of a group and not at its
clauses. `Query.Everywhere p` asks for it of every query that occurs, and this is what a chain
of operators can keep. `Query.Stable p` lists what has to be known of `p` for that, one field
for each group that an operator makes; the operators then follow once and for all.

`Query.History` is a finite sequence of queries, each of which is given or made from earlier
ones. `History.forall_mem` is the induction over it.
-/

namespace QueryAlgebra

namespace Group

/-- What holds of the clauses of both sides holds of the clauses of an adoption, provided
it holds of the group that optional clauses have to become where others are there already. -/
theorem forall_mem_clauses_adopt {p : Query → Prop} {g operand : Group Query}
    (hg : ∀ q ∈ g.clauses, p q) (hoperand : ∀ q ∈ operand.should, p q)
    (hnested : g.should ≠ [] → operand.threshold < operand.should.length →
      p (.group { should := operand.should, minimum := some operand.threshold })) :
    ∀ q ∈ (g.adopt operand).clauses, p q := by
  rw [forall_mem_clauses_iff] at hg ⊢
  obtain ⟨hmust, hshould, hmustNot, hfilter⟩ := hg
  rcases adopt_cases g operand with
    ⟨-, he⟩ | ⟨-, -, he⟩ | ⟨-, -, -, -, he⟩ | ⟨hfew, hne, he⟩
  · rw [he]
    exact ⟨List.forall_mem_append.mpr ⟨hmust, hoperand⟩, hshould, hmustNot, hfilter⟩
  · rw [he]
    exact ⟨hmust, hoperand, hmustNot, hfilter⟩
  · rw [he]
    exact ⟨hmust, List.forall_mem_append.mpr ⟨hshould, hoperand⟩, hmustNot, hfilter⟩
  · rw [he]
    have hlast := List.forall_mem_singleton.mpr (hnested hne hfew)
    exact ⟨List.forall_mem_append.mpr ⟨hmust, hlast⟩, hshould, hmustNot, hfilter⟩

/-- Only the optional clauses of the second group may have to become a group of their own:
those of the first one are taken over when there are none yet. -/
theorem forall_mem_clauses_and {p : Query → Prop} {g h : Group Query}
    (hg : ∀ q ∈ g.clauses, p q) (hh : ∀ q ∈ h.clauses, p q)
    (hnested : h.threshold < h.should.length →
      p (.group { should := h.should, minimum := some h.threshold })) :
    ∀ q ∈ (g.and h).clauses, p q := by
  obtain ⟨hgMust, hgShould, hgMustNot, hgFilter⟩ := (forall_mem_clauses_iff g p).mp hg
  obtain ⟨hhMust, hhShould, hhMustNot, hhFilter⟩ := (forall_mem_clauses_iff h p).mp hh
  have hmandatory : ∀ q ∈ (g.mandatory h).clauses, p q :=
    (forall_mem_clauses_iff _ _).mpr
      ⟨List.forall_mem_append.mpr ⟨hgMust, hhMust⟩, List.forall_mem_nil _,
        List.forall_mem_append.mpr ⟨hgMustNot, hhMustNot⟩,
        List.forall_mem_append.mpr ⟨hgFilter, hhFilter⟩⟩
  have hfirst : ∀ q ∈ ((g.mandatory h).adopt g).clauses, p q :=
    forall_mem_clauses_adopt hmandatory hgShould fun hne => absurd rfl hne
  rw [and_eq_adopt]
  exact forall_mem_clauses_adopt hfirst hhShould fun _ => hnested

/-- A mandatory clause that is taken in leaves the other clauses as they were. -/
theorem forall_mem_clauses_must_append {p : Query → Prop} {g : Group Query} {q : Query}
    {minimum : Option Nat} (hg : ∀ r ∈ g.clauses, p r) (hq : p q) :
    ∀ r ∈ clauses { g with must := g.must ++ [q], minimum := minimum }, p r := by
  obtain ⟨hmust, hshould, hmustNot, hfilter⟩ := (forall_mem_clauses_iff g p).mp hg
  have hmust' : ∀ r ∈ g.must ++ [q], p r :=
    List.forall_mem_append.mpr ⟨hmust, List.forall_mem_singleton.mpr hq⟩
  exact (forall_mem_clauses_iff _ _).mpr ⟨hmust', hshould, hmustNot, hfilter⟩

theorem forall_mem_clauses_append {p : Query → Prop} {g h : Group Query}
    (hg : ∀ q ∈ g.clauses, p q) (hh : ∀ q ∈ h.clauses, p q) :
    ∀ q ∈ (g.append h).clauses, p q := by
  obtain ⟨hgMust, hgShould, hgMustNot, hgFilter⟩ := (forall_mem_clauses_iff g p).mp hg
  obtain ⟨hhMust, hhShould, hhMustNot, hhFilter⟩ := (forall_mem_clauses_iff h p).mp hh
  exact (forall_mem_clauses_iff _ _).mpr
    ⟨List.forall_mem_append.mpr ⟨hgMust, hhMust⟩,
      List.forall_mem_append.mpr ⟨hgShould, hhShould⟩,
      List.forall_mem_append.mpr ⟨hgMustNot, hhMustNot⟩,
      List.forall_mem_append.mpr ⟨hgFilter, hhFilter⟩⟩

theorem forall_mem_clauses_absorb {p : Query → Prop} {g : Group Query} {q : Query}
    (hg : ∀ r ∈ g.clauses, p r) (hq : ∀ r ∈ q.alternatives, p r) :
    ∀ r ∈ (g.absorb q).clauses, p r := by
  obtain ⟨hmust, hshould, hmustNot, hfilter⟩ := (forall_mem_clauses_iff g p).mp hg
  rw [absorb_eq_alternatives]
  exact (forall_mem_clauses_iff _ _).mpr
    ⟨hmust, List.forall_mem_append.mpr ⟨hshould, hq⟩, hmustNot, hfilter⟩

end Group

namespace Query

/-- The first query is the second one, or it is found below it in any bucket. -/
inductive Occurs : Query → Query → Prop
  | refl (q : Query) : Occurs q q
  | clause {r q : Query} {g : Group Query} :
      q ∈ g.clauses → Occurs r q → Occurs r (group g)

/-- Every query that occurs in this one has the property. -/
def Everywhere (p : Query → Prop) (q : Query) : Prop := ∀ r, Occurs r q → p r

section Everywhere

variable {p : Query → Prop}

theorem Everywhere.self {q : Query} (h : Everywhere p q) : p q := h q (Occurs.refl q)

theorem everywhere_group_iff (g : Group Query) :
    Everywhere p (group g) ↔ p (group g) ∧ ∀ q ∈ g.clauses, Everywhere p q := by
  constructor
  · intro h
    exact ⟨h.self, fun q hq r hr => h r (Occurs.clause hq hr)⟩
  · rintro ⟨hself, hclauses⟩ r hr
    cases hr with
    | refl => exact hself
    | clause hq hr => exact hclauses _ hq r hr

theorem everywhere_iff_of_not_group {q : Query} (hq : ∀ g, q ≠ group g) :
    Everywhere p q ↔ p q := by
  constructor
  · exact Everywhere.self
  · intro h r hr
    cases hr with
    | refl => exact h
    | clause => exact absurd rfl (hq _)

@[simp] theorem everywhere_matchAll_iff (boost : Option Binary64) :
    Everywhere p (matchAll boost) ↔ p (matchAll boost) :=
  everywhere_iff_of_not_group (by simp)

@[simp] theorem everywhere_matchNone_iff : Everywhere p matchNone ↔ p matchNone :=
  everywhere_iff_of_not_group (by simp)

@[simp] theorem everywhere_leaf_iff (c : Condition) : Everywhere p (leaf c) ↔ p (leaf c) :=
  everywhere_iff_of_not_group (by simp)

theorem everywhere_of_mem_alternatives {q r : Query} (h : Everywhere p q)
    (hr : r ∈ q.alternatives) : Everywhere p r := by
  cases q with
  | group g =>
      rw [alternatives] at hr
      split at hr
      · have hclauses := ((everywhere_group_iff g).mp h).2
        exact ((Group.forall_mem_clauses_iff _ _).mp hclauses).2.1 r hr
      · rw [List.mem_singleton.mp hr]
        exact h
  | _ =>
      rw [List.mem_singleton.mp hr]
      exact h

end Everywhere

/-- What has to be known of a property so that no operator loses it: it holds of the
constants, of new groups, and of a group that takes something in when it held before. -/
structure Stable (p : Query → Prop) : Prop where
  matchAll : p (matchAll none)
  matchNone : p matchNone
  /-- A new group has clauses but neither boost nor minimum. -/
  bare {g : Group Query} : g.clauses ≠ [] → g.boost = none → g.minimum = none → p (group g)
  /-- Optional clauses that become a group of their own take their threshold with them. -/
  nested {g : Group Query} : p (group g) → g.threshold < g.should.length →
    p (group { should := g.should, minimum := some g.threshold })
  and {g h : Group Query} : p (group g) → p (group h) → p (group (g.and h))
  andClause {g : Group Query} (q : Query) : p (group g) → p (group (g.andClause q))
  absorb {g : Group Query} (q : Query) : g.isOptional = true → p (group g) →
    p (group (g.absorb q))
  append {g h : Group Query} : p (group g) → p (group h) → p (group (g.append h))
  addClause {g : Group Query} (q : Query) : p (group g) → p (group (g.addClause q))

/-- One call of an operator on earlier queries. -/
inductive Combines (earlier : List Query) : Query → Prop
  | and {a b : Query} : a ∈ earlier → b ∈ earlier → Combines earlier (a.and b)
  | or {a b : Query} : a ∈ earlier → b ∈ earlier → Combines earlier (a.or b)
  | add {a b : Query} : a ∈ earlier → b ∈ earlier → Combines earlier (a.add b)
  | negate {a : Query} : a ∈ earlier → Combines earlier a.negate
  | all {qs : List Query} : qs ⊆ earlier → Combines earlier (all qs)
  | any {qs : List Query} : qs ⊆ earlier → Combines earlier (any qs)

/-- A finite sequence of queries, the latest first. Each of them is given or comes from
earlier ones by a step. -/
inductive History (given : Query → Prop) (step : List Query → Query → Prop) :
    List Query → Prop
  | nil : History given step []
  | given {q : Query} {earlier : List Query} :
      given q → History given step earlier → History given step (q :: earlier)
  | step {q : Query} {earlier : List Query} :
      step earlier q → History given step earlier → History given step (q :: earlier)

/-- What is given and is kept by every step holds throughout a history. -/
theorem History.forall_mem {p given : Query → Prop} {step : List Query → Query → Prop}
    (hgiven : ∀ q, given q → p q)
    (hstep : ∀ earlier q, (∀ r ∈ earlier, p r) → step earlier q → p q) {qs : List Query}
    (h : History given step qs) : ∀ q ∈ qs, p q := by
  induction h with
  | nil => exact List.forall_mem_nil _
  | given hq _ ih => exact List.forall_mem_cons.mpr ⟨hgiven _ hq, ih⟩
  | step hq _ ih => exact List.forall_mem_cons.mpr ⟨hstep _ _ ih hq, ih⟩

namespace Stable

variable {p : Query → Prop} (hp : Stable p)

include hp

theorem everywhere_nested {g : Group Query} (hg : Everywhere p (group g))
    (hfew : g.threshold < g.should.length) :
    Everywhere p (group { should := g.should, minimum := some g.threshold }) := by
  obtain ⟨hself, hclauses⟩ := (everywhere_group_iff g).mp hg
  have hshould := ((Group.forall_mem_clauses_iff _ _).mp hclauses).2.1
  refine (everywhere_group_iff _).mpr ⟨hp.nested hself hfew, ?_⟩
  simpa [Group.clauses] using hshould

theorem everywhere_must {a b : Query} (ha : Everywhere p a) (hb : Everywhere p b) :
    Everywhere p (group { must := [a, b] }) := by
  refine (everywhere_group_iff _).mpr ⟨hp.bare (by simp [Group.clauses]) rfl rfl, ?_⟩
  simp [Group.clauses, ha, hb]

theorem everywhere_should {qs : List Query} (hne : qs ≠ []) (h : ∀ q ∈ qs, Everywhere p q) :
    Everywhere p (group { should := qs }) := by
  refine (everywhere_group_iff _).mpr
    ⟨hp.bare (by simpa [Group.clauses] using hne) rfl rfl, ?_⟩
  simpa [Group.clauses] using h

theorem everywhere_mustNot {qs : List Query} (hne : qs ≠ []) (h : ∀ q ∈ qs, Everywhere p q) :
    Everywhere p (group { mustNot := qs }) := by
  refine (everywhere_group_iff _).mpr
    ⟨hp.bare (by simpa [Group.clauses] using hne) rfl rfl, ?_⟩
  simpa [Group.clauses] using h

theorem everywhere_andClause {g : Group Query} {q : Query} (hg : Everywhere p (group g))
    (hq : Everywhere p q) : Everywhere p (group (g.andClause q)) := by
  obtain ⟨hself, hclauses⟩ := (everywhere_group_iff g).mp hg
  exact (everywhere_group_iff _).mpr
    ⟨hp.andClause q hself, Group.forall_mem_clauses_must_append hclauses hq⟩

theorem everywhere_addClause {g : Group Query} {q : Query} (hg : Everywhere p (group g))
    (hq : Everywhere p q) : Everywhere p (group (g.addClause q)) := by
  obtain ⟨hself, hclauses⟩ := (everywhere_group_iff g).mp hg
  exact (everywhere_group_iff _).mpr
    ⟨hp.addClause q hself, Group.forall_mem_clauses_must_append hclauses hq⟩

theorem everywhere_absorb {g : Group Query} {q : Query} (hoptional : g.isOptional = true)
    (hg : Everywhere p (group g)) (hq : Everywhere p q) :
    Everywhere p (group (g.absorb q)) := by
  obtain ⟨hself, hclauses⟩ := (everywhere_group_iff g).mp hg
  refine (everywhere_group_iff _).mpr ⟨hp.absorb q hoptional hself, ?_⟩
  exact Group.forall_mem_clauses_absorb hclauses fun _ => everywhere_of_mem_alternatives hq

theorem everywhere_group_or {g : Group Query} {q : Query} (hg : Everywhere p (group g))
    (hq : Everywhere p q) : Everywhere p (group (g.or q)) := by
  fun_cases Group.or g q with
  | case1 _ hoptional => exact hp.everywhere_absorb hoptional hg hq
  | case2 _ h hoptional => exact hp.everywhere_absorb hoptional hq hg
  | case3 _ h _ =>
      exact hp.everywhere_should (List.cons_ne_nil _ _) (by simp [hg, hq])
  | case4 _ =>
      exact hp.everywhere_should (List.cons_ne_nil _ _) (by simp [hg, hq])

theorem everywhere_and {a b : Query} (ha : Everywhere p a) (hb : Everywhere p b) :
    Everywhere p (a.and b) := by
  fun_cases Query.and a b with
  | case1 => exact hb
  | case2 => exact ha
  | case3 => exact ha
  | case4 => exact hb
  | case5 g h =>
      obtain ⟨hgSelf, hgClauses⟩ := (everywhere_group_iff g).mp ha
      obtain ⟨hhSelf, hhClauses⟩ := (everywhere_group_iff h).mp hb
      refine (everywhere_group_iff _).mpr ⟨hp.and hgSelf hhSelf, ?_⟩
      exact Group.forall_mem_clauses_and hgClauses hhClauses (hp.everywhere_nested hb)
  | case6 => exact hp.everywhere_andClause ha hb
  | case7 => exact hp.everywhere_andClause hb ha
  | case8 => exact hp.everywhere_must ha hb

theorem everywhere_or {a b : Query} (ha : Everywhere p a) (hb : Everywhere p b) :
    Everywhere p (a.or b) := by
  fun_cases Query.or a b with
  | case1 => exact ha
  | case2 => exact hb
  | case3 => exact hb
  | case4 => exact ha
  | case5 => exact hp.everywhere_group_or ha hb
  | case6 => exact hp.everywhere_group_or hb ha
  | case7 => exact hp.everywhere_should (List.cons_ne_nil _ _) (by simp [ha, hb])

theorem everywhere_add {a b : Query} (ha : Everywhere p a) (hb : Everywhere p b) :
    Everywhere p (a.add b) := by
  fun_cases Query.add a b with
  | case1 => exact hb
  | case2 => exact ha
  | case3 => exact ha
  | case4 => exact hb
  | case5 g h =>
      obtain ⟨hgSelf, hgClauses⟩ := (everywhere_group_iff g).mp ha
      obtain ⟨hhSelf, hhClauses⟩ := (everywhere_group_iff h).mp hb
      exact (everywhere_group_iff _).mpr
        ⟨hp.append hgSelf hhSelf, Group.forall_mem_clauses_append hgClauses hhClauses⟩
  | case6 => exact hp.everywhere_addClause ha hb
  | case7 => exact hp.everywhere_addClause hb ha
  | case8 => exact hp.everywhere_must ha hb

theorem everywhere_oneOf {qs : List Query} (h : ∀ q ∈ qs, Everywhere p q) :
    Everywhere p (oneOf qs) := by
  match qs, h with
  | [], _ => exact (everywhere_matchNone_iff).mpr hp.matchNone
  | [q], h => exact h q List.mem_cons_self
  | q :: r :: qs, h => exact hp.everywhere_should (List.cons_ne_nil _ _) h

theorem everywhere_negate {q : Query} (h : Everywhere p q) : Everywhere p q.negate := by
  induction q with
  | matchAll boost => exact everywhere_matchNone_iff.mpr hp.matchNone
  | matchNone => exact (everywhere_matchAll_iff none).mpr hp.matchAll
  | leaf c =>
      rw [negate]
      exact hp.everywhere_mustNot (List.cons_ne_nil _ _) (List.forall_mem_singleton.mpr h)
  | group g hmust _ _ hfilter =>
      -- only mandatory clauses are negated; the others are handed on as they are
      obtain ⟨hgMust, hgShould, hgMustNot, hgFilter⟩ :=
        (Group.forall_mem_clauses_iff _ _).mp ((everywhere_group_iff g).mp h).2
      rw [negate_group_eq_oneOf]
      apply hp.everywhere_oneOf
      simp only [Group.failures, List.forall_mem_append, List.forall_mem_map]
      refine ⟨⟨⟨?_, ?_⟩, hgMustNot⟩, ?_⟩
      · intro q hq
        exact hmust q hq (hgMust q hq)
      · intro q hq
        exact hfilter q hq (hgFilter q hq)
      · split
        · next hgating =>
          have hshould : g.should ≠ [] := by
            rw [Bool.and_eq_true, Bool.not_eq_true', ← Bool.not_eq_true,
              List.isEmpty_iff] at hgating
            exact hgating.1
          exact List.forall_mem_singleton.mpr (hp.everywhere_mustNot hshould hgShould)
        · exact List.forall_mem_nil _

theorem everywhere_all {qs : List Query} (h : ∀ q ∈ qs, Everywhere p q) :
    Everywhere p (Query.all qs) := by
  refine List.foldlRecOn qs Query.and ((everywhere_matchAll_iff none).mpr hp.matchAll) ?_
  intro a ha q hq
  exact hp.everywhere_and ha (h q hq)

theorem everywhere_any {qs : List Query} (h : ∀ q ∈ qs, Everywhere p q) :
    Everywhere p (Query.any qs) := by
  refine List.foldlRecOn qs Query.or (everywhere_matchNone_iff.mpr hp.matchNone) ?_
  intro a ha q hq
  exact hp.everywhere_or ha (h q hq)

/-- No call of an operator loses the property anywhere. -/
theorem everywhere_of_combines {earlier : List Query} {q : Query}
    (h : ∀ r ∈ earlier, Everywhere p r) (hq : Combines earlier q) : Everywhere p q := by
  cases hq with
  | and ha hb => exact hp.everywhere_and (h _ ha) (h _ hb)
  | or ha hb => exact hp.everywhere_or (h _ ha) (h _ hb)
  | add ha hb => exact hp.everywhere_add (h _ ha) (h _ hb)
  | negate ha => exact hp.everywhere_negate (h _ ha)
  | all hqs => exact hp.everywhere_all fun r hr => h r (hqs hr)
  | any hqs => exact hp.everywhere_any fun r hr => h r (hqs hr)

end Stable

end Query

end QueryAlgebra
