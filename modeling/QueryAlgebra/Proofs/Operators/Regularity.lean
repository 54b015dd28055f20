import Mathlib.Data.List.Induction
import QueryAlgebra.Proofs.Operators.Heredity
import QueryAlgebra.Query.Shape

/-!
# Regular queries

`Query.Regular` is the invariant under which the operators can be chained. The operators
keep it, and it excludes what they are not exact for: a regular group is not blank, its
threshold is within reach, and it is modest together with all groups below it.

A stage of `Group.and` need not have a clause yet, so that emptiness is followed apart from
the thresholds: `isEmpty_and` for the one, `modest_adopt` for the other. With these,
`stable_regularHere` leaves the rest to the theory of stable properties.
-/

namespace QueryAlgebra

namespace Group

variable {α : Type}

theorem regular_iff (g : Group α) : g.Regular ↔ g.isEmpty = false ∧ g.Modest := Iff.rfl

/-- A threshold that is not given is modest. -/
theorem modest_of_minimum_eq_none {g : Group α} (h : g.minimum = none) : g.Modest := by
  rw [Modest, threshold_of_minimum_eq_none h]
  split
  · exact ⟨Nat.zero_le _, Nat.zero_le _⟩
  · next hgating =>
    rw [not_or] at hgating
    exact ⟨Nat.le_refl _, List.length_pos_iff.mpr hgating.1⟩

/-- A group stays modest when clauses are added without a word about the minimum. -/
theorem modest_of_grown {g k : Group α} (hg : g.Modest) (hminimum : k.minimum = g.minimum)
    (hshould : g.should.length ≤ k.should.length) : k.Modest := by
  cases hmin : g.minimum with
  | none => exact modest_of_minimum_eq_none (hminimum.trans hmin)
  | some n =>
      rw [Modest, threshold_of_minimum hmin] at hg
      rw [Modest, threshold_of_minimum (hminimum.trans hmin)]
      exact ⟨hg.1, Nat.le_trans hg.2 hshould⟩

theorem modest_iff_of_settled {g : Group Query} (h : g.Settled) :
    g.Modest ↔ g.minimum.getD 0 ≤ 1 ∧ g.minimum.getD 0 ≤ g.should.length := by
  rw [Modest, threshold_of_settled h]

theorem modest_adopt {g operand : Group Query} (hg : g.Settled) (hmodest : g.Modest)
    (hoperand : operand.Modest) : (g.adopt operand).Modest := by
  rw [modest_iff_of_settled hg] at hmodest
  rw [modest_iff_of_settled (settled_adopt hg operand)]
  rcases adopt_cases g operand with
    ⟨-, he⟩ | ⟨hfew, -, he⟩ | ⟨-, -, hzero, -, he⟩ | ⟨-, -, he⟩
  · rw [he]
    exact hmodest
  · rw [he]
    exact ⟨hoperand.1, Nat.le_of_lt hfew⟩
  · -- clauses are added, but none of the clauses was asked for before
    rw [threshold_of_settled hg] at hzero
    rw [he, hzero]
    exact ⟨Nat.zero_le _, Nat.zero_le _⟩
  · rw [he]
    exact hmodest

theorem modest_and {g h : Group Query} (hg : g.Modest) (hh : h.Modest) :
    (g.and h).Modest := by
  have hsettled := settled_mandatory g h
  have hmandatory : (g.mandatory h).Modest := modest_of_minimum_eq_none rfl
  rw [and_eq_adopt]
  exact modest_adopt (settled_adopt hsettled g) (modest_adopt hsettled hmandatory hg) hh

theorem modest_andClause {g : Group Query} (h : g.Modest) (q : Query) :
    (g.andClause q).Modest := by
  rw [Modest, threshold_andClause]
  exact h

theorem isEmpty_adopt (g operand : Group Query) :
    (g.adopt operand).isEmpty = (g.isEmpty && operand.should.isEmpty) := by
  rw [Bool.eq_iff_iff]
  rcases adopt_cases g operand with
    ⟨-, he⟩ | ⟨-, hnil, he⟩ | ⟨-, -, -, -, he⟩ | ⟨-, hne, he⟩
  · rw [he]
    simp [isEmpty]
    tauto
  · rw [he]
    simp [isEmpty, hnil]
    tauto
  · rw [he]
    simp [isEmpty]
    tauto
  · rw [he]
    simp [isEmpty, hne]

theorem isEmpty_and (g h : Group Query) : (g.and h).isEmpty = (g.isEmpty && h.isEmpty) := by
  rw [and_eq_adopt, isEmpty_adopt, isEmpty_adopt, Bool.eq_iff_iff]
  simp [isEmpty, mandatory]
  tauto

theorem isEmpty_append (g h : Group Query) :
    (g.append h).isEmpty = (g.isEmpty && h.isEmpty) := by
  rw [Bool.eq_iff_iff]
  simp [isEmpty, append]
  tauto

theorem isEmpty_absorb (g : Group Query) (q : Query) :
    (g.absorb q).isEmpty = (g.isEmpty && q.alternatives.isEmpty) := by
  rw [absorb_eq_alternatives, Bool.eq_iff_iff]
  simp [isEmpty]
  tauto

end Group

namespace Query

theorem regular_group_iff_modest (g : Group Query) :
    Regular (group g) ↔ g.isEmpty = false ∧ g.Modest ∧ ∀ q ∈ g.clauses, Regular q := by
  rw [regular_group_iff, Group.regular_iff, and_assoc]

/-- The query is no group, or it is regular as a group. Its clauses are left aside. -/
def RegularHere : Query → Prop
  | group g => g.Regular
  | _ => True

theorem regular_iff_everywhere (q : Query) : Regular q ↔ Everywhere RegularHere q := by
  induction q with
  | group g hmust hshould hmustNot hfilter =>
      have hclauses : ∀ q ∈ g.clauses, (Regular q ↔ Everywhere RegularHere q) :=
        (Group.forall_mem_clauses_iff _ _).mpr ⟨hmust, hshould, hmustNot, hfilter⟩
      rw [regular_group_iff, everywhere_group_iff, forall₂_congr hclauses]
      rfl
  | _ => simp [RegularHere]

/-- No operator makes a group that is not regular, provided those it starts from are. -/
theorem stable_regularHere : Stable RegularHere where
  matchAll := trivial
  matchNone := trivial
  bare hne _ hminimum := by
    refine ⟨?_, Group.modest_of_minimum_eq_none hminimum⟩
    rw [← Bool.not_eq_true, Group.isEmpty_iff]
    exact hne
  nested hg hfew := by
    refine ⟨?_, hg.2⟩
    simpa [Group.isEmpty] using List.length_pos_iff.mp (Nat.zero_lt_of_lt hfew)
  and {g h} hg hh := by
    have hempty := hg.1
    refine ⟨?_, Group.modest_and hg.2 hh.2⟩
    rw [Group.isEmpty_and, hempty, Bool.false_and]
  andClause q hg := ⟨by simp [Group.isEmpty, Group.andClause], Group.modest_andClause hg.2 q⟩
  absorb {g} q hoptional hg := by
    have hempty := hg.1
    refine ⟨?_, Group.modest_of_grown hg.2 ?_ ?_⟩
    · rw [Group.isEmpty_absorb, hempty, Bool.false_and]
    · rw [Group.absorb_eq_alternatives]
    · rw [Group.absorb_eq_alternatives, List.length_append]
      exact Nat.le_add_right _ _
  append {g h} hg _ := by
    have hempty := hg.1
    refine ⟨?_, Group.modest_of_grown hg.2 rfl ?_⟩
    · rw [Group.isEmpty_append, hempty, Bool.false_and]
    · rw [Group.append, List.length_append]
      exact Nat.le_add_right _ _
  addClause q hg := ⟨by simp [Group.isEmpty, Group.addClause],
    Group.modest_of_grown hg.2 rfl (Nat.le_refl _)⟩

theorem regular_and {a b : Query} (ha : Regular a) (hb : Regular b) : Regular (a.and b) := by
  rw [regular_iff_everywhere] at ha hb ⊢
  exact stable_regularHere.everywhere_and ha hb

theorem regular_or {a b : Query} (ha : Regular a) (hb : Regular b) : Regular (a.or b) := by
  rw [regular_iff_everywhere] at ha hb ⊢
  exact stable_regularHere.everywhere_or ha hb

theorem regular_negate {q : Query} (h : Regular q) : Regular (negate q) := by
  rw [regular_iff_everywhere] at h ⊢
  exact stable_regularHere.everywhere_negate h

theorem regular_all {qs : List Query} (h : ∀ q ∈ qs, Regular q) : Regular (all qs) := by
  simp only [regular_iff_everywhere] at h ⊢
  exact stable_regularHere.everywhere_all h

theorem regular_any {qs : List Query} (h : ∀ q ∈ qs, Regular q) : Regular (any qs) := by
  simp only [regular_iff_everywhere] at h ⊢
  exact stable_regularHere.everywhere_any h

theorem regular_of_combines {earlier : List Query} {q : Query}
    (h : ∀ r ∈ earlier, Regular r) (hq : Combines earlier q) : Regular q := by
  simp only [regular_iff_everywhere] at h ⊢
  exact stable_regularHere.everywhere_of_combines h hq

/-- In a regular query every group has a clause, and of its optional clauses it asks for one
at most, which it then has. -/
theorem Regular.of_occurs {q : Query} (h : Regular q) {g : Group Query}
    (hg : Occurs (group g) q) :
    g.clauses ≠ [] ∧ (∀ n, g.minimum = some n → n ≤ 1) ∧ (0 < g.threshold → g.should ≠ []) := by
  obtain ⟨hempty, hmodest⟩ : g.Regular := (regular_iff_everywhere q).mp h (group g) hg
  refine ⟨?_, ?_, ?_⟩
  · rw [ne_eq, ← Group.isEmpty_iff, hempty]
    exact Bool.false_ne_true
  · intro n hn
    rw [← Group.threshold_of_minimum hn]
    exact hmodest.1
  · intro hpos
    exact List.length_pos_iff.mp (Nat.lt_of_lt_of_le hpos hmodest.2)

/-- Whatever operators are called in whatever order, starting from regular queries: every
query on the way is regular, and so no operator makes an empty group, a minimum above one or
a threshold over no optional clauses. -/
theorem regular_of_mem_history {qs : List Query} (h : History Regular Combines qs) :
    ∀ q ∈ qs, Regular q ∧ ∀ g, Occurs (group g) q →
      g.clauses ≠ [] ∧ (∀ n, g.minimum = some n → n ≤ 1) ∧
        (0 < g.threshold → g.should ≠ []) := by
  intro q hq
  have hregular : Regular q :=
    h.forall_mem (fun _ => id) (fun _ _ => regular_of_combines) q hq
  exact ⟨hregular, fun _ => hregular.of_occurs⟩

/-- Two choices are joined, one of them as a group of its own, and the outcome is negated and
added to one of them. -/
theorem regular_of_mem_history_two_choices :
    History Regular Combines
        [((group { should := [leaf (.presence ⟨"a"⟩), leaf (.presence ⟨"b"⟩)] }).and
            (group { should := [leaf (.presence ⟨"a"⟩), leaf (.presence ⟨"c"⟩)],
                     minimum := some 1 })).negate.add
            (group { should := [leaf (.presence ⟨"a"⟩), leaf (.presence ⟨"b"⟩)] }),
          ((group { should := [leaf (.presence ⟨"a"⟩), leaf (.presence ⟨"b"⟩)] }).and
            (group { should := [leaf (.presence ⟨"a"⟩), leaf (.presence ⟨"c"⟩)],
                     minimum := some 1 })).negate,
          (group { should := [leaf (.presence ⟨"a"⟩), leaf (.presence ⟨"b"⟩)] }).and
            (group { should := [leaf (.presence ⟨"a"⟩), leaf (.presence ⟨"c"⟩)],
                     minimum := some 1 }),
          group { should := [leaf (.presence ⟨"a"⟩), leaf (.presence ⟨"c"⟩)],
                  minimum := some 1 },
          group { should := [leaf (.presence ⟨"a"⟩), leaf (.presence ⟨"b"⟩)] }] ∧
      Regular (((group { should := [leaf (.presence ⟨"a"⟩), leaf (.presence ⟨"b"⟩)] }).and
          (group { should := [leaf (.presence ⟨"a"⟩), leaf (.presence ⟨"c"⟩)],
                   minimum := some 1 })).negate.add
          (group { should := [leaf (.presence ⟨"a"⟩), leaf (.presence ⟨"b"⟩)] })) := by
  have hpair : ∀ b minimum, (∀ n ∈ minimum, n ≤ 1) →
      Regular (group { should := [leaf (.presence ⟨"a"⟩), leaf (.presence ⟨b⟩)], minimum }) := by
    intro b minimum hle
    cases minimum <;>
      simp [regular_group_iff, Group.Regular, Group.isEmpty, Group.clauses, Group.threshold] at *
    omega
  suffices h : History Regular Combines _ from
    ⟨h, (regular_of_mem_history h _ List.mem_cons_self).1⟩
  refine .step (.add (a := _) List.mem_cons_self (by simp)) ?_
  refine .step (.negate List.mem_cons_self) ?_
  refine .step (.and (by simp) (by simp)) ?_
  refine .given (hpair "c" (some 1) (by simp)) ?_
  exact .given (hpair "b" none (by simp)) .nil

theorem isBlank_of_regular {q : Query} (h : Regular q) : q.isBlank = false := by
  cases q with
  | group g =>
      have hempty := ((regular_group_iff_modest g).mp h).1
      rw [isBlank, Group.isBlank, hempty, Bool.false_and]
  | _ => rfl

theorem attainable_of_regular {a b : Query} (ha : Regular a) (hb : Regular b) :
    Attainable a b := by
  rintro g h rfl rfl
  exact ⟨((regular_group_iff_modest g).mp ha).2.1.2, ((regular_group_iff_modest h).mp hb).2.1.2⟩

theorem negatable_of_regular {q : Query} (h : Regular q) : q.Negatable := by
  induction q with
  | group g hmust _ _ hfilter =>
      obtain ⟨-, hmodest, hclauses⟩ := (regular_group_iff_modest g).mp h
      obtain ⟨hgMust, -, -, hgFilter⟩ := (Group.forall_mem_clauses_iff _ _).mp hclauses
      refine (negatable_group_iff g).mpr ⟨hmodest, ?_, ?_⟩
      · intro q hq
        exact hmust q hq (hgMust q hq)
      · intro q hq
        exact hfilter q hq (hgFilter q hq)
  | _ => trivial

section Exact

/-! On regular queries every operator is what its name says. -/

variable {v : Condition → Bool}

theorem holds_and_of_regular {a b : Query} (ha : Regular a) (hb : Regular b) :
    holds v (a.and b) = (holds v a && holds v b) :=
  holds_and_of_attainable (attainable_of_regular ha hb)

theorem holds_or_of_regular {a b : Query} (ha : Regular a) (hb : Regular b) :
    holds v (a.or b) = (holds v a || holds v b) :=
  holds_or_of_not_isBlank (isBlank_of_regular ha) (isBlank_of_regular hb)

theorem holds_negate_of_regular {q : Query} (h : Regular q) :
    holds v (negate q) = !holds v q :=
  holds_negate_of_negatable (negatable_of_regular h)

theorem holds_all_of_regular {qs : List Query} (h : ∀ q ∈ qs, Regular q) :
    holds v (all qs) = qs.all (holds v) := by
  induction qs using List.reverseRecOn with
  | nil => rfl
  | append_singleton qs q ih =>
      rw [List.forall_mem_append, List.forall_mem_singleton] at h
      rw [all_concat, holds_and_of_regular (regular_all h.1) h.2, ih h.1, List.all_append]
      simp

theorem holds_any_of_regular {qs : List Query} (h : ∀ q ∈ qs, Regular q) :
    holds v (any qs) = qs.any (holds v) := by
  induction qs using List.reverseRecOn with
  | nil => rfl
  | append_singleton qs q ih =>
      rw [List.forall_mem_append, List.forall_mem_singleton] at h
      rw [any_concat, holds_or_of_regular (regular_any h.1) h.2, ih h.1, List.any_append]
      simp

end Exact

end Query

end QueryAlgebra
