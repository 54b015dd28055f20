import QueryAlgebra.Proofs.Operators.Clauses

/-!
# Disjunction

Between queries that are no constants, `Query.or` always gives a bare group of
alternatives. `Query.alternatives` lists what one operand contributes to it: an optional
group its optional clauses, every other query itself. Which operand takes the other in
decides the order of the alternatives and nothing else, `or_eq_alternatives`.

A blank group has no alternative to contribute although it matches every record. Beside
another blank group the outcome is blank again; beside any other query that is no
constant, `Query.vanishesBeside`, it is lost.
-/

namespace QueryAlgebra

namespace Group

variable {α : Type}

/-- A group that says nothing at all. -/
def isBlank (g : Group α) : Bool := g.isEmpty && g.minimum.isNone

theorem isBlank_iff (g : Group α) :
    g.isBlank = true ↔ g.isOptional = true ∧ g.should = [] := by
  simp [isBlank, isEmpty, isOptional]
  tauto

end Group

namespace Query

def isBlank : Query → Bool
  | group g => g.isBlank
  | _ => false

/-- A blank group beside a query that is neither blank nor a constant. -/
def vanishesBeside (a b : Query) : Bool := a.isBlank && !b.isBlank && !b.isConstant

/-- What a query contributes to a group of alternatives. -/
def alternatives : Query → List Query
  | group g => if g.isOptional then g.should else [group g]
  | q => [q]

theorem alternatives_of_isOptional {g : Group Query} (h : g.isOptional = true) :
    (group g).alternatives = g.should :=
  if_pos h

theorem alternatives_of_not_isOptional {g : Group Query} (h : ¬g.isOptional = true) :
    (group g).alternatives = [group g] :=
  if_neg h

theorem alternatives_of_not_group {q : Query} (h : ∀ g, q = group g → False) :
    q.alternatives = [q] := by
  cases q with
  | group g => exact absurd rfl (h g)
  | _ => rfl

theorem alternatives_eq_nil_iff (q : Query) :
    q.alternatives = [] ↔ q.isBlank = true := by
  cases q with
  | group g =>
      rw [isBlank, Group.isBlank_iff]
      by_cases h : g.isOptional = true
      · rw [alternatives_of_isOptional h]
        exact (and_iff_right h).symm
      · rw [alternatives_of_not_isOptional h]
        simp [h]
  | _ => simp [alternatives, isBlank]

/-- A query that is not blank matches when one of its alternatives does. -/
theorem any_alternatives_of_not_isBlank {v : Condition → Bool} {q : Query}
    (h : q.isBlank = false) : q.alternatives.any (holds v) = holds v q := by
  cases q with
  | group g =>
      by_cases hg : g.isOptional = true
      · have hshould : g.should ≠ [] := by
          intro hnil
          rw [isBlank, (Group.isBlank_iff g).mpr ⟨hg, hnil⟩] at h
          exact absurd h (by simp)
        rw [alternatives_of_isOptional hg, Bool.eq_iff_iff, List.any_eq_true,
          holds_of_isOptional hg]
        exact (or_iff_right hshould).symm
      · rw [alternatives_of_not_isOptional hg]
        simp
  | _ => simp [alternatives]

theorem holds_of_isBlank {v : Condition → Bool} {q : Query} (h : q.isBlank = true) :
    holds v q = true := by
  cases q with
  | group g =>
      obtain ⟨hg, hnil⟩ := (Group.isBlank_iff g).mp h
      exact (holds_of_isOptional hg).mpr (Or.inl hnil)
  | _ => exact absurd h (by simp [isBlank])

theorem isConstant_of_isBlank {q : Query} (h : q.isBlank = true) : q.isConstant = false := by
  cases q with
  | group g => rfl
  | _ => exact absurd h (by simp [isBlank])

end Query

namespace Group

theorem absorb_eq_alternatives (g : Group Query) (q : Query) :
    g.absorb q = { g with should := g.should ++ q.alternatives } := by
  cases q with
  | group h =>
      rw [absorb, Query.alternatives]
      split <;> rfl
  | _ => rfl

theorem isOptional_absorb {g : Group Query} (h : g.isOptional = true) (q : Query) :
    (g.absorb q).isOptional = true := by
  rw [absorb_eq_alternatives]
  exact h

/-- Whichever way a group is joined with a query, the outcome is a bare group of the
alternatives of both. -/
theorem or_eq_alternatives (g : Group Query) (q : Query) :
    (g.or q).isOptional = true ∧
      (g.or q).should.Perm ((Query.group g).alternatives ++ q.alternatives) := by
  fun_cases or g q with
  | case1 _ hg =>
      refine ⟨isOptional_absorb hg q, ?_⟩
      rw [absorb_eq_alternatives, Query.alternatives_of_isOptional hg]
  | case2 hg h hh =>
      refine ⟨isOptional_absorb hh _, ?_⟩
      rw [absorb_eq_alternatives, Query.alternatives_of_isOptional hh]
      exact List.perm_append_comm
  | case3 hg h hh =>
      refine ⟨rfl, ?_⟩
      rw [Query.alternatives_of_not_isOptional hg, Query.alternatives_of_not_isOptional hh]
      exact List.Perm.refl _
  | case4 hg _ hq =>
      refine ⟨rfl, ?_⟩
      rw [Query.alternatives_of_not_isOptional hg, Query.alternatives_of_not_group hq]
      exact List.Perm.refl _

end Group

namespace Query

theorem isConstant_cases (a b : Query) :
    (a.isConstant = true ∨ b.isConstant = true) ∨
      (a.isConstant = false ∧ b.isConstant = false) := by
  cases a.isConstant <;> cases b.isConstant <;> simp

theorem or_matchNone (q : Query) : q.or matchNone = q := by
  cases q <;> rfl

theorem holds_or_matchAll (v : Condition → Bool) (q : Query) (boost : Option Binary64) :
    holds v (q.or (matchAll boost)) = true := by
  cases q <;> rfl

/-- A disjunction with a constant is one of its operands. -/
theorem or_eq_operand {a b : Query} (h : a.isConstant = true ∨ b.isConstant = true) :
    a.or b = a ∨ a.or b = b := by
  rcases h with ha | hb
  · cases a with
    | matchAll => exact Or.inl rfl
    | matchNone => exact Or.inr rfl
    | _ => exact absurd ha (by simp [isConstant])
  · cases b with
    | matchAll =>
        cases a with
        | matchAll => exact Or.inl rfl
        | _ => exact Or.inr rfl
    | matchNone => exact Or.inl (or_matchNone a)
    | _ => exact absurd hb (by simp [isConstant])

/-- Disjunction of queries that are no constants, up to the order of the alternatives. -/
theorem or_eq_group {a b : Query} (ha : a.isConstant = false) (hb : b.isConstant = false) :
    ∃ g : Group Query, a.or b = group g ∧ g.isOptional = true ∧
      g.should.Perm (a.alternatives ++ b.alternatives) := by
  fun_cases or a b with
  | case1 => exact absurd ha (by simp [isConstant])
  | case2 => exact absurd ha (by simp [isConstant])
  | case3 => exact absurd hb (by simp [isConstant])
  | case4 => exact absurd hb (by simp [isConstant])
  | case5 g => exact ⟨_, rfl, Group.or_eq_alternatives g b⟩
  | case6 _ h =>
      obtain ⟨hoptional, hperm⟩ := Group.or_eq_alternatives h a
      exact ⟨_, rfl, hoptional, hperm.trans List.perm_append_comm⟩
  | case7 =>
      have ha' : a.alternatives = [a] := alternatives_of_not_group ‹_›
      have hb' : b.alternatives = [b] := alternatives_of_not_group ‹_›
      refine ⟨_, rfl, rfl, ?_⟩
      rw [ha', hb']
      exact List.Perm.refl _

variable {v : Condition → Bool}

theorem holds_or_of_isConstant {a b : Query}
    (h : a.isConstant = true ∨ b.isConstant = true) :
    holds v (a.or b) = (holds v a || holds v b) := by
  rcases h with ha | hb
  · cases a with
    | matchAll => rfl
    | matchNone => rfl
    | _ => exact absurd ha (by simp [isConstant])
  · cases b with
    | matchAll => rw [holds_or_matchAll, holds_matchAll, Bool.or_true]
    | matchNone => rw [or_matchNone, holds_matchNone, Bool.or_false]
    | _ => exact absurd hb (by simp [isConstant])

theorem holds_or_of_not_isConstant {a b : Query} (ha : a.isConstant = false)
    (hb : b.isConstant = false) :
    holds v (a.or b) =
      (a.isBlank && b.isBlank ||
        (a.alternatives.any (holds v) || b.alternatives.any (holds v))) := by
  obtain ⟨g, he, hoptional, hperm⟩ := or_eq_group ha hb
  have hnil : g.should = [] ↔ a.isBlank = true ∧ b.isBlank = true := by
    rw [← alternatives_eq_nil_iff, ← alternatives_eq_nil_iff, ← List.append_eq_nil_iff]
    constructor
    · intro h
      rw [h] at hperm
      exact hperm.nil_eq.symm
    · intro h
      rw [h] at hperm
      exact hperm.eq_nil
  have hany : (∃ q ∈ g.should, holds v q = true) ↔
      (a.alternatives.any (holds v) || b.alternatives.any (holds v)) = true := by
    rw [← List.any_append, List.any_eq_true]
    exact exists_congr fun q => and_congr_left fun _ => hperm.mem_iff
  rw [he, Bool.eq_iff_iff, holds_of_isOptional hoptional, hnil, hany, ← Bool.and_eq_true,
    ← Bool.or_eq_true]

/-- The order of the operands says nothing about the records that match. -/
theorem holds_or_comm (a b : Query) : holds v (a.or b) = holds v (b.or a) := by
  rcases isConstant_cases a b with hconstant | ⟨ha, hb⟩
  · rw [holds_or_of_isConstant hconstant, holds_or_of_isConstant hconstant.symm, Bool.or_comm]
  · rw [holds_or_of_not_isConstant ha hb, holds_or_of_not_isConstant hb ha, Bool.and_comm,
      Bool.or_comm (a.alternatives.any (holds v))]

theorem holds_or_of_not_isBlank {a b : Query} (ha : a.isBlank = false)
    (hb : b.isBlank = false) : holds v (a.or b) = (holds v a || holds v b) := by
  rcases isConstant_cases a b with hconstant | ⟨ha', hb'⟩
  · exact holds_or_of_isConstant hconstant
  · rw [holds_or_of_not_isConstant ha' hb', any_alternatives_of_not_isBlank ha,
      any_alternatives_of_not_isBlank hb, ha, Bool.false_and, Bool.false_or]

/-- Beside a blank group the other side decides alone, unless it is blank as well. -/
theorem holds_or_of_isBlank_left {a b : Query} (ha : a.isBlank = true)
    (hb : b.isConstant = false) :
    holds v (a.or b) = holds v b := by
  rw [holds_or_of_not_isConstant (isConstant_of_isBlank ha) hb,
    (alternatives_eq_nil_iff a).mpr ha]
  cases hblank : b.isBlank with
  | false => simp [any_alternatives_of_not_isBlank hblank]
  | true => simp [ha, holds_of_isBlank hblank]

theorem holds_or_of_isBlank_right {a b : Query} (ha : a.isConstant = false)
    (hb : b.isBlank = true) :
    holds v (a.or b) = holds v a := by
  rw [holds_or_comm, holds_or_of_isBlank_left hb ha]

/-- Disjunction is exact, except that a blank group is lost beside a query that is neither
blank nor a constant. -/
theorem holds_or (v : Condition → Bool) (a b : Query) :
    holds v (a.or b) =
      if a.vanishesBeside b then holds v b
      else if b.vanishesBeside a then holds v a
      else holds v a || holds v b := by
  split
  · next hlost =>
    simp only [vanishesBeside, Bool.and_eq_true, Bool.not_eq_true'] at hlost
    exact holds_or_of_isBlank_left hlost.1.1 hlost.2
  · next ha =>
    split
    · next hlost =>
      simp only [vanishesBeside, Bool.and_eq_true, Bool.not_eq_true'] at hlost
      exact holds_or_of_isBlank_right hlost.2 hlost.1.1
    · next hb =>
      rcases isConstant_cases a b with hconstant | hconstant
      · exact holds_or_of_isConstant hconstant
      · -- neither side is lost, so that both are blank or neither is
        cases hblank : a.isBlank with
        | false =>
            have hb' : b.isBlank = false := by
              simpa [vanishesBeside, hconstant.1, hblank] using hb
            exact holds_or_of_not_isBlank hblank hb'
        | true =>
            have hb' : b.isBlank = true := by
              simpa [vanishesBeside, hconstant.2, hblank] using ha
            rw [holds_or_of_isBlank_left hblank hconstant.2, holds_of_isBlank hb',
              Bool.or_true]

end Query

end QueryAlgebra
