import Mathlib.Tactic.Common
import QueryAlgebra.Proofs.Building.Conditions

/-!
# Sameness as equality of what is left

Floats are compared as numbers, which is no equivalence: a not-a-number differs from itself, and
the two zeros are the same. Both are put apart here. `reduced` drops the sign of a zero wherever
one occurs, and `ComparesBy` says that two things are the same exactly when each of them is the
same as itself and both reduce to one thing. Such a comparison is symmetric and transitive, and it
is reflexive on whatever passes the checks of the constructors, `Condition.same_self`.

Every record is compared field by field, so that its comparison is put together from those of its
fields.
-/

namespace QueryAlgebra

variable {α β γ δ : Type}

/-- The comparison is equality after a reduction, as far as it is reflexive. -/
def ComparesBy (same : α → α → Bool) (reduced : α → β) : Prop :=
  ∀ a b, same a b = true ↔ (same a a = true ∧ same b b = true) ∧ reduced a = reduced b

theorem comparesBy_beq [BEq α] [LawfulBEq α] : ComparesBy (fun a b : α => a == b) id := by
  intro a b
  simp

namespace ComparesBy

variable {same : α → α → Bool} {reduced : α → β}

theorem congr {other : α → γ} (h : ComparesBy same reduced)
    (hother : ∀ a b, reduced a = reduced b ↔ other a = other b) : ComparesBy same other := by
  intro a b
  rw [← hother]
  exact h a b

theorem comap (h : ComparesBy same reduced) (f : γ → α) :
    ComparesBy (fun c d => same (f c) (f d)) fun c => reduced (f c) :=
  fun c d => h (f c) (f d)

theorem and {other : α → α → Bool} {left : α → γ} (h : ComparesBy same reduced)
    (hother : ComparesBy other left) :
    ComparesBy (fun a b => same a b && other a b) fun a => (reduced a, left a) := by
  intro a b
  simp only [Bool.and_eq_true, Prod.mk.injEq]
  rw [h a b, hother a b]
  tauto

theorem option (h : ComparesBy same reduced) :
    ComparesBy (sameOption same) (Option.map reduced) := by
  intro o p
  cases o with
  | none => cases p <;> simp [sameOption]
  | some a =>
      cases p with
      | none => simp [sameOption]
      | some b => simpa using h a b

end ComparesBy

/-- Lists are compared by the reductions of their items. -/
theorem sameList_iff_of_forall {same : α → α → Bool} {reduced : α → β} {as : List α}
    (h : ∀ a ∈ as, ∀ b, same a b = true ↔
      (same a a = true ∧ same b b = true) ∧ reduced a = reduced b) (bs : List α) :
    sameList same as bs = true ↔
      (sameList same as as = true ∧ sameList same bs bs = true) ∧
        as.map reduced = bs.map reduced := by
  induction as generalizing bs with
  | nil => cases bs <;> simp [sameList]
  | cons a as ih =>
      obtain ⟨ha, has⟩ := List.forall_mem_cons.mp h
      cases bs with
      | nil => simp [sameList]
      | cons b bs =>
          simp only [sameList_cons, Bool.and_eq_true, List.map_cons, List.cons.injEq]
          rw [ha b, ih has bs]
          tauto

theorem ComparesBy.list {same : α → α → Bool} {reduced : α → β} (h : ComparesBy same reduced) :
    ComparesBy (sameList same) (List.map reduced) :=
  fun _ bs => sameList_iff_of_forall (fun a _ b => h a b) bs

theorem sameList_self {same : α → α → Bool} {as : List α}
    (h : ∀ a ∈ as, same a a = true) : sameList same as as = true := by
  induction as with
  | nil => rfl
  | cons a as ih =>
      obtain ⟨ha, has⟩ := List.forall_mem_cons.mp h
      rw [sameList_cons, ha, ih has]
      rfl

theorem sameOption_self {same : α → α → Bool} {o : Option α}
    (h : ∀ a ∈ o, same a a = true) : sameOption same o o = true := by
  cases o with
  | none => rfl
  | some a => exact h a rfl

namespace Binary64

/-- Zero of the given sign. -/
def zero (negative : Bool) : Binary64 := finite negative ⟨0, by decide⟩ ⟨0, by decide⟩

/-- The number without the sign of a zero. -/
def reduced (x : Binary64) : Binary64 := if x.isZero then zero false else x

theorem isZero_reduced (x : Binary64) : x.reduced.isZero = x.isZero := by
  unfold reduced
  split
  · next h => exact h.symm
  · rfl

theorem reduced_eq_iff (x y : Binary64) :
    x.reduced = y.reduced ↔ (x.isZero = true ∧ y.isZero = true) ∨ x = y := by
  constructor
  · intro h
    have hzero : x.isZero = y.isZero := by rw [← isZero_reduced, h, isZero_reduced]
    cases hx : x.isZero with
    | true => exact Or.inl ⟨rfl, hzero ▸ hx⟩
    | false =>
        have hy : y.isZero = false := hzero ▸ hx
        rw [reduced, reduced, hx, hy] at h
        exact Or.inr h
  · rintro (⟨hx, hy⟩ | rfl)
    · rw [reduced, reduced, if_pos hx, if_pos hy]
    · rfl

theorem comparesBy_reduced : ComparesBy same reduced := by
  intro x y
  rw [same_self_iff, same_self_iff, reduced_eq_iff]
  cases x <;> cases y <;> simp [same]

theorem same_self_of_isFinite {x : Binary64} (h : x.isFinite = true) : x.same x = true := by
  rw [same_self_iff]
  rintro rfl
  exact nomatch h

theorem same_self_of_isBoost {x : Binary64} (h : isBoost x = true) : x.same x = true := by
  rw [isBoost, Bool.and_eq_true] at h
  exact same_self_of_isFinite h.1

theorem sameOption_self_of_isBoost {o : Option Binary64} (h : ∀ b ∈ o, isBoost b = true) :
    sameOption same o o = true :=
  sameOption_self fun b hb => same_self_of_isBoost (h b hb)

end Binary64

/-- The number without the sign of a zero. -/
def Numeric.reduced : Numeric → Numeric
  | float x => float x.reduced
  | n => n

theorem Numeric.comparesBy_reduced : ComparesBy Numeric.same Numeric.reduced := by
  intro m n
  cases m with
  | float x =>
      cases n with
      | float y =>
          have h := Binary64.comparesBy_reduced x y
          simpa [same, reduced] using h
      | _ => simp [same, reduced]
  | _ => cases n <;> simp [same, reduced]

namespace Value

/-- The value without the sign of a zero. -/
def reduced : Value → Value
  | number n => number n.reduced
  | v => v

theorem comparesBy_reduced : ComparesBy same reduced := by
  intro v w
  cases v with
  | number m =>
      cases w with
      | number n =>
          have h := Numeric.comparesBy_reduced m n
          simpa [same, reduced] using h
      | _ => simp [same, reduced]
  | _ => cases w <;> simp [same, reduced]

theorem same_self {v : Value} (h : v.isFinite = true) : v.same v = true := by
  cases v with
  | number n =>
      cases n with
      | float x => exact Binary64.same_self_of_isFinite h
      | _ => exact beq_self_eq_true _
  | _ => exact beq_self_eq_true _

end Value

/-- The parameters without the sign of a zero. -/
def Tuning.reduced (t : Tuning) : Tuning := { t with boost := t.boost.map Binary64.reduced }

theorem Tuning.comparesBy_reduced : ComparesBy Tuning.same Tuning.reduced :=
  ((Binary64.comparesBy_reduced.option.comap boost).and
    (comparesBy_beq.comap caseInsensitive)).congr (by simp [reduced])

theorem Tuning.same_self {t : Tuning} (h : ∀ b ∈ t.boost, isBoost b = true) :
    t.same t = true := by
  simp [same, Binary64.sameOption_self_of_isBoost h]

namespace Condition

/-- The condition without the sign of a zero in its values and its boost. -/
def reduced : Condition → Condition
  | term t => .term { t with value := t.value.reduced, tuning := t.tuning.reduced }
  | startsWith t => .startsWith { t with tuning := t.tuning.reduced }
  | terms t => .terms
    { t with values := t.values.map Value.reduced, boost := t.boost.map Binary64.reduced }
  | range r => .range
    { r with
      above := r.above.map Value.reduced
      atLeast := r.atLeast.map Value.reduced
      below := r.below.map Value.reduced
      atMost := r.atMost.map Value.reduced
      boost := r.boost.map Binary64.reduced }
  | presence p => .presence p

end Condition

theorem Term.comparesBy_reduced :
    ComparesBy Term.same fun t => (Condition.term t).reduced :=
  (((comparesBy_beq.comap field).and (Value.comparesBy_reduced.comap value)).and
    (Tuning.comparesBy_reduced.comap tuning)).congr (by simp [Condition.reduced, and_assoc])

theorem StartsWith.comparesBy_reduced :
    ComparesBy StartsWith.same fun t => (Condition.startsWith t).reduced :=
  (((comparesBy_beq.comap field).and (comparesBy_beq.comap value)).and
    (Tuning.comparesBy_reduced.comap tuning)).congr (by simp [Condition.reduced, and_assoc])

theorem Terms.comparesBy_reduced :
    ComparesBy Terms.same fun t => (Condition.terms t).reduced :=
  (((comparesBy_beq.comap field).and (Value.comparesBy_reduced.list.comap values)).and
    (Binary64.comparesBy_reduced.option.comap boost)).congr
      (by simp [Condition.reduced, and_assoc])

theorem Range.comparesBy_reduced :
    ComparesBy Range.same fun r => (Condition.range r).reduced :=
  have hbound := Value.comparesBy_reduced.option
  (((((((((comparesBy_beq.comap field).and (hbound.comap above)).and
    (hbound.comap atLeast)).and (hbound.comap below)).and (hbound.comap atMost)).and
    (Binary64.comparesBy_reduced.option.comap boost)).and (comparesBy_beq.comap format)).and
    (comparesBy_beq.comap relation)).and (comparesBy_beq.comap timeZone)).congr
      (by simp [Condition.reduced, and_assoc])

namespace Condition

theorem comparesBy_reduced : ComparesBy same reduced := by
  intro c d
  cases c with
  | term s =>
      cases d with
      | term t => exact Term.comparesBy_reduced s t
      | _ => simp [same, reduced]
  | startsWith s =>
      cases d with
      | startsWith t => exact StartsWith.comparesBy_reduced s t
      | _ => simp [same, reduced]
  | terms s =>
      cases d with
      | terms t => exact Terms.comparesBy_reduced s t
      | _ => simp [same, reduced]
  | range r =>
      cases d with
      | range s => exact Range.comparesBy_reduced r s
      | _ => simp [same, reduced]
  | presence p =>
      cases d with
      | presence q => simp [same, reduced]
      | _ => simp [same, reduced]

/-- A condition that has passed the checks is the same as itself. -/
theorem same_self {c : Condition} (h : c.Valid) : c.same c = true := by
  cases c with
  | term t =>
      obtain ⟨-, hvalue, hboost⟩ := (valid_term_iff t).mp h
      simp [same, Term.same, Value.same_self hvalue, Tuning.same_self hboost]
  | startsWith t =>
      obtain ⟨-, hboost⟩ := (valid_startsWith_iff t).mp h
      simp [same, StartsWith.same, Tuning.same_self hboost]
  | terms t =>
      obtain ⟨-, -, hfinite, -, -, hboost⟩ := (valid_terms_iff t).mp h
      have hvalues := sameList_self fun v hv => Value.same_self (hfinite v hv)
      simp [same, Terms.same, hvalues, Binary64.sameOption_self_of_isBoost hboost]
  | range r =>
      obtain ⟨-, habove, hatLeast, hbelow, hatMost, hboost⟩ := (valid_range_iff r).mp h
      have hbound : ∀ {o : Option Value}, (∀ v ∈ o, v.isFinite = true) →
          sameOption Value.same o o = true :=
        fun ho => sameOption_self fun v hv => Value.same_self (ho v hv)
      simp [same, Range.same, hbound habove, hbound hatLeast, hbound hbelow, hbound hatMost,
        Binary64.sameOption_self_of_isBoost hboost]
  | presence p => simp [same]

end Condition

end QueryAlgebra
