/-!
# Sameness of options and lists

Floats are compared as numbers and not by their representation, so whatever may hold a float
has a Boolean comparison of its own instead of the equality of the logic. Here such a
comparison is carried over to options and lists.
-/

namespace QueryAlgebra

variable {α β γ : Type}

/-- Both are absent, or both are there and the same. -/
def sameOption (same : α → α → Bool) : Option α → Option α → Bool
  | none, none => true
  | some a, some b => same a b
  | _, _ => false

/-- The lists have the same items in the same order. -/
def sameList (same : α → α → Bool) : List α → List α → Bool
  | [], [] => true
  | a :: as, b :: bs => same a b && sameList same as bs
  | _, _ => false

@[simp] theorem sameOption_some (same : α → α → Bool) (a b : α) :
    sameOption same (some a) (some b) = same a b := rfl

@[simp] theorem sameList_nil (same : α → α → Bool) : sameList same [] [] = true := rfl

@[simp] theorem sameList_cons (same : α → α → Bool) (a b : α) (as bs : List α) :
    sameList same (a :: as) (b :: bs) = (same a b && sameList same as bs) := rfl

theorem sameOption_beq [BEq α] (o p : Option α) : sameOption (· == ·) o p = (o == p) := by
  cases o <;> cases p <;> rfl

section Map

variable {f : α → β} {g : α → γ} {s : β → β → Bool}

theorem sameOption_map {t : α → α → Bool} {o p : Option α}
    (h : ∀ a ∈ o, ∀ b ∈ p, s (f a) (f b) = t a b) :
    sameOption s (o.map f) (p.map f) = sameOption t o p := by
  cases o with
  | none => cases p <;> rfl
  | some a =>
    cases p with
    | none => rfl
    | some b => exact h a rfl b rfl

theorem sameList_map {t : α → α → Bool} {as bs : List α}
    (h : ∀ a ∈ as, ∀ b ∈ bs, s (f a) (f b) = t a b) :
    sameList s (as.map f) (bs.map f) = sameList t as bs := by
  induction as generalizing bs with
  | nil => cases bs <;> rfl
  | cons a as ih =>
    cases bs with
    | nil => rfl
    | cons b bs =>
      obtain ⟨ha, has⟩ := List.forall_mem_cons.mp h
      rw [List.map_cons, List.map_cons, sameList_cons, sameList_cons, ha b List.mem_cons_self,
        ih fun c hc d hd => has c hc d (List.mem_cons_of_mem b hd)]

/-- Two ways to compare items after a map agree on options as soon as they agree on items. -/
theorem sameOption_map_congr {t : γ → γ → Bool} {o p : Option α}
    (h : ∀ a ∈ o, ∀ b ∈ p, s (f a) (f b) = t (g a) (g b)) :
    sameOption s (o.map f) (p.map f) = sameOption t (o.map g) (p.map g) :=
  (sameOption_map h).trans (sameOption_map fun _ _ _ _ => rfl).symm

theorem sameList_map_congr {t : γ → γ → Bool} {as bs : List α}
    (h : ∀ a ∈ as, ∀ b ∈ bs, s (f a) (f b) = t (g a) (g b)) :
    sameList s (as.map f) (bs.map f) = sameList t (as.map g) (bs.map g) :=
  (sameList_map h).trans (sameList_map fun _ _ _ _ => rfl).symm

end Map

end QueryAlgebra
