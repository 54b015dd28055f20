import Mathlib.Data.List.Induction
import Mathlib.Tactic.Common

/-!
# Sequences of settings

What is built step by step gets a list of settings. Of those that overwrite each other the last one
counts, `lastOf`. `Reordered` is another order of the same settings in which those for one thing
keep their order. Where settings for different things commute, it makes no difference to what comes
out, `Reordered.foldl_eq`.

Settings may be checked, each by itself. Then `Reordered.foldlM_congr` says in addition that the
other order is refused whenever the first one is, though not always for the same setting.
-/

namespace QueryAlgebra

variable {α β γ κ : Type}

/-- The value given last, where `pick` is the value that a setting gives. -/
def lastOf (pick : α → Option β) (settings : List α) : Option β :=
  (settings.filterMap pick).getLast?

/-- The same settings in an order that differs at most between settings for different things. -/
def Reordered [DecidableEq κ] (kind : α → κ) (settings others : List α) : Prop :=
  ∀ k, settings.filter (fun s => kind s = k) = others.filter fun s => kind s = k

section LastOf

variable {pick : α → Option β} {s : α} {ss : List α}

@[simp] theorem lastOf_nil : lastOf pick [] = none := rfl

theorem lastOf_concat :
    lastOf pick (ss ++ [s]) = (pick s).or (lastOf pick ss) := by
  rw [lastOf, List.filterMap_append, List.getLast?_append, lastOf]
  cases h : pick s <;> simp [h]

theorem lastOf_eq_none_iff : lastOf pick ss = none ↔ ∀ s ∈ ss, pick s = none := by
  rw [lastOf, List.getLast?_eq_none_iff, List.filterMap_eq_nil_iff]

/-- Nothing is given last when nothing is given. -/
theorem lastOf_eq_none_iff_not_mem {make : β → α}
    (h : ∀ s b, pick s = some b ↔ s = make b) : lastOf pick ss = none ↔ ∀ b, make b ∉ ss := by
  rw [lastOf_eq_none_iff]
  constructor
  · intro hnone b hb
    exact absurd ((h _ b).mpr rfl) (by simp [hnone _ hb])
  · intro hmem s hs
    rw [Option.eq_none_iff_forall_ne_some]
    intro b hb
    exact hmem b ((h s b).mp hb ▸ hs)

/-- A part that every setting either gives or leaves as it is holds the value given last. -/
theorem read_foldl_eq {put : γ → α → γ} (read : γ → Option β)
    (hput : ∀ c s, read (put c s) = (pick s).or (read c)) (c : γ) (ss : List α) :
    read (ss.foldl put c) = (lastOf pick ss).or (read c) := by
  induction ss using List.reverseRecOn with
  | nil => rfl
  | append_singleton ss s ih =>
      rw [List.foldl_append, List.foldl_cons, List.foldl_nil, hput, ih, lastOf_concat,
        Option.or_assoc]

end LastOf

namespace Reordered

variable [DecidableEq κ] {kind : α → κ} {ss ts : List α}

/-- Two neighbours for different things may change places. -/
theorem swap {s t : α} (h : kind s ≠ kind t) (ss : List α) :
    Reordered kind (s :: t :: ss) (t :: s :: ss) := by
  intro k
  by_cases hs : kind s = k
  · have ht : kind t ≠ k := hs ▸ h.symm
    simp [hs, ht]
  · simp [List.filter_cons, hs]

theorem eq_nil (h : Reordered kind [] ts) : ts = [] := by
  rw [List.eq_nil_iff_forall_not_mem]
  intro t ht
  have hmem : t ∈ ts.filter fun s => kind s = kind t := List.mem_filter.mpr ⟨ht, by simp⟩
  rw [← h (kind t)] at hmem
  exact List.not_mem_nil hmem

/-- The first setting stands in the other order behind settings for other things only, and without
it the rest is reordered alike. -/
theorem exists_of_cons {s : α} (h : Reordered kind (s :: ss) ts) :
    ∃ before after, ts = before ++ s :: after ∧ (∀ t ∈ before, kind t ≠ kind s) ∧
      Reordered kind ss (before ++ after) := by
  have hfirst := h (kind s)
  rw [List.filter_cons_of_pos (by simp)] at hfirst
  obtain ⟨before, after, rfl, hbefore, -, -⟩ := List.filter_eq_cons_iff.mp hfirst.symm
  refine ⟨before, after, rfl, by simpa using hbefore, ?_⟩
  intro k
  have hk := h k
  rw [List.filter_append] at hk ⊢
  by_cases hs : kind s = k
  · have hnone : (before.filter fun t => kind t = k) = [] := by
      rw [List.filter_eq_nil_iff, ← hs]
      exact hbefore
    rw [List.filter_cons_of_pos (by simpa using hs), List.filter_cons_of_pos (by simpa using hs),
      hnone, List.nil_append] at hk
    rw [hnone, List.nil_append]
    exact List.tail_eq_of_cons_eq hk
  · rwa [List.filter_cons_of_neg (by simpa using hs),
      List.filter_cons_of_neg (by simpa using hs)] at hk

theorem perm (h : Reordered kind ss ts) : ss.Perm ts := by
  induction ss generalizing ts with
  | nil => rw [h.eq_nil]
  | cons s ss ih =>
      obtain ⟨before, after, rfl, -, hrest⟩ := h.exists_of_cons
      exact ((ih hrest).cons s).trans List.perm_middle.symm

/-- What settings make, one after another, where those for different things commute. -/
theorem foldl_eq (h : Reordered kind ss ts) {put : β → α → β}
    (hcomm : ∀ b s t, kind s ≠ kind t → put (put b s) t = put (put b t) s) (b : β) :
    ss.foldl put b = ts.foldl put b := by
  induction ss generalizing ts b with
  | nil => rw [h.eq_nil]
  | cons s ss ih =>
      obtain ⟨before, after, rfl, hbefore, hrest⟩ := h.exists_of_cons
      -- the setting moves to the front of what stands before it
      have hfront : ∀ b, before.foldl put (put b s) = put (before.foldl put b) s := by
        clear hrest h
        induction before with
        | nil => exact fun _ => rfl
        | cons t before hmove =>
            intro b
            obtain ⟨ht, hbefore⟩ := List.forall_mem_cons.mp hbefore
            rw [List.foldl_cons, List.foldl_cons, hcomm b s t ht.symm, hmove hbefore]
      rw [List.foldl_cons, ih hrest, List.foldl_append, List.foldl_append, List.foldl_cons, hfront]

end Reordered

/-! ## Settings that are checked -/

section Checked

variable {ε : Type} {set : β → α → Except ε β} {accepts : α → Prop} {put : β → α → β}
  {ss ts : List α}

/-- What every accepted setting preserves, a run of them preserves. -/
theorem invariant_of_foldlM (inv : β → Prop) {b c : β}
    (hstep : ∀ s ∈ ss, ∀ b c, set b s = .ok c → inv b → inv c)
    (hrun : ss.foldlM set b = .ok c) (hb : inv b) : inv c := by
  induction ss generalizing b with
  | nil =>
      obtain rfl := Except.ok.inj hrun
      exact hb
  | cons s ss ih =>
      obtain ⟨hs, hss⟩ := List.forall_mem_cons.mp hstep
      rw [List.foldlM_cons] at hrun
      cases hset : set b s with
      | error e =>
          rw [hset] at hrun
          exact nomatch hrun
      | ok d =>
          rw [hset] at hrun
          exact ih hss hrun (hs b d hset hb)

variable (hset : ∀ b s c, set b s = .ok c ↔ accepts s ∧ put b s = c)

include hset

/-- Settings that are checked one by one are accepted together when each of them is. -/
theorem foldlM_eq_ok_iff (b c : β) :
    ss.foldlM set b = .ok c ↔ (∀ s ∈ ss, accepts s) ∧ ss.foldl put b = c := by
  induction ss generalizing b with
  | nil => simp [pure, Except.pure]
  | cons s ss ih =>
      rw [List.foldlM_cons, List.forall_mem_cons, List.foldl_cons, and_assoc]
      cases hstep : set b s with
      | error e =>
          have hs : ¬accepts s := by
            intro hs
            exact nomatch hstep.symm.trans ((hset b s _).mpr ⟨hs, rfl⟩)
          simp [bind, Except.bind, hs]
      | ok d =>
          obtain ⟨hs, rfl⟩ := (hset b s d).mp hstep
          rw [and_iff_right hs, ← ih]
          rfl

theorem exists_foldlM_eq_ok_iff (b : β) :
    (∃ c, ss.foldlM set b = .ok c) ↔ ∀ s ∈ ss, accepts s := by
  simp only [foldlM_eq_ok_iff hset, exists_and_left, exists_eq', and_true]

theorem exists_foldlM_eq_error_iff (b : β) :
    (∃ e, ss.foldlM set b = .error e) ↔ ∃ s ∈ ss, ¬accepts s := by
  constructor
  · rintro ⟨e, he⟩
    by_contra hall
    push Not at hall
    obtain ⟨c, hc⟩ := (exists_foldlM_eq_ok_iff hset b).mpr hall
    exact nomatch he.symm.trans hc
  · rintro ⟨s, hs, hrefused⟩
    cases hrun : ss.foldlM set b with
    | error e => exact ⟨e, rfl⟩
    | ok c => exact absurd ((exists_foldlM_eq_ok_iff hset b).mp ⟨c, hrun⟩ s hs) hrefused

variable [DecidableEq κ] {kind : α → κ}

/-- Another order of settings for different things is refused alike and gives the same. -/
theorem Reordered.foldlM_congr (h : Reordered kind ss ts)
    (hcomm : ∀ b s t, kind s ≠ kind t → put (put b s) t = put (put b t) s) (b : β) :
    ((∃ e, ss.foldlM set b = .error e) ↔ ∃ e, ts.foldlM set b = .error e) ∧
      ∀ c, ss.foldlM set b = .ok c ↔ ts.foldlM set b = .ok c := by
  constructor
  · simp only [exists_foldlM_eq_error_iff hset, h.perm.mem_iff]
  · intro c
    simp only [foldlM_eq_ok_iff hset, h.perm.mem_iff, h.foldl_eq hcomm]

end Checked

end QueryAlgebra
