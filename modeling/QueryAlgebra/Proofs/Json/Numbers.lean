import Mathlib.Tactic.Common
import QueryAlgebra.Json.Lexer

/-!
# The grammar of JSON numbers

`Json.Number` is the grammar of number literals, part by part, and `isNumberLiteral_iff` says
that the lexer accepts these and no others. The lexer takes each part off the front of what is
left. For every part there is one lemma that finds it in what was taken and one that takes it
where it stands.

The decimal digits of a natural number begin with a zero only when they are `0`, so they are a
number themselves (`number_toDigits`).
-/

namespace QueryAlgebra

namespace Json

/-- At least one digit. -/
def Digits (w : List Char) : Prop := w ≠ [] ∧ ∀ c ∈ w, c.isDigit = true

/-- The whole part of a number, which has no leading zero. -/
inductive Whole : List Char → Prop
  | zero : Whole ['0']
  | digits {d : Char} {ds : List Char} :
      d.isDigit = true → d ≠ '0' → (∀ c ∈ ds, c.isDigit = true) → Whole (d :: ds)

inductive Fraction : List Char → Prop
  | none : Fraction []
  | digits {ds : List Char} : Digits ds → Fraction ('.' :: ds)

inductive Exponent : List Char → Prop
  | none : Exponent []
  | digits {e : Char} {sign ds : List Char} :
      e = 'e' ∨ e = 'E' → sign = [] ∨ sign = ['+'] ∨ sign = ['-'] → Digits ds →
        Exponent (e :: (sign ++ ds))

/-- A number: a minus sign or none, a whole part, and a fraction and an exponent or none. -/
inductive Number : List Char → Prop
  | parts {sign whole fraction exponent : List Char} :
      sign = [] ∨ sign = ['-'] → Whole whole → Fraction fraction → Exponent exponent →
        Number (sign ++ (whole ++ (fraction ++ exponent)))

theorem ne_of_isDigit {c d : Char} (hc : c.isDigit = true) (hd : d.isDigit = false) :
    c ≠ d := by
  rintro rfl
  rw [hc] at hd
  exact nomatch hd

theorem Whole.digits_all {w : List Char} (h : Whole w) : Digits w := by
  cases h with
  | zero => exact ⟨by simp, by simp⟩
  | digits hd _ hds => exact ⟨by simp, List.forall_mem_cons.mpr ⟨hd, hds⟩⟩

section Ends

/-- No digit goes on here. -/
def EndsDigits (w : List Char) : Prop := ∀ c ∈ w.head?, c.isDigit = false

theorem dropWhile_digits {ds rest : List Char} (hds : ∀ c ∈ ds, c.isDigit = true)
    (hrest : EndsDigits rest) : (ds ++ rest).dropWhile Char.isDigit = rest := by
  rw [List.dropWhile_append_of_pos hds]
  cases rest with
  | nil => rfl
  | cons c rest => exact List.dropWhile_cons_of_neg (by simp [hrest c rfl])

theorem exists_digits (w : List Char) :
    ∃ ds, (∀ c ∈ ds, c.isDigit = true) ∧ w = ds ++ w.dropWhile Char.isDigit := by
  refine ⟨w.takeWhile Char.isDigit, ?_, List.takeWhile_append_dropWhile.symm⟩
  exact List.all_eq_true.mp List.all_takeWhile

theorem endsDigits_of_exponent {w : List Char} (h : Exponent w) : EndsDigits w := by
  cases h with
  | none => simp [EndsDigits]
  | digits he => rcases he with rfl | rfl <;> simp [EndsDigits]

theorem endsDigits_fraction_append {w rest : List Char} (h : Fraction w)
    (hrest : EndsDigits rest) : EndsDigits (w ++ rest) := by
  cases h with
  | none => exact hrest
  | digits => simp [EndsDigits]

end Ends

theorem exists_sign (w : List Char) :
    ∃ sign, (sign = [] ∨ sign = ['-']) ∧ w = sign ++ afterSign w := by
  fun_cases afterSign w with
  | case1 rest => exact ⟨['-'], Or.inr rfl, rfl⟩
  | case2 => exact ⟨[], Or.inl rfl, rfl⟩

theorem afterSign_append {sign : List Char} (hsign : sign = [] ∨ sign = ['-']) {c : Char}
    (hc : c.isDigit = true) (rest : List Char) : afterSign (sign ++ c :: rest) = c :: rest := by
  rcases hsign with rfl | rfl
  · have hne : c ≠ '-' := ne_of_isDigit hc rfl
    rw [List.nil_append, afterSign]
    simpa using hne
  · rfl

theorem exists_whole {w rest : List Char} (h : afterWhole? w = some rest) :
    ∃ whole, Whole whole ∧ w = whole ++ rest := by
  fun_cases afterWhole? w with
  | case1 after =>
      obtain rfl := Option.some.inj h
      exact ⟨['0'], .zero, rfl⟩
  | case2 c after hne hdigit =>
      rw [afterWhole?, if_pos hdigit, Option.some.injEq] at h
      · obtain ⟨ds, hds, hafter⟩ := exists_digits after
        refine ⟨c :: ds, .digits hdigit (fun hc => hne hc) hds, ?_⟩
        rw [List.cons_append, ← h, ← hafter]
      · exact hne
  | case3 c after hne hdigit =>
      rw [afterWhole?, if_neg hdigit] at h
      · exact nomatch h
      · exact hne
  | case4 => exact nomatch h

theorem afterWhole?_append {whole rest : List Char} (h : Whole whole)
    (hrest : EndsDigits rest) : afterWhole? (whole ++ rest) = some rest := by
  cases h with
  | zero => rfl
  | digits hd hne hds =>
      rw [List.cons_append, afterWhole?, if_pos hd, dropWhile_digits hds hrest]
      simpa using hne

theorem exists_fraction (w : List Char) :
    ∃ fraction, Fraction fraction ∧ w = fraction ++ afterFraction w := by
  fun_cases afterFraction w with
  | case1 c rest hc =>
      obtain ⟨ds, hds, hrest⟩ := exists_digits rest
      refine ⟨'.' :: c :: ds, .digits ⟨by simp, List.forall_mem_cons.mpr ⟨hc, hds⟩⟩, ?_⟩
      rw [List.cons_append, List.cons_append, ← hrest]
  | case2 c rest hc => exact ⟨[], .none, rfl⟩
  | case3 => exact ⟨[], .none, rfl⟩

theorem afterFraction_append {fraction exponent : List Char} (hfraction : Fraction fraction)
    (hexponent : Exponent exponent) : afterFraction (fraction ++ exponent) = exponent := by
  cases hfraction with
  | none =>
      rw [List.nil_append, afterFraction]
      rintro c rest rfl
      generalize hw : '.' :: c :: rest = w at hexponent
      cases hexponent with
      | none => exact nomatch hw
      | digits he =>
          obtain ⟨rfl, -⟩ := List.cons.inj hw
          exact absurd he (by decide)
  | @digits ds hds =>
      obtain ⟨c, rest, rfl⟩ := List.exists_cons_of_ne_nil hds.1
      obtain ⟨hc, hrest⟩ := List.forall_mem_cons.mp hds.2
      rw [List.cons_append, List.cons_append, afterFraction, if_pos hc,
        dropWhile_digits hrest (endsDigits_of_exponent hexponent)]

theorem exists_exponentSign (w : List Char) :
    ∃ sign, (sign = [] ∨ sign = ['+'] ∨ sign = ['-']) ∧ w = sign ++ afterExponentSign w := by
  fun_cases afterExponentSign w with
  | case1 rest => exact ⟨['+'], by simp⟩
  | case2 =>
      obtain ⟨sign, hsign, hw⟩ := exists_sign w
      exact ⟨sign, by tauto, hw⟩

theorem afterExponentSign_append {sign : List Char}
    (hsign : sign = [] ∨ sign = ['+'] ∨ sign = ['-']) {c : Char} (hc : c.isDigit = true)
    (rest : List Char) : afterExponentSign (sign ++ c :: rest) = c :: rest := by
  rcases hsign with rfl | rfl | rfl
  · have hne : c ≠ '+' := ne_of_isDigit hc rfl
    rw [List.nil_append, afterExponentSign]
    · exact afterSign_append (Or.inl rfl) hc rest
    · simpa using hne
  · rfl
  · rfl

theorem isExponent_iff (w : List Char) : isExponent w = true ↔ Exponent w := by
  have hdigits : ∀ ds : List Char, (!ds.isEmpty && ds.all Char.isDigit) = true ↔ Digits ds := by
    intro ds
    simp [Digits]
  constructor
  · intro h
    cases w with
    | nil => exact .none
    | cons e rest =>
        obtain ⟨sign, hsign, hrest⟩ := exists_exponentSign rest
        rw [isExponent, Bool.and_eq_true, hdigits] at h
        rw [hrest]
        exact .digits (by simpa using h.1) hsign h.2
  · intro h
    cases h with
    | none => rfl
    | @digits e sign ds he hsign hds =>
        have hstarts : afterExponentSign (sign ++ ds) = ds := by
          obtain ⟨d, rest, rfl⟩ := List.exists_cons_of_ne_nil hds.1
          exact afterExponentSign_append hsign (hds.2 d List.mem_cons_self) rest
        rw [isExponent, hstarts, Bool.and_eq_true, hdigits]
        exact ⟨by simpa using he, hds⟩

theorem isNumberLiteral_iff (w : List Char) : isNumberLiteral w = true ↔ Number w := by
  rw [isNumberLiteral, Option.any_eq_true]
  constructor
  · rintro ⟨rest, hrest, hexponent⟩
    obtain ⟨sign, hsign, hw⟩ := exists_sign w
    obtain ⟨whole, hwhole, hafter⟩ := exists_whole hrest
    obtain ⟨fraction, hfraction, hrest⟩ := exists_fraction rest
    rw [hw, hafter, hrest]
    exact .parts hsign hwhole hfraction ((isExponent_iff _).mp hexponent)
  · intro h
    cases h with
    | @parts sign whole fraction exponent hsign hwhole hfraction hexponent =>
        have hends : EndsDigits (fraction ++ exponent) :=
          endsDigits_fraction_append hfraction (endsDigits_of_exponent hexponent)
        have hstarts : afterSign (sign ++ (whole ++ (fraction ++ exponent))) =
            whole ++ (fraction ++ exponent) := by
          obtain ⟨d, ds, rfl⟩ := List.exists_cons_of_ne_nil hwhole.digits_all.1
          exact afterSign_append hsign (hwhole.digits_all.2 d List.mem_cons_self) _
        refine ⟨fraction ++ exponent, ?_, ?_⟩
        · rw [hstarts]
          exact afterWhole?_append hwhole hends
        · rw [afterFraction_append hfraction hexponent]
          exact (isExponent_iff _).mpr hexponent

/-! ## Natural numbers -/

theorem digits_toDigits (n : Nat) : Digits (Nat.toDigits 10 n) :=
  ⟨Nat.toDigits_ne_nil, fun _ hc => Nat.isDigit_of_mem_toDigits (by decide) (by decide) hc⟩

theorem Whole.append {w ds : List Char} (h : Whole w) (hne : w ≠ ['0'])
    (hds : ∀ c ∈ ds, c.isDigit = true) : Whole (w ++ ds) := by
  cases h with
  | zero => exact absurd rfl hne
  | digits hd hd0 hrest => exact .digits hd hd0 (List.forall_mem_append.mpr ⟨hrest, hds⟩)

theorem toDigits_eq_zero_iff (n : Nat) : Nat.toDigits 10 n = ['0'] ↔ n = 0 := by
  constructor
  · intro h
    have hvalue := congrArg (Nat.ofDigitChars 10 · 0) h
    rw [Nat.ofDigitChars_ten_toDigits] at hvalue
    exact hvalue
  · rintro rfl
    exact Nat.toDigits_zero 10

theorem whole_toDigits (n : Nat) : Whole (Nat.toDigits 10 n) := by
  induction n using Nat.strongRecOn with
  | ind n ih =>
      by_cases hsmall : n < 10
      · rw [Nat.toDigits_of_lt_base hsmall]
        by_cases hzero : n = 0
        · subst hzero
          exact .zero
        · have hdigit : n.digitChar.isDigit = true := by simp [hsmall]
          exact .digits hdigit (by simpa using hzero) (List.forall_mem_nil _)
      · have hle : 10 ≤ n := Nat.le_of_not_lt hsmall
        have hne : Nat.toDigits 10 (n / 10) ≠ ['0'] := by
          rw [Ne, toDigits_eq_zero_iff]
          omega
        have hlast : (Nat.digitChar (n % 10)).isDigit = true := by
          rw [Nat.isDigit_digitChar]
          simpa using Nat.mod_lt n (by decide)
        rw [Nat.toDigits_of_base_le (by decide) hle]
        exact (ih (n / 10) (by omega)).append hne (List.forall_mem_singleton.mpr hlast)

theorem number_toDigits (n : Nat) : Number (Nat.toDigits 10 n) := by
  have h := Number.parts (Or.inl rfl) (whole_toDigits n) .none .none
  rwa [List.append_nil, List.append_nil, List.nil_append] at h

end Json

end QueryAlgebra
