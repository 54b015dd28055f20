import QueryAlgebra.Document
import QueryAlgebra.Proofs.Json.Numbers

/-!
# Literals of numbers

Whatever number is written, an integer or a finite float, its literal is a JSON number. Its
digits are the whole part of a number, and so is what remains of them when some are moved
behind the point.
-/

namespace QueryAlgebra

open Json

theorem Json.Whole.take {w : List Char} (h : Whole w) {k : Nat} (hk : 0 < k) :
    Whole (w.take k) := by
  obtain ⟨k, rfl⟩ := Nat.exists_eq_add_one.mpr hk
  cases h with
  | zero =>
      rw [List.take_succ_cons, List.take_nil]
      exact .zero
  | digits hd hd0 hrest =>
      rw [List.take_succ_cons]
      exact .digits hd hd0 fun c hc => hrest c (List.mem_of_mem_take hc)

/-- A sign in front of a number. -/
theorem number_sign {p : Prop} [Decidable p] {whole fraction exponent : List Char}
    (hwhole : Whole whole) (hfraction : Fraction fraction) (hexponent : Exponent exponent) :
    Number ((if p then ['-'] else []) ++ (whole ++ (fraction ++ exponent))) := by
  refine .parts ?_ hwhole hfraction hexponent
  split
  · exact Or.inr rfl
  · exact Or.inl rfl

namespace Decimal

theorem exists_positional (wholeFraction : Bool) (d : Decimal) :
    ∃ whole fraction, Whole whole ∧ Fraction fraction ∧
      d.positionalChars wholeFraction = whole ++ fraction := by
  have hwhole : Whole d.digitChars := whole_toDigits d.digits
  have hdigits : Digits d.digitChars := digits_toDigits d.digits
  unfold positionalChars
  split
  · have hpadded : Whole (if d.digits = 0 then d.digitChars
        else d.digitChars ++ List.replicate d.exponent.toNat '0') := by
      split
      · exact hwhole
      · next hne =>
        refine hwhole.append (mt (toDigits_eq_zero_iff _).mp hne) fun c hc => ?_
        rw [List.eq_of_mem_replicate hc]
        rfl
    cases wholeFraction with
    | true =>
        have hzero : Digits ['0'] := ⟨by simp, by simp⟩
        exact ⟨_, ['.', '0'], hpadded, .digits hzero, rfl⟩
    | false => exact ⟨_, [], hpadded, .none, (List.append_nil _).symm⟩
  · next hexponent =>
    dsimp only
    split
    · next hplaces =>
      have hafter : Digits (d.digitChars.drop (d.digitChars.length - d.exponent.natAbs)) := by
        refine ⟨?_, fun c hc => hdigits.2 c (List.mem_of_mem_drop hc)⟩
        rw [Ne, List.drop_eq_nil_iff]
        omega
      exact ⟨_, _, hwhole.take (by omega), .digits hafter, rfl⟩
    · have hafter : Digits
          (List.replicate (d.exponent.natAbs - d.digitChars.length) '0' ++ d.digitChars) := by
        refine ⟨by simp [hdigits.1], List.forall_mem_append.mpr ⟨fun c hc => ?_, hdigits.2⟩⟩
        rw [List.eq_of_mem_replicate hc]
        rfl
      exact ⟨['0'], _, .zero, .digits hafter, rfl⟩

theorem exists_scientific (d : Decimal) :
    ∃ whole fraction exponent, Whole whole ∧ Fraction fraction ∧ Exponent exponent ∧
      d.scientificChars = whole ++ (fraction ++ exponent) := by
  have hdigits : Digits d.digitChars := digits_toDigits d.digits
  have hfirst : ∀ {c : Char}, c.isDigit = true → Whole [c] := by
    intro c hc
    by_cases hzero : c = '0'
    · exact hzero ▸ .zero
    · exact .digits hc hzero (List.forall_mem_nil _)
  have hexponent : Exponent
      ('e' :: (if d.scientificExponent < 0 then '-' else '+') ::
        Nat.toDigits 10 d.scientificExponent.natAbs) := by
    have hafter := digits_toDigits d.scientificExponent.natAbs
    split
    · exact .digits (Or.inl rfl) (Or.inr (Or.inr rfl)) hafter
    · exact .digits (Or.inl rfl) (Or.inr (Or.inl rfl)) hafter
  unfold scientificChars
  match hchars : d.digitChars with
  | [] => exact absurd hchars hdigits.1
  | [c] =>
      rw [hchars] at hdigits
      exact ⟨[c], [], _, hfirst (hdigits.2 c List.mem_cons_self), .none, hexponent, rfl⟩
  | c :: c' :: cs =>
      rw [hchars] at hdigits
      obtain ⟨hc, hcs⟩ := List.forall_mem_cons.mp hdigits.2
      exact ⟨[c], '.' :: c' :: cs, _, hfirst hc, .digits ⟨by simp, hcs⟩, hexponent, rfl⟩

/-- A decimal is written as a number without a sign. -/
theorem exists_chars (layout : Layout) (d : Decimal) :
    ∃ whole fraction exponent, Whole whole ∧ Fraction fraction ∧ Exponent exponent ∧
      d.chars layout = whole ++ (fraction ++ exponent) := by
  unfold chars
  split
  · obtain ⟨whole, fraction, hwhole, hfraction, hchars⟩ := exists_positional layout.wholeFraction d
    exact ⟨whole, fraction, [], hwhole, hfraction, .none, by rw [hchars, List.append_nil]⟩
  · exact exists_scientific d

end Decimal

theorem WireNumber.number_integer (n : Int) : Number (integerChars n) := by
  have h := number_sign (p := n < 0) (whole_toDigits n.natAbs) .none .none
  rwa [List.append_nil, List.append_nil] at h

theorem Binary64.number_chars (layout : Decimal.Layout) {x : Binary64}
    (h : x.isFinite = true) : Number (x.chars layout) := by
  obtain ⟨negative, exponent, fraction, rfl⟩ := (isFinite_iff x).mp h
  obtain ⟨_, _, _, hwhole, hfraction, hexponent, hchars⟩ :=
    Decimal.exists_chars layout (Decimal.shortest layout.tie exponent fraction)
  rw [chars, hchars]
  exact number_sign hwhole hfraction hexponent

/-- The number has a literal. -/
def WireNumber.IsFinite : WireNumber → Prop
  | integer _ => True
  | float x => x.isFinite = true

theorem WireNumber.number_literal {n : WireNumber} (h : n.IsFinite) : Number n.literal.toList := by
  cases n with
  | integer n =>
      rw [literal, String.toList_ofList]
      exact number_integer n
  | float x =>
      rw [literal, String.toList_ofList]
      exact Binary64.number_chars layout h

end QueryAlgebra
