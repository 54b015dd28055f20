import Mathlib.Algebra.Order.Group.Int
import Mathlib.Tactic.NormNum
import QueryAlgebra.Timestamp

/-!
# Order and agreement of timestamps

Seconds and instants come to timestamps in two ways. `Timestamp.ofSeconds` takes the nearest word,
so it keeps the order everywhere. `Timestamp.ofInstant` reduces the milliseconds to a word,
`toInt_ofInstant`, and this is the right count exactly where the milliseconds have a word,
`Instant.Fits`. There it keeps the order and agrees with `ofSeconds`. Beyond it does neither: the
last instant that is a whole number of seconds becomes a timestamp before the epoch.

Words wrap throughout, as in a release build. With overflow checks the negation of a distance of
exactly `2 ^ 63` milliseconds, up to a multiple of `2 ^ 64`, panics; nothing else does.
-/

namespace QueryAlgebra

namespace Instant

/-- The whole milliseconds from the epoch, rounded toward it. -/
def millis (t : Instant) : Int := t.nanos.tdiv nanosPerMilli

/-- The milliseconds have a word. -/
def Fits (t : Instant) : Prop :=
  Int64.minValue.toInt ≤ t.millis ∧ t.millis ≤ Int64.maxValue.toInt

instance (t : Instant) : Decidable t.Fits :=
  inferInstanceAs (Decidable (_ ∧ _))

theorem fits_iff (t : Instant) :
    t.Fits ↔ -9223372036854775808 ≤ t.millis ∧ t.millis ≤ 9223372036854775807 := by
  rw [Fits, Int64.toInt_minValue, Int64.toInt_maxValue]
  norm_num

theorem millis_le_millis {s t : Instant} (h : s.nanos ≤ t.nanos) : s.millis ≤ t.millis :=
  Int.tdiv_le_tdiv (by decide) h

theorem millis_ofSeconds (n : Int) : (ofSeconds n).millis = n * 1000 := by
  have hnanos : n * nanosPerSecond = n * 1000 * nanosPerMilli := by
    rw [nanosPerSecond, nanosPerMilli, mul_assoc]
    rfl
  rw [millis, ofSeconds, hnanos, Int.mul_tdiv_cancel _ (by decide)]

/-- The milliseconds are those of the distance, with its sign. -/
theorem millis_eq_ite (t : Instant) :
    t.millis =
      if t.nanos < 0 then -((t.nanos.natAbs / nanosPerMilli : Nat) : Int)
      else (t.nanos.natAbs / nanosPerMilli : Nat) := by
  rw [millis, Int.natCast_ediv]
  split
  · next hbefore =>
    rw [Int.ofNat_natAbs_of_nonpos hbefore.le, ← Int.tdiv_eq_ediv_of_nonneg (by omega),
      Int.neg_tdiv, neg_neg]
  · next hafter =>
    rw [Int.natAbs_of_nonneg (by omega), Int.tdiv_eq_ediv_of_nonneg (by omega)]

end Instant

namespace Timestamp

/-! ## What the conversions give -/

/-- Seconds give the nearest word. -/
theorem toInt_ofSeconds (n : Int64) :
    (ofSeconds n).millis.toInt =
      max Int64.minValue.toInt (min (n.toInt * 1000) Int64.maxValue.toInt) := by
  rw [ofSeconds, Int64.ofIntClamp]
  split
  · next hmin =>
    split
    · next hmax => rw [Int64.toInt_ofIntLE, min_eq_left hmax, max_eq_right hmin]
    · next hmax =>
      rw [min_eq_right (by omega), max_eq_right (by decide)]
  · next hmin =>
    rw [max_eq_left ((min_le_left _ _).trans (by omega))]

/-- An instant gives its milliseconds reduced to a word. -/
theorem toInt_ofInstant (t : Instant) :
    (ofInstant t).millis.toInt = t.millis.bmod Int64.size := by
  rw [ofInstant, Instant.millis_eq_ite]
  dsimp only
  split
  · -- the distance is reduced before it is negated
    rw [Int64.toInt_neg, Int64.toInt_ofNat']
    exact Int.bmod_neg_bmod
  · exact Int64.toInt_ofNat'

/-- The count of an instant is right exactly where it has a word. -/
theorem toInt_ofInstant_eq_iff (t : Instant) :
    (ofInstant t).millis.toInt = t.millis ↔ t.Fits := by
  constructor
  · intro h
    rw [Instant.Fits, ← h]
    exact ⟨Int64.minValue_le_toInt _, Int64.toInt_le _⟩
  · intro h
    rw [Instant.fits_iff] at h
    rw [toInt_ofInstant]
    exact Int.bmod_eq_of_le (by norm_num [Int64.size]; omega) (by norm_num [Int64.size]; omega)

/-! ## Order -/

theorem ofSeconds_le_ofSeconds {m n : Int64} (h : m ≤ n) : ofSeconds m ≤ ofSeconds n := by
  rw [Int64.le_iff_toInt_le] at h
  rw [le_def, toInt_ofSeconds, toInt_ofSeconds]
  omega

theorem ofInstant_le_ofInstant {s t : Instant} (h : s.nanos ≤ t.nanos) (hs : s.Fits)
    (ht : t.Fits) : ofInstant s ≤ ofInstant t := by
  rw [le_def, (toInt_ofInstant_eq_iff s).mpr hs, (toInt_ofInstant_eq_iff t).mpr ht]
  exact Instant.millis_le_millis h

/-! ## Agreement -/

theorem eq_iff_toInt (s t : Timestamp) : s = t ↔ s.millis.toInt = t.millis.toInt := by
  cases s
  cases t
  rw [Timestamp.mk.injEq, Int64.toInt_inj]

theorem ofInstant_ofSeconds_of_fits {n : Int64} (h : (Instant.ofSeconds n.toInt).Fits) :
    ofInstant (.ofSeconds n.toInt) = ofSeconds n := by
  have hmillis := Instant.millis_ofSeconds n.toInt
  rw [eq_iff_toInt, (toInt_ofInstant_eq_iff _).mpr h, toInt_ofSeconds, hmillis]
  rw [Instant.Fits, hmillis] at h
  rw [min_eq_left h.2, max_eq_right h.1]

/-- After the epoch they agree nowhere else: the largest word is odd, and seconds have an even
number of milliseconds. -/
theorem fits_of_ofInstant_ofSeconds {n : Int64} (hn : 0 ≤ n.toInt)
    (h : ofInstant (.ofSeconds n.toInt) = ofSeconds n) : (Instant.ofSeconds n.toInt).Fits := by
  have hmillis := Instant.millis_ofSeconds n.toInt
  rw [eq_iff_toInt, toInt_ofInstant, toInt_ofSeconds, hmillis] at h
  rw [Instant.Fits, hmillis]
  by_contra hbeyond
  have hmin : Int64.minValue.toInt ≤ n.toInt * 1000 := by
    have hneg : Int64.minValue.toInt ≤ 0 := by decide
    omega
  have hmax : Int64.maxValue.toInt ≤ n.toInt * 1000 := by
    by_contra hle
    exact hbeyond ⟨hmin, by omega⟩
  have hlast : Int64.maxValue.toInt = 9223372036854775807 := by decide
  have hpos : Int64.minValue.toInt ≤ Int64.maxValue.toInt := by decide
  rw [min_eq_right hmax, max_eq_right hpos, hlast, Int64.size, Int.bmod_def] at h
  split at h <;> omega

/-- The order of seconds is kept everywhere, and that of instants as far as their milliseconds have
words, which is where their count is right. There seconds agree with the instants that they are,
and after the epoch nowhere else. What an instant gives in any case is its milliseconds reduced to
a word.

This is said of words that wrap, as in a release build. A build with overflow checks agrees except
that it panics at exactly `2 ^ 63` milliseconds before the epoch, which still has a word, and at a
multiple of `2 ^ 64` before that, since the negation of the distance overflows there. -/
theorem conversions_of_fits (m n : Int64) (s t : Instant) :
    (m ≤ n → ofSeconds m ≤ ofSeconds n) ∧
      (s.nanos ≤ t.nanos → s.Fits → t.Fits → ofInstant s ≤ ofInstant t) ∧
      ((Instant.ofSeconds n.toInt).Fits → ofInstant (.ofSeconds n.toInt) = ofSeconds n) ∧
      (0 ≤ n.toInt → ofInstant (.ofSeconds n.toInt) = ofSeconds n →
        (Instant.ofSeconds n.toInt).Fits) ∧
      (ofInstant t).millis.toInt = t.millis.bmod Int64.size ∧
      ((ofInstant t).millis.toInt = t.millis ↔ t.Fits) :=
  ⟨ofSeconds_le_ofSeconds, ofInstant_le_ofInstant, ofInstant_ofSeconds_of_fits,
    fits_of_ofInstant_ofSeconds, toInt_ofInstant t, toInt_ofInstant_eq_iff t⟩

/-- A moment before the epoch and the last one whose milliseconds have a word, and the numbers of
seconds on both sides of the end. -/
theorem conversions_of_fits_last_word :
    Instant.Fits ⟨-1⟩ ∧ Instant.Fits ⟨9223372036854775807999999⟩ ∧
      ofInstant ⟨-1⟩ ≤ ofInstant ⟨9223372036854775807999999⟩ ∧
      ofInstant ⟨9223372036854775807999999⟩ = ⟨Int64.maxValue⟩ ∧
      Instant.Fits (.ofSeconds (9223372036854775 : Int64).toInt) ∧
      ofInstant (.ofSeconds (9223372036854775 : Int64).toInt) = ofSeconds 9223372036854775 ∧
      ofInstant (.ofSeconds (9223372036854776 : Int64).toInt) ≠ ofSeconds 9223372036854776 ∧
      (9223372036854775 : Int64) ≤ 9223372036854776 ∧
      ofSeconds 9223372036854775 ≤ ofSeconds 9223372036854776 := by
  obtain ⟨-, hinstants, hagree, -⟩ := conversions_of_fits 0 9223372036854775 ⟨-1⟩
    ⟨9223372036854775807999999⟩
  obtain ⟨hseconds, -, -, hbeyond, -⟩ := conversions_of_fits 9223372036854775 9223372036854776
    ⟨-1⟩ ⟨9223372036854775807999999⟩
  have hbefore : Instant.Fits ⟨-1⟩ := by decide
  have hlast : Instant.Fits ⟨9223372036854775807999999⟩ := by decide
  have hfits : Instant.Fits (.ofSeconds (9223372036854775 : Int64).toInt) := by decide
  have hnot : ¬Instant.Fits (.ofSeconds (9223372036854776 : Int64).toInt) := by decide
  have hle : (9223372036854775 : Int64) ≤ 9223372036854776 := by decide
  exact ⟨hbefore, hlast, hinstants (by decide) hbefore hlast, by decide, hfits,
    hagree hfits, fun h => hnot (hbeyond (by decide) h), hle, hseconds hle⟩

/-- Beyond the words neither holds: the last instant that is a whole number of seconds becomes a
timestamp before the epoch, while the same seconds give the last timestamp. -/
theorem order_lost_beyond_words :
    (Instant.ofSeconds 0).nanos ≤ (Instant.ofSeconds Int64.maxValue.toInt).nanos ∧
      ofInstant (.ofSeconds 0) = ⟨0⟩ ∧
      ofInstant (.ofSeconds Int64.maxValue.toInt) = ⟨-1000⟩ ∧
      ofSeconds Int64.maxValue = ⟨Int64.maxValue⟩ ∧
      ¬ofInstant (.ofSeconds 0) ≤ ofInstant (.ofSeconds Int64.maxValue.toInt) ∧
      ofInstant (.ofSeconds Int64.maxValue.toInt) ≠ ofSeconds Int64.maxValue := by
  decide

end Timestamp

end QueryAlgebra
