import QueryAlgebra.Proofs.Wire.Equality
import QueryAlgebra.Value

/-!
# Integers without their form

A document has a single form for integers: it does not tell a signed number, an unsigned number
and a timestamp apart. `Value.canonical` forgets the same difference on the side of values, with
one number for every integer. Beyond this nothing is lost: `Value.equal_document` says that
finite values are sent as equal documents exactly when they are the same in this sense.
-/

namespace QueryAlgebra

namespace Numeric

/-- The integer that the number is, unless it is a float. -/
def integer? : Numeric → Option Int
  | signed n => some n.toInt
  | unsigned n => some n.toNat
  | float _ => none

/-- The number for an integer: unsigned as long as it is not negative. -/
def ofInteger (n : Int) : Numeric :=
  if n < 0 then signed (.ofInt n) else unsigned (.ofNat n.toNat)

/-- The integers that fit the signed or the unsigned form. -/
def Fits (n : Int) : Prop := Int64.minValue.toInt ≤ n ∧ n < UInt64.size

theorem fits_iff (n : Int) : Fits n ↔ -9223372036854775808 ≤ n ∧ n < 18446744073709551616 := by
  rw [Fits, Int64.toInt_minValue, UInt64.size]
  omega

theorem fits_of_integer? {x : Numeric} {n : Int} (h : x.integer? = some n) : Fits n := by
  rw [fits_iff]
  cases x with
  | signed m =>
      obtain rfl := Option.some.inj h
      have hmin := m.le_toInt
      have hmax := m.toInt_lt
      omega
  | unsigned m =>
      obtain rfl := Option.some.inj h
      have hmax := m.toNat_lt
      omega
  | float x => exact nomatch h

theorem integer?_ofInteger {n : Int} (h : Fits n) : (ofInteger n).integer? = some n := by
  rw [fits_iff] at h
  rw [ofInteger]
  split
  · next hneg =>
    rw [integer?, Int64.toInt_ofInt_of_le (by omega) (by omega)]
  · next hneg =>
    have hlt : n.toNat < UInt64.size := by rw [UInt64.size]; omega
    rw [integer?, UInt64.toNat_ofNat_of_lt' hlt, Int.toNat_of_nonneg (by omega)]

theorem document_of_integer? {x : Numeric} {n : Int} (h : x.integer? = some n) :
    x.document = .integer n := by
  cases x with
  | float x => exact nomatch h
  | _ => exact congrArg Document.integer (Option.some.inj h)

theorem same_iff_of_integer? {x : Numeric} {n : Int} (h : x.integer? = some n) (y : Numeric) :
    x.same y = true ↔ x = y := by
  cases x with
  | float x => exact nomatch h
  | _ => cases y <;> simp [same]

theorem same_ofInteger {m n : Int} (hm : Fits m) (hn : Fits n) :
    (ofInteger m).same (ofInteger n) = (m == n) := by
  have hleft := integer?_ofInteger hm
  have hright := integer?_ofInteger hn
  rw [Bool.eq_iff_iff, same_iff_of_integer? hleft, beq_iff_eq]
  constructor
  · intro h
    rw [h, hright] at hleft
    exact (Option.some.inj hleft).symm
  · exact congrArg ofInteger

end Numeric

namespace Value

/-- The integer that the value holds: a number that is not a float, or the milliseconds of a
timestamp. -/
def integer? : Value → Option Int
  | number n => n.integer?
  | timestamp t => some t.millis.toInt
  | _ => none

/-- The value with an integer reduced to what it is as an integer. -/
def canonical (v : Value) : Value :=
  match v.integer? with
  | some n => .number (.ofInteger n)
  | none => v

theorem canonical_of_integer? {v : Value} {n : Int} (h : v.integer? = some n) :
    v.canonical = .number (.ofInteger n) := by
  rw [canonical, h]

theorem canonical_of_integer?_eq_none {v : Value} (h : v.integer? = none) :
    v.canonical = v := by
  rw [canonical, h]

theorem fits_of_integer? {v : Value} {n : Int} (h : v.integer? = some n) :
    Numeric.Fits n := by
  cases v with
  | number x => exact Numeric.fits_of_integer? h
  | timestamp t => exact Numeric.fits_of_integer? (x := .signed t.millis) h
  | _ => exact nomatch h

theorem document_of_integer? {v : Value} {n : Int} (h : v.integer? = some n) :
    v.document = .integer n := by
  cases v with
  | number x => exact Numeric.document_of_integer? h
  | timestamp t => exact congrArg Document.integer (Option.some.inj h)
  | _ => exact nomatch h

theorem same_canonical_of_integer? {v w : Value} {m n : Int} (hv : v.integer? = some m)
    (hw : w.integer? = some n) : v.canonical.same w.canonical = (m == n) := by
  rw [canonical_of_integer? hv, canonical_of_integer? hw, same,
    Numeric.same_ofInteger (fits_of_integer? hv) (fits_of_integer? hw)]

/-- An integer is the same as integers only; `equal_integer_of_integer?_eq_none` says the same
of what is sent. -/
theorem same_ofInteger_of_integer?_eq_none {v : Value} (h : v.integer? = none) (n : Int) :
    (number (.ofInteger n)).same v = false ∧ v.same (number (.ofInteger n)) = false := by
  cases v with
  | number x =>
      cases x with
      | float x =>
          rw [Numeric.ofInteger]
          split <;> exact ⟨rfl, rfl⟩
      | _ => exact nomatch h
  | timestamp t => exact nomatch h
  | _ => exact ⟨rfl, rfl⟩

/-- A value that is not an integer, and that can be sent. -/
theorem cases_of_integer?_eq_none {v : Value} (h : v.integer? = none)
    (hfinite : v.isFinite = true) :
    (∃ s, v = text s ∧ v.document = .text s) ∨ (∃ b, v = bool b ∧ v.document = .bool b) ∨
      ∃ x, v = number (.float x) ∧ v.document = .number (.float x) := by
  cases v with
  | text s => exact .inl ⟨s, rfl, rfl⟩
  | bool b => exact .inr (.inl ⟨b, rfl, rfl⟩)
  | number x =>
      cases x with
      | float x => exact .inr (.inr ⟨x, rfl, if_pos hfinite⟩)
      | _ => exact nomatch h
  | timestamp t => exact nomatch h

open Document

theorem equal_integer_of_integer?_eq_none {v : Value} (h : v.integer? = none)
    (hfinite : v.isFinite = true) (n : Int) :
    equal (.integer n) v.document = false ∧ equal v.document (.integer n) = false := by
  obtain ⟨s, -, hv⟩ | ⟨b, -, hv⟩ | ⟨x, -, hv⟩ := cases_of_integer?_eq_none h hfinite <;>
    rw [hv] <;> exact ⟨rfl, rfl⟩

theorem equal_document_of_integer?_eq_none {v w : Value} (hv : v.integer? = none)
    (hw : w.integer? = none) (hvFinite : v.isFinite = true) (hwFinite : w.isFinite = true) :
    equal v.document w.document = v.same w := by
  obtain ⟨s, rfl, hvDocument⟩ | ⟨b, rfl, hvDocument⟩ | ⟨x, rfl, hvDocument⟩ :=
    cases_of_integer?_eq_none hv hvFinite <;>
  obtain ⟨t, rfl, hwDocument⟩ | ⟨c, rfl, hwDocument⟩ | ⟨y, rfl, hwDocument⟩ :=
    cases_of_integer?_eq_none hw hwFinite <;>
  rw [hvDocument, hwDocument] <;> rfl

/-- Finite values are sent as equal documents exactly when they are the same but for the form
of an integer. -/
theorem equal_document {v w : Value} (hv : v.isFinite = true) (hw : w.isFinite = true) :
    equal v.document w.document = v.canonical.same w.canonical := by
  cases hm : v.integer? with
  | some m =>
      cases hn : w.integer? with
      | some n =>
          rw [document_of_integer? hm, document_of_integer? hn,
            same_canonical_of_integer? hm hn]
          rfl
      | none =>
          rw [document_of_integer? hm, canonical_of_integer? hm,
            canonical_of_integer?_eq_none hn, (equal_integer_of_integer?_eq_none hn hw m).1,
            (same_ofInteger_of_integer?_eq_none hn m).1]
  | none =>
      cases hn : w.integer? with
      | some n =>
          rw [document_of_integer? hn, canonical_of_integer? hn,
            canonical_of_integer?_eq_none hm, (equal_integer_of_integer?_eq_none hm hv n).2,
            (same_ofInteger_of_integer?_eq_none hm n).2]
      | none =>
          rw [canonical_of_integer?_eq_none hm, canonical_of_integer?_eq_none hn,
            equal_document_of_integer?_eq_none hm hn hv hw]

end Value

end QueryAlgebra
