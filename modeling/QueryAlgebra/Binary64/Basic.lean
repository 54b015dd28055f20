/-!
# Binary floating point numbers

`Binary64` is the double format of IEEE 754 as data: a not-a-number, two infinities, and
the finite numbers with their sign, biased exponent and fraction. Which not-a-number is
meant is not kept. A finite number has the magnitude `significand * 2 ^ scale`, which is
exact arithmetic on natural numbers and integers, so no machine float occurs anywhere.

`ofBits` and `toBits` are the interchange format.
-/

namespace QueryAlgebra

/-- The number of fractions, which have 52 bits. -/
abbrev Binary64.fractionCount : Nat := 0x10000000000000

/-- A number in the double format. The exponent of a finite number is the biased one, as
it stands in the interchange format; it is zero for zero and for the subnormal numbers. -/
inductive Binary64 where
  | notANumber
  | infinite (negative : Bool)
  | finite (negative : Bool) (exponent : Fin 2047) (fraction : Fin Binary64.fractionCount)
  deriving DecidableEq

namespace Binary64

/-- Neither infinite nor a not-a-number. -/
def isFinite : Binary64 → Bool
  | finite .. => true
  | _ => false

/-- The number with the given interchange bits. -/
def ofBits (bits : UInt64) : Binary64 :=
  let negative := 2048 * fractionCount ≤ bits.toNat
  let fraction := bits.toNat % fractionCount
  let exponent := bits.toNat / fractionCount % 2048
  if h : exponent < 2047 then
    finite negative ⟨exponent, h⟩ ⟨fraction, Nat.mod_lt _ (by decide)⟩
  else if fraction = 0 then infinite negative
  else notANumber

/-- The interchange bits of the number, with one fixed pattern for a not-a-number. -/
def toBits : Binary64 → UInt64
  | notANumber => 0x7FF8000000000000
  | infinite negative => .ofNat ((if negative then 4095 else 2047) * fractionCount)
  | finite negative exponent fraction =>
    .ofNat (((if negative then 2048 else 0) + exponent.val) * fractionCount + fraction.val)

/-- The integer part of a finite number's magnitude `significand * 2 ^ scale`: the
fraction with the hidden bit of the normal numbers put back. -/
def significand (exponent : Fin 2047) (fraction : Fin fractionCount) : Nat :=
  if exponent.val = 0 then fraction.val else fractionCount + fraction.val

/-- The power of two in a finite number's magnitude `significand * 2 ^ scale`. -/
def scale (exponent : Fin 2047) : Int :=
  (max exponent.val 1 : Nat) - 1075

/-- Zero of either sign. -/
def isZero : Binary64 → Bool
  | finite _ exponent fraction => exponent.val == 0 && fraction.val == 0
  | _ => false

/-- The sign bit, which a not-a-number does not have here. -/
def isNegative : Binary64 → Bool
  | notANumber => false
  | infinite negative => negative
  | finite negative .. => negative

/-- Equality as numbers: a not-a-number equals nothing, and the two zeros are equal. -/
def same (x y : Binary64) : Bool :=
  match x, y with
  | notANumber, _ => false
  | _, notANumber => false
  | x, y => (x.isZero && y.isZero) || x == y

/-- Not less than zero, as a comparison of numbers: the negative zero passes, and a
not-a-number does not. -/
def isNonnegative : Binary64 → Bool
  | notANumber => false
  | x => x.isZero || !x.isNegative

theorem same_self_iff (x : Binary64) : same x x = true ↔ x ≠ notANumber := by
  cases x <;> simp [same]

theorem isFinite_iff (x : Binary64) :
    x.isFinite = true ↔ ∃ n e f, x = finite n e f := by
  cases x <;> simp [isFinite]

end Binary64

end QueryAlgebra
