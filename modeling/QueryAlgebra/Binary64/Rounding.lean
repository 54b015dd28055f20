import QueryAlgebra.Binary64.Basic

/-!
# Rounding into the double format

`ofNat` and `ofInt` give the nearest number, ties going to the even significand, of a
natural number or an integer below `2 ^ 1024`. `widen` reads the single format, whose
numbers are all numbers of the double format.
-/

namespace QueryAlgebra

namespace Binary64

/-- The integer nearest to `n / d`, ties going to the even one. -/
def roundDiv (n d : Nat) : Nat :=
  let quotient := n / d
  let rest := 2 * (n % d)
  if rest < d then quotient
  else if rest = d then quotient + quotient % 2
  else quotient + 1

/-- The number `significand * 2 ^ power` for a significand of at most 53 bits; infinite
when the power is too large. -/
def ofNormal (negative : Bool) (significand : Nat) (power : Nat) : Binary64 :=
  let bits := Nat.log2 significand
  let fraction := significand <<< (52 - bits) % fractionCount
  if h : 1023 + bits + power < 2047 then
    finite negative ⟨1023 + bits + power, h⟩ ⟨fraction, Nat.mod_lt _ (by decide)⟩
  else infinite negative

/-- The magnitude `n`, with a sign, rounded to the nearest number. -/
def ofMagnitude (negative : Bool) (n : Nat) : Binary64 :=
  if n = 0 then finite negative 0 0
  else
    let excess := Nat.log2 n - 52
    ofNormal negative (roundDiv n (1 <<< excess)) excess

/-- The nearest number to an integer. -/
def ofInt (n : Int) : Binary64 :=
  ofMagnitude (n < 0) n.natAbs

/-- The number whose single-format interchange bits are given. Subnormal numbers of the
single format are normal in the double format. -/
def widen (bits : UInt32) : Binary64 :=
  let negative := 0x80000000 ≤ bits.toNat
  let fraction := bits.toNat % 0x800000
  let exponent := bits.toNat / 0x800000 % 256
  if exponent = 255 then
    if fraction = 0 then infinite negative else notANumber
  else if exponent = 0 then
    if fraction = 0 then finite negative 0 0
    else
      let top := Nat.log2 fraction
      finite negative (Fin.ofNat _ (top + 874))
        (Fin.ofNat _ (fraction <<< (52 - top)))
  else
    finite negative (Fin.ofNat _ (exponent + 896)) (Fin.ofNat _ (fraction <<< 29))

end Binary64

end QueryAlgebra
