import QueryAlgebra.Binary64.Basic

/-!
# Shortest decimals

`shortest tie x` is the decimal with the fewest digits among those that round to the
finite number `x`, and among these the one nearest to `x`. The search is exact: with the
magnitude written as `significand * 2 ^ scale`, the reals that round to it form an
interval around it, given here in quarters of `2 ^ scale`, whose ends belong to it exactly
when the significand is even. Decimal grids are tried from the coarsest on. If a point of
a grid lies in the interval, so does one of the two grid points next to the magnitude, so
these two are the only candidates.
-/

namespace QueryAlgebra

/-- The decimal `digits * 10 ^ exponent`. -/
structure Decimal where
  digits : Nat
  exponent : Int
  deriving DecidableEq

namespace Decimal

/-- Which of two equally near candidates is taken. -/
inductive Tie where
  | toEven
  | up
  deriving DecidableEq

/-- The magnitudes that round to one number, in quarters of `2 ^ scale`. -/
structure Span where
  low : Nat
  middle : Nat
  high : Nat
  scale : Int
  closed : Bool
  deriving DecidableEq

namespace Span

/-- The span of a finite number. Below a power of two the next number is only half as far
away as above it, except where the subnormal numbers have the same distance. -/
def ofFinite (exponent : Fin 2047) (fraction : Fin Binary64.fractionCount) : Span :=
  let significand := Binary64.significand exponent fraction
  let narrow := fraction.val = 0 ∧ 1 < exponent.val
  { low := 4 * significand - (if narrow then 1 else 2)
    middle := 4 * significand
    high := 4 * significand + 2
    scale := Binary64.scale exponent
    closed := significand % 2 = 0 }

/-- The numerator of `2 ^ twos * 10 ^ tens`: a power with a negative exponent counts as
one. The denominator is the numerator for the opposite exponents. -/
def numerator (twos tens : Int) : Nat :=
  Nat.pow 2 twos.toNat * Nat.pow 10 tens.toNat

/-- The point `digits * 10 ^ exponent` lies in the span. -/
def contains (s : Span) (d : Decimal) : Bool :=
  let unit := numerator s.scale (-d.exponent)
  let point := d.digits * (4 * numerator (-s.scale) d.exponent)
  if s.closed then s.low * unit ≤ point && point ≤ s.high * unit
  else s.low * unit < point && point < s.high * unit

/-- The point of the grid of multiples of `10 ^ exponent` that is nearest to the middle
among those in the span, if there is one. -/
def nearest? (s : Span) (tie : Tie) (exponent : Int) : Option Decimal :=
  let middle := s.middle * numerator s.scale (-exponent)
  let step := 4 * numerator (-s.scale) exponent
  let below : Decimal := ⟨middle / step, exponent⟩
  let above : Decimal := ⟨middle / step + 1, exponent⟩
  let rest := 2 * (middle % step)
  let nearer :=
    if rest < step then below
    else if step < rest then above
    else match tie with
      | .toEven => if below.digits % 2 = 0 then below else above
      | .up => above
  match s.contains below, s.contains above with
  | true, true => some nearer
  | true, false => some below
  | false, true => some above
  | false, false => none

/-- Every finite magnitude is a multiple of `10 ^ (-1074)`. -/
def exact (s : Span) : Decimal :=
  ⟨s.middle / 4 * numerator (s.scale + 1074) 0 * Nat.pow 5 1074, -1074⟩

/-- The number of decimal digits before the point of the span's upper end. No grid that is
coarser than that many places has a point in the span, zero apart. -/
def wholeDigits (s : Span) : Nat :=
  (Nat.toDigits 10 (s.high * numerator s.scale 0 / (4 * numerator (-s.scale) 0))).length

end Span

/-- The exponents of the grids to try, from the given one downwards. -/
def gridExponents (top : Nat) : List Int :=
  (List.range (top + 1075)).map fun i : Nat => (top : Int) - i

/-- The shortest decimal that rounds to the magnitude of the given finite number. -/
def shortest (tie : Tie) (exponent : Fin 2047) (fraction : Fin Binary64.fractionCount) :
    Decimal :=
  let span := Span.ofFinite exponent fraction
  if span.middle = 0 then ⟨0, 0⟩
  else ((gridExponents span.wholeDigits).findSome? (span.nearest? tie)).getD span.exact

end Decimal

end QueryAlgebra
