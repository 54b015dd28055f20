import QueryAlgebra.Decimal.Shortest

/-!
# Decimal layout

A `Layout` says how a number in the double format is written with the digits of its
shortest decimal: between which scientific exponents the number is written with a point
and otherwise with an exponent, whether a whole number keeps a fraction part, and which of
two equally near digit strings is taken. The two layouts in use are values of this
type and stand with the texts they belong to.
-/

namespace QueryAlgebra

namespace Decimal

/-- The decisions left open by the choice of the shortest decimal. The exponent they speak
of is the scientific one, with a single digit before the point. -/
structure Layout where
  /-- The numbers with these exponents are written with a point. -/
  positional : Int → Bool
  /-- A whole number is written with the fraction part `.0`. -/
  wholeFraction : Bool
  tie : Tie

/-- The digits of the decimal, most significant first. -/
def digitChars (d : Decimal) : List Char :=
  Nat.toDigits 10 d.digits

/-- The exponent of the decimal when a single digit stands before the point. -/
def scientificExponent (d : Decimal) : Int :=
  d.exponent + d.digitChars.length - 1

/-- The decimal written with a point, and no exponent. -/
def positionalChars (wholeFraction : Bool) (d : Decimal) : List Char :=
  let digits := d.digitChars
  if 0 ≤ d.exponent then
    let whole := if d.digits = 0 then digits
      else digits ++ List.replicate d.exponent.toNat '0'
    if wholeFraction then whole ++ ['.', '0'] else whole
  else
    let places := d.exponent.natAbs
    if places < digits.length then
      digits.take (digits.length - places) ++ '.' :: digits.drop (digits.length - places)
    else '0' :: '.' :: (List.replicate (places - digits.length) '0' ++ digits)

/-- The decimal written with one digit before the point and a signed exponent. -/
def scientificChars (d : Decimal) : List Char :=
  let mantissa := match d.digitChars with
    | [] => []
    | [digit] => [digit]
    | digit :: digits => digit :: '.' :: digits
  let e := d.scientificExponent
  mantissa ++ 'e' :: (if e < 0 then '-' else '+') :: Nat.toDigits 10 e.natAbs

/-- The decimal in the given layout. -/
def chars (layout : Layout) (d : Decimal) : List Char :=
  if layout.positional d.scientificExponent then d.positionalChars layout.wholeFraction
  else d.scientificChars

end Decimal

namespace Binary64

/-- A finite number in the given layout, and the usual names of the others. -/
def chars (layout : Decimal.Layout) : Binary64 → List Char
  | notANumber => ['N', 'a', 'N']
  | infinite negative => (if negative then ['-'] else []) ++ ['i', 'n', 'f']
  | finite negative exponent fraction =>
    (if negative then ['-'] else []) ++
      (Decimal.shortest layout.tie exponent fraction).chars layout

end Binary64

end QueryAlgebra
