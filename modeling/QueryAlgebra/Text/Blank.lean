/-!
# Blank text

A name is blank when it consists of white space only. White space is the Unicode
property of that name, kept here as a table of inclusive ranges of scalar values, so
that it can be read off without any other library.
-/

namespace QueryAlgebra

namespace Text

/-- The Unicode property `White_Space`, as inclusive ranges in increasing order. -/
def whiteSpaceRanges : List (Nat × Nat) :=
  [(0x09, 0x0D), (0x20, 0x20), (0x85, 0x85), (0xA0, 0xA0), (0x1680, 0x1680),
   (0x2000, 0x200A), (0x2028, 0x2029), (0x202F, 0x202F), (0x205F, 0x205F),
   (0x3000, 0x3000)]

/-- The character has the Unicode property `White_Space`. -/
def isWhiteSpace (c : Char) : Bool :=
  whiteSpaceRanges.any fun (low, high) => low ≤ c.toNat && c.toNat ≤ high

/-- Nothing of the text remains once its white space is taken away. -/
def isBlank (s : String) : Bool :=
  s.toList.all isWhiteSpace

theorem isBlank_eq_false_iff (s : String) :
    isBlank s = false ↔ ∃ c ∈ s.toList, isWhiteSpace c = false := by
  simp [isBlank]

end Text

end QueryAlgebra
