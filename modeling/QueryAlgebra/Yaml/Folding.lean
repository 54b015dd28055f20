import QueryAlgebra.Yaml.Characters

/-!
# Folding white space

In plain and quoted scalars white space is kept as long as it stays in one line. Around a
line break it is dropped, and the break itself becomes a single space; where more breaks
follow, these stay and the first one goes. The separators of Unicode always stay.
`Folded` is a text that is being read, with the white space at its end not yet settled.
-/

namespace QueryAlgebra

namespace Yaml

/-- White space whose meaning is open: blanks in one line, or breaks, the first of them
apart, because it folds; after an escaped break there is no first one. Sequences are in
reverse. -/
inductive Gap where
  | none
  | blanks (blanks : List Char)
  | breaks (first : Option Char) (later : List Char)
  deriving DecidableEq

namespace Gap

/-- One more blank or break. -/
def extend (gap : Gap) (c : Char) : Gap :=
  match gap with
  | none => if isBreak c then breaks (some c) [] else blanks [c]
  | blanks bs => if isBreak c then breaks (some c) [] else blanks (c :: bs)
  | breaks first later => if isBreak c then breaks first (c :: later) else breaks first later

/-- There is a line break in the gap. -/
def hasBreak : Gap → Bool
  | breaks .. => true
  | _ => false

/-- The text that the gap becomes between other characters, in reverse. -/
def reversed : Gap → List Char
  | none => []
  | blanks bs => bs
  | breaks (some '\n') [] => [' ']
  | breaks (some '\n') later => later
  | breaks first later => later ++ first.toList

end Gap

/-- A text with a gap at its end. The text is in reverse. -/
structure Folded where
  text : List Char := []
  gap : Gap := .none
  deriving DecidableEq

namespace Folded

/-- One more blank or break. -/
def space (f : Folded) (c : Char) : Folded := { f with gap := f.gap.extend c }

/-- The gap becomes part of the text. -/
def settle (f : Folded) : Folded := ⟨f.gap.reversed ++ f.text, .none⟩

/-- One more character of the text. -/
def push (f : Folded) (c : Char) : Folded := ⟨c :: (f.gap.reversed ++ f.text), .none⟩

/-- The text without the gap at its end. -/
def toString (f : Folded) : String := String.ofList f.text.reverse

end Folded

end Yaml

end QueryAlgebra
