/-!
# Characters of YAML

The classes of characters on which the rules for YAML texts rest. Line breaks come in
several spellings; `unifyBreaks` leaves one spelling for all those that mean a plain new line,
and keeps the two separators of Unicode, which are breaks that stay in the text.
-/

namespace QueryAlgebra

namespace Yaml

/-- The character may occur in a text at all. -/
def isAllowed (c : Char) : Bool :=
  let n := c.toNat
  n == 0x09 || n == 0x0A || n == 0x0D || (0x20 ≤ n && n ≤ 0x7E) || n == 0x85 ||
    (0xA0 ≤ n && n ≤ 0xD7FF) || (0xE000 ≤ n && n ≤ 0xFFFD) || 0x10000 ≤ n

/-- One spelling for every plain new line: carriage return with line feed, either alone,
and the next-line character. -/
def unifyBreaks : List Char → List Char
  | '\r' :: '\n' :: rest => '\n' :: unifyBreaks rest
  | '\r' :: rest => '\n' :: unifyBreaks rest
  | c :: rest => (if c.toNat = 0x85 then '\n' else c) :: unifyBreaks rest
  | [] => []

/-- The mark that a text may start with, and also a line. -/
def byteOrderMark : Char := Char.ofNat 0xFEFF

/-- A line break, after `unifyBreaks`. -/
def isBreak (c : Char) : Bool :=
  c == '\n' || c.toNat == 0x2028 || c.toNat == 0x2029

/-- White space within a line. -/
def isBlank (c : Char) : Bool := c == ' ' || c == '\t'

/-- A character of names of anchors, handles and directives. -/
def isWord (c : Char) : Bool := c.isAlphanum || c == '_' || c == '-'

/-- The characters that open, close and separate flow collections. -/
def isFlowIndicator (c : Char) : Bool :=
  c == ',' || c == '[' || c == ']' || c == '{' || c == '}'

/-- No word goes on here: white space, a line break or the end of the text. -/
def endsWord : List Char → Bool
  | [] => true
  | c :: _ => isBlank c || isBreak c

/-- Nothing but white space and a comment is left of the line. -/
def isLineEnd (cs : List Char) : Bool :=
  match cs.dropWhile isBlank with
  | [] => true
  | c :: _ => c == '#'

/-- Three hyphens or three points that stand alone, which mark the start or the end of a
document at the beginning of a line. -/
def isDocumentMark (c : Char) (rest : List Char) : Bool :=
  match rest with
  | d :: e :: rest => (c == '-' || c == '.') && d == c && e == c && endsWord rest
  | _ => false

end Yaml

end QueryAlgebra
