import QueryAlgebra.Json.Token

/-!
# Reading JSON tokens

`Lexer.run?` cuts a text into tokens. It takes one character at a time, so that what it
does to two texts in a row is what it does to the first and then to the second. The
grammar is the strict one: white space is the space, the tab and the two line ends, words
are `null`, `true`, `false` and number literals without leading zeros, and control
characters do not occur in strings.

A string may be written with escapes for single UTF-16 code units. Two that form a
surrogate pair are one character; a surrogate without its partner has no character, and
the string it occurs in is then read as `none`. Whether that is an error depends on the use
made of the string, so it is left to the reader of the tokens.
-/

namespace QueryAlgebra

namespace Json

/-- What follows the sign of a number, if it has one. -/
def afterSign : List Char → List Char
  | '-' :: rest => rest
  | rest => rest

/-- What follows the whole part of a number: a zero, or digits that begin with another one. -/
def afterWhole? : List Char → Option (List Char)
  | '0' :: rest => some rest
  | c :: rest => if c.isDigit then some (rest.dropWhile Char.isDigit) else none
  | [] => none

/-- What follows the fraction of a number, if it has one. -/
def afterFraction : List Char → List Char
  | '.' :: c :: rest => if c.isDigit then rest.dropWhile Char.isDigit else '.' :: c :: rest
  | rest => rest

/-- What follows the sign of an exponent, if it has one. -/
def afterExponentSign : List Char → List Char
  | '+' :: rest => rest
  | rest => afterSign rest

/-- An exponent with its sign and at least one digit, or nothing. -/
def isExponent : List Char → Bool
  | [] => true
  | e :: rest =>
    let digits := afterExponentSign rest
    (e == 'e' || e == 'E') && (!digits.isEmpty && digits.all Char.isDigit)

/-- The grammar of number literals: sign, whole part, fraction and exponent. -/
def isNumberLiteral (word : List Char) : Bool :=
  (afterWhole? (afterSign word)).any fun rest => isExponent (afterFraction rest)

/-- A piece of a string: a character that stands for itself or was escaped by name, or a
UTF-16 code unit given by its number. -/
inductive Piece where
  | char (c : Char)
  | unit (n : Nat)
  deriving DecidableEq

/-- The code unit opens a surrogate pair. -/
def isLeading (n : Nat) : Bool := 0xD800 ≤ n && n < 0xDC00

/-- The code unit closes a surrogate pair. -/
def isTrailing (n : Nat) : Bool := 0xDC00 ≤ n && n < 0xE000

/-- The string that the pieces make, unless a surrogate stands alone. -/
def joinPieces : List Piece → Option (List Char)
  | [] => some []
  | .char c :: rest => (joinPieces rest).map (c :: ·)
  | .unit n :: .unit m :: rest =>
    if isLeading n then
      if isTrailing m then
        (joinPieces rest).map
          (Char.ofNat (0x10000 + (n - 0xD800) * 0x400 + (m - 0xDC00)) :: ·)
      else none
    else if isTrailing n then none
    else (joinPieces (.unit m :: rest)).map (Char.ofNat n :: ·)
  | .unit n :: rest =>
    if isLeading n || isTrailing n then none
    else (joinPieces rest).map (Char.ofNat n :: ·)

/-- The character that a backslash and this letter stand for. -/
def unescape? (c : Char) : Option Char :=
  match c with
  | '"' => some '"'
  | '\\' => some '\\'
  | '/' => some '/'
  | 'b' => some '\x08'
  | 'f' => some '\x0c'
  | 'n' => some '\n'
  | 'r' => some '\r'
  | 't' => some '\t'
  | _ => none

/-- A text token as it is read: `none` marks a string with a lone surrogate. -/
abbrev ReadToken := Token (Option String)

/-- The token that a word stands for. -/
def Token.ofWord? (word : List Char) : Option ReadToken :=
  if word = ['n', 'u', 'l', 'l'] then some .null
  else if word = ['t', 'r', 'u', 'e'] then some (.bool true)
  else if word = ['f', 'a', 'l', 's', 'e'] then some (.bool false)
  else if isNumberLiteral word then some (.number (String.ofList word))
  else none

/-- The character can occur in a word. -/
def isWordChar (c : Char) : Bool :=
  c.isAlphanum || c == '+' || c == '-' || c == '.'

/-- Where in a token the lexer stands. Words and pieces are kept in reverse. -/
inductive Lexer.Mode where
  | between
  | word (letters : List Char)
  | string (pieces : List Piece)
  | escape (pieces : List Piece)
  | codeUnit (pieces : List Piece) (missing value : Nat)
  deriving DecidableEq

/-- The state of reading tokens: the place in the current token, and the finished tokens in
reverse. -/
structure Lexer where
  mode : Lexer.Mode
  tokens : List ReadToken
  deriving DecidableEq

namespace Lexer

def start : Lexer := ⟨.between, []⟩

/-- A finished token. -/
def push (s : Lexer) (t : ReadToken) : Lexer :=
  ⟨.between, t :: s.tokens⟩

/-- The first character of a token, or white space. -/
def open? (s : Lexer) (c : Char) : Option Lexer :=
  match c with
  | ' ' | '\t' | '\n' | '\r' => some { s with mode := .between }
  | '[' => some (s.push .openList)
  | ']' => some (s.push .closeList)
  | '{' => some (s.push .openRecord)
  | '}' => some (s.push .closeRecord)
  | ',' => some (s.push .comma)
  | ':' => some (s.push .colon)
  | '"' => some { s with mode := .string [] }
  | c => if isWordChar c then some { s with mode := .word [c] } else none

/-- The word that ends here, made a token. -/
def closeWord? (s : Lexer) (letters : List Char) : Option Lexer :=
  (Token.ofWord? letters.reverse).map s.push

/-- One more character. -/
def step? (s : Lexer) (c : Char) : Option Lexer :=
  match s.mode with
  | .between => s.open? c
  | .word letters =>
    if isWordChar c then some { s with mode := .word (c :: letters) }
    else (s.closeWord? letters).bind (·.open? c)
  | .string pieces =>
    if c = '"' then
      some (s.push (.text ((joinPieces pieces.reverse).map String.ofList)))
    else if c = '\\' then some { s with mode := .escape pieces }
    else if c.toNat < 0x20 then none
    else some { s with mode := .string (.char c :: pieces) }
  | .escape pieces =>
    if c = 'u' then some { s with mode := .codeUnit pieces 4 0 }
    else (unescape? c).map fun c => { s with mode := .string (.char c :: pieces) }
  | .codeUnit pieces missing value =>
    (Text.hexValue? c).map fun digit =>
      let value := value * 16 + digit
      if missing = 1 then { s with mode := .string (.unit value :: pieces) }
      else { s with mode := .codeUnit pieces (missing - 1) value }

/-- The tokens, once the text has come to its end. -/
def finish? (s : Lexer) : Option (List ReadToken) :=
  match s.mode with
  | .between => some s.tokens.reverse
  | .word letters => (s.closeWord? letters).map (·.tokens.reverse)
  | _ => none

/-- The tokens of a text. -/
def run? (text : List Char) : Option (List ReadToken) :=
  (text.foldlM step? start).bind finish?

end Lexer

end Json

end QueryAlgebra
