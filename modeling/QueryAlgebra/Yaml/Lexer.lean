import QueryAlgebra.Yaml.Block
import QueryAlgebra.Yaml.Folding
import QueryAlgebra.Yaml.Names
import QueryAlgebra.Yaml.Quoting

/-!
# Reading YAML tokens

`Lexer.run?` cuts a text into tokens. The text is taken one character at a time; where a
decision needs the characters that follow, they are looked at, and those that belong to the
same token are passed over afterwards. So the recursion is on the text itself.

Whether something is a key shows only at the colon behind it. The lexer therefore keeps, for
every open flow collection and for the text around them, the place where a key may have
started, and puts the key token there when the colon comes. Such a place is given up when the
line ends or after 1024 octets.

A byte order mark may start a line. It takes a column, so what follows it does not stand at
the beginning of the line.
-/

namespace QueryAlgebra

namespace Yaml

/-- A place where a key may have started: the number of tokens before it, and where it is.
The offset is the number of octets before it in the line. When nothing but a key can stand
there, giving it up is an error. -/
structure KeyStart where
  index : Nat
  line : Nat
  column : Nat
  offset : Nat
  required : Bool
  deriving DecidableEq

/-- What the lexer is in the middle of. -/
inductive Lexer.Mode where
  | between
  | comment
  | quoted (quote : Quote) (text : Folded)
  | plain (text : Folded)
  | block (b : Block)
  deriving DecidableEq

/-- The state of reading tokens. The tokens are in reverse, and the open block columns and
flow collections have the innermost first. -/
structure Lexer where
  mode : Lexer.Mode := .between
  line : Nat := 0
  column : Nat := 0
  /-- The number of octets before the position in its line. -/
  offset : Nat := 0
  tokens : List Token := []
  /-- The number of the tokens. -/
  count : Nat := 0
  /-- The columns of the open block collections. -/
  columns : List Nat := []
  /-- The place of a possible key in the innermost flow collection, or outside of all. -/
  keyStart : Option KeyStart := none
  /-- The same for the collections around it; there are as many as collections are open. -/
  outerKeyStarts : List (Option KeyStart) := []
  /-- A key may start here. -/
  keyAllowed : Bool := true
  deriving DecidableEq

namespace Lexer

/-- The lexer is within a flow collection. -/
def inFlow (s : Lexer) : Bool := !s.outerKeyStarts.isEmpty

/-- The position after a character. -/
def advance (s : Lexer) (c : Char) : Lexer :=
  if isBreak c then { s with line := s.line + 1, column := 0, offset := 0 }
  else { s with column := s.column + 1, offset := s.offset + c.utf8Size }

def push (s : Lexer) (t : Token) : Lexer :=
  { s with tokens := t :: s.tokens, count := s.count + 1 }

/-- Puts tokens where `index` tokens stand before them. -/
def insert (s : Lexer) (index : Nat) (ts : List Token) : Lexer :=
  let later := s.count - index
  { s with
    tokens := s.tokens.take later ++ (ts.reverse ++ s.tokens.drop later)
    count := s.count + ts.length }

/-! ## Block columns -/

/-- Opens a block collection in a column, unless one is open there already. Its token goes
where `index` tokens stand before it. -/
def enterColumn (s : Lexer) (column index : Nat) (t : Token) : Lexer :=
  if !s.inFlow && s.columns.head?.all (· < column) then
    { s.insert index [t] with columns := column :: s.columns }
  else s

/-- Closes the block collections in the columns that fail the test. -/
def leaveColumns (s : Lexer) (stays : Nat → Bool) : Lexer :=
  if s.inFlow then s
  else
    let left := s.columns.takeWhile fun column => !stays column
    { s with
      tokens := List.replicate left.length .blockEnd ++ s.tokens
      count := s.count + left.length
      columns := s.columns.drop left.length }

/-! ## Places of possible keys -/

/-- Gives up the place of a possible key. -/
def dropKeyStart? (s : Lexer) : Option Lexer :=
  if s.keyStart.any (·.required) then none else some { s with keyStart := none }

/-- A key may start here; an earlier place is given up. -/
def markKeyStart? (s : Lexer) : Option Lexer :=
  if s.keyAllowed then
    s.dropKeyStart?.map fun s =>
      { s with
        keyStart := some
          { index := s.count
            line := s.line
            column := s.column
            offset := s.offset
            required := !s.inFlow && s.columns.head? == some s.column } }
  else some s

/-- The place is too far back for a key to have started there. -/
def isStale (s : Lexer) (k : KeyStart) : Bool :=
  k.line < s.line || k.offset + 1024 < s.offset

/-- Gives up the places that are too far back. -/
def dropStale? (s : Lexer) : Option Lexer :=
  if (s.keyStart :: s.outerKeyStarts).any fun k => k.any fun k => s.isStale k && k.required then
    none
  else
    let fresh : Option KeyStart → Option KeyStart := Option.filter fun k => !s.isStale k
    some { s with
      keyStart := fresh s.keyStart
      outerKeyStarts := s.outerKeyStarts.map fresh }

/-! ## Tokens -/

/-- Three hyphens or points. -/
def documentMark? (s : Lexer) (c : Char) : Option (Lexer × Nat) :=
  (s.leaveColumns fun _ => false).dropKeyStart?.map fun s =>
    ({ s.push (if c = '-' then .documentStart else .documentEnd) with keyAllowed := false }, 2)

def directive? (s : Lexer) (rest : List Char) : Option (Lexer × Nat) := do
  let s ← (s.leaveColumns fun _ => false).dropKeyStart?
  let (t, taken) ← readDirective? rest
  return ({ s.push t with keyAllowed := false }, taken)

/-- The start of a flow collection, which may itself be a key. -/
def openFlow? (s : Lexer) (t : Token) : Option (Lexer × Nat) :=
  s.markKeyStart?.map fun s =>
    ({ s.push t with
        keyStart := none
        outerKeyStarts := s.keyStart :: s.outerKeyStarts
        keyAllowed := true }, 0)

def closeFlow? (s : Lexer) (t : Token) : Option (Lexer × Nat) :=
  s.dropKeyStart?.map fun s =>
    ({ s.push t with
        keyStart := s.outerKeyStarts.head?.getD none
        outerKeyStarts := s.outerKeyStarts.tail
        keyAllowed := false }, 0)

def flowComma? (s : Lexer) : Option (Lexer × Nat) :=
  s.dropKeyStart?.map fun s => ({ s.push .flowEntry with keyAllowed := true }, 0)

/-- A hyphen before an item. -/
def blockHyphen? (s : Lexer) : Option (Lexer × Nat) :=
  if !s.inFlow && !s.keyAllowed then none
  else
    (s.enterColumn s.column s.count .blockSequenceStart).dropKeyStart?.map fun s =>
      ({ s.push .blockEntry with keyAllowed := true }, 0)

/-- A question mark before a key. -/
def explicitKey? (s : Lexer) : Option (Lexer × Nat) :=
  if !s.inFlow && !s.keyAllowed then none
  else
    (s.enterColumn s.column s.count .blockMappingStart).dropKeyStart?.map fun s =>
      ({ s.push .key with keyAllowed := !s.inFlow }, 0)

/-- A colon. What stands at the place of a possible key is one. -/
def value? (s : Lexer) : Option (Lexer × Nat) :=
  match s.keyStart with
  | some k =>
    let s := (s.insert k.index [.key]).enterColumn k.column k.index .blockMappingStart
    some ({ s.push .value with keyStart := none, keyAllowed := false }, 0)
  | none =>
    if !s.inFlow && !s.keyAllowed then none
    else
      let s := s.enterColumn s.column s.count .blockMappingStart
      some ({ s.push .value with keyAllowed := !s.inFlow }, 0)

/-- A token that may be, or belong to, a key, and takes no line of its own. -/
def inline? (s : Lexer) (t : Token) (taken : Nat) : Option (Lexer × Nat) :=
  s.markKeyStart?.map fun s => ({ s.push t with keyAllowed := false }, taken)

/-- The start of a plain or quoted scalar. -/
def openScalar? (s : Lexer) (mode : Mode) : Option (Lexer × Nat) :=
  s.markKeyStart?.map fun s => ({ s with mode, keyAllowed := false }, 0)

/-- The header of a block scalar. It takes its whole line, the break included. -/
def openBlock? (s : Lexer) (style : Style) (rest : List Char) : Option (Lexer × Nat) := do
  let s ← s.dropKeyStart?
  let line := rest.takeWhile fun c => !isBreak c
  let b ← Block.open? style s.columns.head? line
  return ({ s with mode := .block b, keyAllowed := true }, line.length + 1)

/-- The characters that cannot start a plain scalar, except some in front of others. -/
def isIndicator (c : Char) : Bool :=
  isFlowIndicator c || "-?:#&*!|>'\"%@".toList.contains c || c.toNat == 0x60

/-- A plain scalar starts with this character. -/
def startsPlain (s : Lexer) (c : Char) (rest : List Char) : Bool :=
  !isBlank c &&
    (!isIndicator c || (c == '-' && !rest.head?.any isBlank) ||
      (!s.inFlow && (c == '?' || c == ':') && !endsWord rest))

/-- The first character of a token, in the middle of what is open. -/
def token? (s : Lexer) (c : Char) (rest : List Char) : Option (Lexer × Nat) :=
  if s.column = 0 ∧ c = '%' then s.directive? rest
  else if s.column = 0 ∧ isDocumentMark c rest then s.documentMark? c
  else if c = '[' then s.openFlow? .flowSequenceStart
  else if c = '{' then s.openFlow? .flowMappingStart
  else if c = ']' then s.closeFlow? .flowSequenceEnd
  else if c = '}' then s.closeFlow? .flowMappingEnd
  else if c = ',' then s.flowComma?
  else if c = '-' ∧ endsWord rest then s.blockHyphen?
  else if c = '?' ∧ (s.inFlow || endsWord rest) then s.explicitKey?
  else if c = ':' ∧ (s.inFlow || endsWord rest) then s.value?
  else if c = '*' then
    (readName? rest).bind fun (name, taken) => s.inline? (.reference name) taken
  else if c = '&' then
    (readName? rest).bind fun (name, taken) => s.inline? (.anchor name) taken
  else if c = '!' then
    (readTag? s.inFlow rest).bind fun (name, taken) => s.inline? (.tag name) taken
  else if c = '|' ∧ !s.inFlow then s.openBlock? .literal rest
  else if c = '>' ∧ !s.inFlow then s.openBlock? .folded rest
  else if c = '\'' then s.openScalar? (.quoted .single {})
  else if c = '"' then s.openScalar? (.quoted .double {})
  else if s.startsPlain c rest then s.openScalar? (.plain (Folded.push {} c))
  else none

/-- A character outside of scalars and comments. -/
def between? (s : Lexer) (c : Char) (rest : List Char) : Option (Lexer × Nat) :=
  if c = byteOrderMark ∧ s.column = 0 then some (s, 0)
  else if c = ' ' ∨ (c = '\t' ∧ (s.inFlow || !s.keyAllowed)) then some (s, 0)
  else if c = '#' then some ({ s with mode := .comment }, 0)
  else if isBreak c then some ({ s with keyAllowed := s.keyAllowed || !s.inFlow }, 0)
  else
    s.dropStale?.bind fun s => (s.leaveColumns (· ≤ s.column)).token? c rest

/-! ## Scalars -/

/-- The finished scalar. -/
def pushScalar (s : Lexer) (style : Style) (text : String) : Lexer :=
  { s.push (.scalar style text) with mode := .between }

/-- The finished plain scalar. After a line break a key may start. -/
def pushPlain (s : Lexer) (text : Folded) : Lexer :=
  { s.pushScalar .plain text.toString with keyAllowed := s.keyAllowed || text.gap.hasBreak }

/-- The plain scalar ends before this character. -/
def endsPlain (s : Lexer) (text : Folded) (c : Char) (rest : List Char) : Bool :=
  (text.gap != .none &&
    ((!s.inFlow && s.columns.head?.any (s.column ≤ ·)) ||
      (s.column == 0 && isDocumentMark c rest) || c == '#')) ||
    (c == ':' && endsWord rest) || (s.inFlow && isFlowIndicator c)

/-- A character after the start of a plain scalar. -/
def plain? (s : Lexer) (text : Folded) (c : Char) (rest : List Char) : Option (Lexer × Nat) :=
  if isBlank c || isBreak c then
    if text.gap.hasBreak && c == '\t' && s.columns.head?.any (s.column ≤ ·) then none
    else some ({ s with mode := .plain (text.space c) }, 0)
  else if s.endsPlain text c rest then (s.pushPlain text).between? c rest
  else if s.inFlow && c == ':' && rest.head?.any fun d => d == '?' || isFlowIndicator d then none
  else some ({ s with mode := .plain (text.push c) }, 0)

/-- A character after the start of a quoted scalar. -/
def quoted? (s : Lexer) (quote : Quote) (text : Folded) (c : Char) (rest : List Char) :
    Option (Lexer × Nat) :=
  if s.column = 0 ∧ isDocumentMark c rest then none
  else
    match quote.step text c rest with
    | .continues text taken => some ({ s with mode := .quoted quote text }, taken)
    | .ended text => some (s.pushScalar .quoted text.toString, 0)
    | .failed => none

/-- A character after the header of a block scalar. -/
def block? (s : Lexer) (b : Block) (c : Char) (rest : List Char) : Option (Lexer × Nat) :=
  match b.step s.column c with
  | .continues b => some ({ s with mode := .block b }, 0)
  | .ended b => (s.pushScalar b.style b.toString).between? c rest
  | .failed => none

/-! ## The whole text -/

/-- One more character, with what follows it; the number counts the characters after it
that are taken along. -/
def step? (s : Lexer) (c : Char) (rest : List Char) : Option (Lexer × Nat) :=
  match s.mode with
  | .between => s.between? c rest
  | .comment =>
    if isBreak c then { s with mode := .between }.between? c rest else some (s, 0)
  | .quoted quote text => s.quoted? quote text c rest
  | .plain text => s.plain? text c rest
  | .block b => s.block? b c rest

/-- The end of the text: scalars that need no closing end here, and so does every block. -/
def finish? (s : Lexer) : Option (List Token) := do
  let s ← match s.mode with
    | .between | .comment => some s
    | .plain text => some (s.pushPlain text)
    | .block b => some (s.pushScalar b.style b.toString)
    | .quoted .. => none
  let s ← s.dropStale?
  let s ← (s.leaveColumns fun _ => false).dropKeyStart?
  return (s.push .streamEnd).tokens.reverse

/-- Reads on from a state, passing over a number of characters first. -/
def scan? (s : Lexer) : Nat → List Char → Option (List Token)
  | _, [] => s.finish?
  | taken + 1, c :: rest => (s.advance c).scan? taken rest
  | 0, c :: rest => (s.step? c rest).bind fun (s, taken) => (s.advance c).scan? taken rest

/-- The tokens of a text. -/
def run? (text : List Char) : Option (List Token) :=
  if text.all isAllowed then ({} : Lexer).scan? 0 (unifyBreaks text) else none

end Lexer

end Yaml

end QueryAlgebra
