import QueryAlgebra.Yaml.Characters
import QueryAlgebra.Yaml.Token

/-!
# Block scalars

A literal or folded block scalar is read line by line. Its column is given by its header or
found from the first line that is not empty. `Block` is a block scalar that is being read;
`Block.step` takes one character of it, or finds that the scalar has ended before it.
-/

namespace QueryAlgebra

namespace Yaml

/-- What becomes of the line breaks at the end. -/
inductive Chomping where
  | strip
  | clip
  | keep
  deriving DecidableEq

/-- A block scalar that is being read. Sequences of characters are in reverse. -/
structure Block where
  style : Style
  chomping : Chomping
  /-- The column of the lines, once it is known. -/
  column : Option Nat
  /-- The least column that may be found. -/
  least : Nat
  /-- The farthest column reached while looking for it. -/
  widest : Nat := 0
  /-- The characters stand in a line, not before it. -/
  inLine : Bool := false
  /-- The last line started with a blank. -/
  indented : Bool := false
  text : List Char := []
  /-- The break after the last line. -/
  lastBreak : Option Char := none
  /-- The breaks of the empty lines after it. -/
  emptyLines : List Char := []
  deriving DecidableEq

namespace Block

def chompingOf? (c : Char) : Option Chomping :=
  if c = '+' then some .keep else if c = '-' then some .strip else none

/-- A digit that says how far the lines are indented. -/
def incrementOf? (c : Char) : Option Nat :=
  if c.isDigit && c != '0' then some (c.toNat - '0'.toNat) else none

/-- Chomping and indentation as a header gives them, in either order. -/
def header? (line : List Char) : Option (Chomping × Option Nat) :=
  let (chomping, increment, rest) := match line with
    | [] => (none, none, [])
    | c :: rest =>
      match chompingOf? c, incrementOf? c with
      | some chomping, _ =>
        match rest with
        | d :: rest' =>
          match incrementOf? d with
          | some n => (some chomping, some n, rest')
          | none => (some chomping, none, rest)
        | [] => (some chomping, none, rest)
      | none, some n =>
        match rest with
        | d :: rest' =>
          match chompingOf? d with
          | some chomping => (some chomping, some n, rest')
          | none => (none, some n, rest)
        | [] => (none, some n, rest)
      | none, none => (none, none, line)
  if isLineEnd rest then some (chomping.getD .clip, increment) else none

/-- The scalar with a header in a line whose column is `parent`, if it has one. -/
def open? (style : Style) (parent : Option Nat) (line : List Char) : Option Block :=
  (header? line).map fun (chomping, increment) =>
    { style, chomping
      column := increment.map (parent.getD 0 + ·)
      least := parent.elim 1 (· + 1) }

/-- The text of the finished scalar. -/
def toString (b : Block) : String :=
  String.ofList <| List.reverse <|
    match b.chomping with
    | .strip => b.text
    | .clip => b.lastBreak.toList ++ b.text
    | .keep => b.emptyLines ++ (b.lastBreak.toList ++ b.text)

/-- The text before a line that starts with the given character. In a folded scalar the
break between two lines that start with no blank becomes a space, or nothing where empty
lines lie between. -/
def joined (b : Block) (c : Char) : List Char :=
  let folds := b.style == .folded && b.lastBreak == some '\n' && !b.indented && !isBlank c
  let first :=
    if folds then (if b.emptyLines.isEmpty then [' '] else [])
    else b.lastBreak.toList
  b.emptyLines ++ (first ++ b.text)

/-- The first character of a line. -/
def startLine (b : Block) (c : Char) : Block :=
  { b with
    text := c :: b.joined c
    inLine := true
    indented := isBlank c
    lastBreak := none
    emptyLines := [] }

/-- What one more character does to a block scalar. -/
inductive Progress where
  | continues (b : Block)
  | ended (b : Block)
  | failed

/-- One more character, in the given column. -/
def step (b : Block) (column : Nat) (c : Char) : Progress :=
  if b.inLine then
    if isBreak c then
      .continues { b with inLine := false, lastBreak := some c, emptyLines := [] }
    else .continues { b with text := c :: b.text }
  else
    let before := b.column.all (column < ·)
    if before && c == ' ' then .continues b
    else if before && c == '\t' then .failed
    else
      let widest := max b.widest column
      if isBreak c then
        .continues { b with widest, emptyLines := c :: b.emptyLines }
      else
        let found := b.column.getD (max widest b.least)
        if column = found then .continues ({ b with column := some found }.startLine c)
        else .ended b

end Block

end Yaml

end QueryAlgebra
