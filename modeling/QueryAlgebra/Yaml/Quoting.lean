import QueryAlgebra.Text.Hexadecimal
import QueryAlgebra.Yaml.Folding

/-!
# Quoted scalars

Between single quotes a quote is written twice and nothing else is special. Between double
quotes a backslash starts an escape, for a character by name or by number, or for a line
break that leaves no trace. White space is folded in both.
-/

namespace QueryAlgebra

namespace Yaml

/-- The character that a backslash and this letter stand for. -/
def unescape? (c : Char) : Option Char :=
  match c with
  | '0' => some '\x00'
  | 'a' => some '\x07'
  | 'b' => some '\x08'
  | 't' => some '\t'
  | '\t' => some '\t'
  | 'n' => some '\n'
  | 'v' => some '\x0b'
  | 'f' => some '\x0c'
  | 'r' => some '\r'
  | 'e' => some '\x1b'
  | ' ' => some ' '
  | '"' => some '"'
  | '/' => some '/'
  | '\\' => some '\\'
  | 'N' => some (Char.ofNat 0x85)
  | '_' => some (Char.ofNat 0xA0)
  | 'L' => some (Char.ofNat 0x2028)
  | 'P' => some (Char.ofNat 0x2029)
  | _ => none

/-- The number of hexadecimal digits after this letter. -/
def escapeWidth? (c : Char) : Option Nat :=
  match c with
  | 'x' => some 2
  | 'u' => some 4
  | 'U' => some 8
  | _ => none

/-- The character of an escape, from what follows its backslash, and the number of
characters that takes. -/
def readEscape? : List Char → Option (Char × Nat)
  | [] => none
  | c :: rest =>
    match escapeWidth? c with
    | none => (unescape? c).map fun c => (c, 1)
    | some width =>
      let digits := rest.take width
      if digits.length < width then none
      else (Text.hexNumber? digits).bind fun n =>
        if n.isValidChar then some (Char.ofNat n, width + 1) else none

/-- The two kinds of quotes. -/
inductive Quote where
  | single
  | double
  deriving DecidableEq

/-- What one more character does to a quoted scalar. The number counts the characters after
it that are taken along. -/
inductive Quoting where
  | continues (text : Folded) (taken : Nat)
  | ended (text : Folded)
  | failed

/-- One more character of a quoted scalar, with what follows it. -/
def Quote.step (quote : Quote) (text : Folded) (c : Char) (rest : List Char) : Quoting :=
  if isBlank c || isBreak c then .continues (text.space c) 0
  else
    match quote with
    | .single =>
      if c = '\'' then
        if rest.head? = some '\'' then .continues (text.push c) 1 else .ended text.settle
      else .continues (text.push c) 0
    | .double =>
      if c = '"' then .ended text.settle
      else if c = '\\' then
        if rest.head?.any isBreak then
          .continues { text.settle with gap := .breaks none [] } 1
        else
          match readEscape? rest with
          | some (c, taken) => .continues (text.push c) taken
          | none => .failed
      else .continues (text.push c) 0

end Yaml

end QueryAlgebra
