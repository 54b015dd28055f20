import QueryAlgebra.Json.Reader
import QueryAlgebra.Proofs.Json.Numbers
import QueryAlgebra.Proofs.Json.Strings

/-!
# The grammar of JSON texts

`Json.Spells v text` says that a text stands for a tree: it consists of the tokens of the tree,
each in one of its spellings, with white space before, between and after them. Which tokens a
tree has is said by `Json.tokens`, and how a token is spelled by `Token.Spells`; a number has
its literal as the only spelling, a string has many. A string with a surrogate that stands
alone is spelled like any other and has no text.
-/

namespace QueryAlgebra

namespace Json

/-- White space between tokens. -/
def Space (w : List Char) : Prop := ∀ c ∈ w, c = ' ' ∨ c = '\t' ∨ c = '\n' ∨ c = '\r'

theorem space_nil : Space [] := List.forall_mem_nil _

/-- A token that is a single character. -/
def Token.symbol? {σ : Type} : Token σ → Option Char
  | openList => some '['
  | closeList => some ']'
  | openRecord => some '{'
  | closeRecord => some '}'
  | comma => some ','
  | colon => some ':'
  | _ => none

/-- A token that is a word, so that it ends only where another character follows. -/
def Token.isWord {σ : Type} : Token σ → Bool
  | null | bool _ | number _ => true
  | _ => false

/-- The spellings of a token. -/
inductive Token.Spells : ReadToken → List Char → Prop
  | symbol {t : ReadToken} {c : Char} : t.symbol? = some c → Token.Spells t [c]
  | null : Token.Spells .null ['n', 'u', 'l', 'l']
  | yes : Token.Spells (.bool true) ['t', 'r', 'u', 'e']
  | no : Token.Spells (.bool false) ['f', 'a', 'l', 's', 'e']
  | number {w : List Char} : Number w → Token.Spells (.number (String.ofList w)) w
  | text {ps : List Piece} {u : List Char} : SpellsPieces ps u →
      Token.Spells (.text ((joinPieces ps).map String.ofList)) ('"' :: (u ++ ['"']))

/-- The spellings of tokens in a row, with white space around them. -/
inductive Spaced : List ReadToken → List Char → Prop
  | space {a : List Char} : Space a → Spaced [] a
  | token {ts : List ReadToken} {w : List Char} {t : ReadToken} {u a : List Char} :
      Spaced ts w → t.Spells u → Space a → Spaced (ts ++ [t]) (w ++ (u ++ a))

/-- The texts that stand for a tree. -/
def Spells (v : Source) (text : List Char) : Prop := Spaced v.tokens text

/-- More white space at the end. -/
theorem Spaced.append_space {ts : List ReadToken} {w : List Char} (h : Spaced ts w) {a : List Char}
    (ha : Space a) : Spaced ts (w ++ a) := by
  cases h with
  | space hb => exact .space (List.forall_mem_append.mpr ⟨hb, ha⟩)
  | token hw ht hb =>
      rw [List.append_assoc, List.append_assoc]
      exact .token hw ht (List.forall_mem_append.mpr ⟨hb, ha⟩)

end Json

end QueryAlgebra
