import QueryAlgebra.Json.Basic
import QueryAlgebra.Text.Hexadecimal

/-!
# JSON tokens

A tree is written as its tokens, one after another with nothing between them:
`Json.tokens` lists them and `Token.spelling` says how each is written. A string is
written between quotes. The quote and the backslash are written with a backslash, the
control characters below the space by their short names or, where they have none, by four
hexadecimal digits. Everything else stands for itself.
-/

namespace QueryAlgebra

namespace Json

/-- A token of JSON, with texts in `σ`. A number is its literal. -/
inductive Token (σ : Type) where
  | openList
  | closeList
  | openRecord
  | closeRecord
  | comma
  | colon
  | null
  | bool (b : Bool)
  | number (literal : String)
  | text (s : σ)
  deriving DecidableEq

mutual

/-- The tokens of a tree whose numbers are literals. -/
def tokens {σ : Type} : Json String σ → List (Token σ)
  | null => [.null]
  | bool b => [.bool b]
  | number literal => [.number literal]
  | text s => [.text s]
  | list items => .openList :: (itemTokens items ++ [.closeList])
  | record fields => .openRecord :: (fieldTokens fields ++ [.closeRecord])

/-- The tokens of the items of a list, commas included. -/
def itemTokens {σ : Type} : List (Json String σ) → List (Token σ)
  | [] => []
  | item :: items => tokens item ++ laterItemTokens items

/-- The tokens of the items that follow another item. -/
def laterItemTokens {σ : Type} : List (Json String σ) → List (Token σ)
  | [] => []
  | item :: items => .comma :: (tokens item ++ laterItemTokens items)

/-- The tokens of the fields of a record, commas included. -/
def fieldTokens {σ : Type} : List (σ × Json String σ) → List (Token σ)
  | [] => []
  | (key, value) :: fields =>
    .text key :: .colon :: (tokens value ++ laterFieldTokens fields)

/-- The tokens of the fields that follow another field. -/
def laterFieldTokens {σ : Type} : List (σ × Json String σ) → List (Token σ)
  | [] => []
  | (key, value) :: fields =>
    .comma :: .text key :: .colon :: (tokens value ++ laterFieldTokens fields)

end

theorem itemTokens_cons_cons {σ : Type} (item next : Json String σ)
    (items : List (Json String σ)) :
    itemTokens (item :: next :: items) =
      item.tokens ++ .comma :: itemTokens (next :: items) := by
  simp [itemTokens, laterItemTokens]

theorem fieldTokens_cons_cons {σ : Type} (key : σ) (value : Json String σ)
    (next : σ × Json String σ) (fields : List (σ × Json String σ)) :
    fieldTokens ((key, value) :: next :: fields) =
      .text key :: .colon :: (value.tokens ++ .comma :: fieldTokens (next :: fields)) := by
  simp [fieldTokens, laterFieldTokens]

/-- A character as it is written inside quotes. -/
def escape (c : Char) : List Char :=
  if c = '"' then ['\\', '"']
  else if c = '\\' then ['\\', '\\']
  else if c = '\x08' then ['\\', 'b']
  else if c = '\t' then ['\\', 't']
  else if c = '\n' then ['\\', 'n']
  else if c = '\x0c' then ['\\', 'f']
  else if c = '\r' then ['\\', 'r']
  else if c.toNat < 0x20 then
    ['\\', 'u', '0', '0', Text.hexDigit (c.toNat / 16), Text.hexDigit c.toNat]
  else [c]

/-- A string between quotes. -/
def quoted (s : List Char) : List Char :=
  '"' :: (s.flatMap escape ++ ['"'])

/-- A token of plain strings as it is written. -/
def Token.spelling : Token String → List Char
  | openList => ['[']
  | closeList => [']']
  | openRecord => ['{']
  | closeRecord => ['}']
  | comma => [',']
  | colon => [':']
  | null => ['n', 'u', 'l', 'l']
  | bool true => ['t', 'r', 'u', 'e']
  | bool false => ['f', 'a', 'l', 's', 'e']
  | number literal => literal.toList
  | text s => quoted s.toList

/-- The compact text of a tree. -/
def compact (j : Json String String) : List Char :=
  j.tokens.flatMap Token.spelling

end Json

end QueryAlgebra
