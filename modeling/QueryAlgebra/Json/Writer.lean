import QueryAlgebra.Json.Token

/-!
# Writing JSON piece by piece

A list or a record whose parts have been written already is written around them, without a
tree of it.
-/

namespace QueryAlgebra

namespace Json

/-- A list of items that are written already. -/
def writeList (items : List (List Char)) : List Char :=
  '[' :: (List.intercalate [','] items ++ [']'])

/-- A record whose values are written already. -/
def writeRecord (fields : List (String × List Char)) : List Char :=
  '{' :: (List.intercalate [',']
    (fields.map fun (key, value) => quoted key.toList ++ ':' :: value) ++ ['}'])

theorem compact_text (s : String) : compact (.text s) = quoted s.toList := by
  rw [compact, tokens, List.flatMap_singleton, Token.spelling]

theorem compact_number (literal : String) : compact (.number literal) = literal.toList := by
  rw [compact, tokens, List.flatMap_singleton, Token.spelling]

theorem compact_list (items : List (Json String String)) :
    compact (.list items) = writeList (items.map compact) := by
  have hitems : (itemTokens items).flatMap Token.spelling =
      List.intercalate [','] (items.map compact) := by
    induction items with
    | nil => rfl
    | cons item items ih =>
        cases items with
        | nil => simp [itemTokens, laterItemTokens, compact]
        | cons next items =>
            rw [itemTokens_cons_cons, List.flatMap_append, List.flatMap_cons, ih]
            simp [compact, Token.spelling]
  rw [compact, tokens, List.flatMap_cons, List.flatMap_append, hitems]
  rfl

theorem compact_record (fields : List (String × Json String String)) :
    compact (.record fields) =
      writeRecord (fields.map fun (key, value) => (key, compact value)) := by
  have hfields : (fieldTokens fields).flatMap Token.spelling =
      List.intercalate [',']
        (fields.map fun (key, value) => quoted key.toList ++ ':' :: compact value) := by
    induction fields with
    | nil => rfl
    | cons field fields ih =>
        obtain ⟨key, value⟩ := field
        cases fields with
        | nil => simp [fieldTokens, laterFieldTokens, compact, Token.spelling]
        | cons next fields =>
            rw [fieldTokens_cons_cons, List.flatMap_cons, List.flatMap_cons, List.flatMap_append,
              List.flatMap_cons, ih]
            simp [compact, Token.spelling]
  rw [compact, tokens, List.flatMap_cons, List.flatMap_append, hfields, writeRecord, List.map_map]
  rfl

end Json

end QueryAlgebra
