import QueryAlgebra.Json.Writer
import QueryAlgebra.Proofs.Json.Reading

/-!
# Compact texts are read back

What `Json.compact` writes is one of the texts that stand for the tree, provided that the
literals of its numbers are numbers. As a text stands for one tree only, reading undoes writing:
`read?_compact`.
-/

namespace QueryAlgebra

namespace Json

variable {ν σ : Type}

mutual

/-- The property holds of the tree and of everything in it. -/
def Everywhere (p : Json ν σ → Prop) : Json ν σ → Prop
  | list items => p (list items) ∧ EverywhereItems p items
  | record fields => p (record fields) ∧ EverywhereFields p fields
  | j => p j

/-- `Everywhere`, item by item. -/
def EverywhereItems (p : Json ν σ → Prop) : List (Json ν σ) → Prop
  | [] => True
  | item :: items => Everywhere p item ∧ EverywhereItems p items

/-- `Everywhere`, field by field. -/
def EverywhereFields (p : Json ν σ → Prop) : List (σ × Json ν σ) → Prop
  | [] => True
  | (_, value) :: fields => Everywhere p value ∧ EverywhereFields p fields

end

theorem everywhere_list_iff (p : Json ν σ → Prop) (items : List (Json ν σ)) :
    Everywhere p (list items) ↔ p (list items) ∧ ∀ item ∈ items, Everywhere p item := by
  rw [Everywhere]
  refine and_congr_right fun _ => ?_
  clear * -
  induction items with
  | nil => simp [EverywhereItems]
  | cons item items ih => rw [EverywhereItems, ih, List.forall_mem_cons]

theorem everywhere_record_iff (p : Json ν σ → Prop) (fields : List (σ × Json ν σ)) :
    Everywhere p (record fields) ↔
      p (record fields) ∧ ∀ field ∈ fields, Everywhere p field.2 := by
  rw [Everywhere]
  refine and_congr_right fun _ => ?_
  clear * -
  induction fields with
  | nil => simp [EverywhereFields]
  | cons field fields ih => rw [EverywhereFields, ih, List.forall_mem_cons]

/-- What holds everywhere may be weakened everywhere. -/
theorem Everywhere.mono {p q : Json ν σ → Prop} (hpq : ∀ j, p j → q j) {j : Json ν σ}
    (h : Everywhere p j) : Everywhere q j := by
  induction j with
  | null | bool | number | text => exact hpq _ h
  | list items ih =>
      rw [everywhere_list_iff] at h ⊢
      exact ⟨hpq _ h.1, fun item hitem => ih item hitem (h.2 item hitem)⟩
  | record fields ih =>
      rw [everywhere_record_iff] at h ⊢
      exact ⟨hpq _ h.1, fun field hfield => ih field hfield (h.2 field hfield)⟩

/-- A number, if it is one, has a literal of the grammar. -/
def HasNumber : Json String σ → Prop
  | number literal => Number literal.toList
  | _ => True

/-! ## Strings -/

/-- Every character is written as one piece. -/
theorem exists_spells_escape (c : Char) :
    ∃ p : Piece, p.Spells (escape c) ∧ p.units = units c := by
  fun_cases escape c with
  | case8 _ _ _ _ _ _ _ hlow =>
      refine ⟨.unit c.toNat, .numbered rfl (Text.hexNumber?_octet (by omega)), ?_⟩
      rw [units, if_pos (by omega)]
      rfl
  | case9 hquote hslash _ _ _ _ _ hlow =>
      exact ⟨.char c, .itself hquote hslash (Nat.le_of_not_lt hlow), rfl⟩
  | _ =>
      subst_vars
      exact ⟨.char _, .named rfl, rfl⟩

theorem exists_spells_flatMap_escape (cs : List Char) :
    ∃ ps : List Piece, SpellsPieces ps (cs.flatMap escape) ∧
      ps.flatMap Piece.units = cs.flatMap units := by
  induction cs with
  | nil => exact ⟨[], .nil, rfl⟩
  | cons c cs ih =>
      obtain ⟨p, hp, hunits⟩ := exists_spells_escape c
      obtain ⟨ps, hps, hall⟩ := ih
      refine ⟨p :: ps, (SpellsPieces.single hp).append hps, ?_⟩
      rw [List.flatMap_cons, List.flatMap_cons, hunits, hall]

/-- A quoted string spells the token of the string. -/
theorem spells_quoted (s : String) : Token.Spells (.text (some s)) (quoted s.toList) := by
  obtain ⟨ps, hps, hunits⟩ := exists_spells_flatMap_escape s.toList
  have hjoin : (joinPieces ps).map String.ofList = some s := by
    rw [(hps.joinPieces_eq_some_iff _).mpr hunits, Option.map_some, String.ofList_toList]
  exact hjoin ▸ Token.Spells.text hps

/-! ## Trees -/

/-- The token as it is read. -/
def Token.asRead : Token String → ReadToken
  | openList => .openList
  | closeList => .closeList
  | openRecord => .openRecord
  | closeRecord => .closeRecord
  | comma => .comma
  | colon => .colon
  | null => .null
  | bool b => .bool b
  | number literal => .number literal
  | text s => .text (some s)

/-- The tree as it is read. -/
def asRead (j : Json String String) : Source := j.map id some

theorem tokens_asRead (j : Json String String) :
    (asRead j).tokens = j.tokens.map Token.asRead := by
  induction j with
  | null | bool | number | text => rfl
  | list items ih =>
      have hitems : itemTokens (items.map asRead) = (itemTokens items).map Token.asRead := by
        induction items with
        | nil => rfl
        | cons item items hrest =>
            obtain ⟨hitem, hitems⟩ := List.forall_mem_cons.mp ih
            cases items with
            | nil => simp [itemTokens, laterItemTokens, hitem]
            | cons next items =>
                have hnext := hrest hitems
                rw [List.map_cons] at hnext
                rw [List.map_cons, List.map_cons, itemTokens_cons_cons, itemTokens_cons_cons,
                  List.map_append, List.map_cons, hitem, hnext]
                rfl
      rw [asRead, map_list, tokens, tokens, List.map_cons, List.map_append, ← hitems]
      rfl
  | record fields ih =>
      set read := fun field : String × Json String String => (some field.1, asRead field.2)
      have hfields : fieldTokens (fields.map read) = (fieldTokens fields).map Token.asRead := by
        induction fields with
        | nil => rfl
        | cons field fields hrest =>
            obtain ⟨hfield, hfields⟩ := List.forall_mem_cons.mp ih
            cases fields with
            | nil => simp [fieldTokens, laterFieldTokens, hfield, read, Token.asRead]
            | cons next fields =>
                have hnext := hrest hfields
                rw [List.map_cons] at hnext
                rw [List.map_cons, List.map_cons, fieldTokens_cons_cons, fieldTokens_cons_cons,
                  hfield, hnext]
                simp [Token.asRead]
      rw [asRead, map_record, tokens, tokens, List.map_cons, List.map_append,
        ← hfields]
      rfl

theorem forall_mem_itemTokens {p : Token σ → Prop} (hcomma : p .comma)
    {items : List (Json String σ)} (h : ∀ item ∈ items, ∀ t ∈ item.tokens, p t) :
    ∀ t ∈ itemTokens items, p t := by
  induction items with
  | nil => exact List.forall_mem_nil _
  | cons item items ih =>
      obtain ⟨hitem, hitems⟩ := List.forall_mem_cons.mp h
      cases items with
      | nil => simpa [itemTokens, laterItemTokens] using hitem
      | cons next items =>
          rw [itemTokens_cons_cons, List.forall_mem_append, List.forall_mem_cons]
          exact ⟨hitem, hcomma, ih hitems⟩

theorem forall_mem_fieldTokens {p : Token σ → Prop} (hcomma : p .comma) (hcolon : p .colon)
    {fields : List (σ × Json String σ)}
    (h : ∀ field ∈ fields, p (.text field.1) ∧ ∀ t ∈ field.2.tokens, p t) :
    ∀ t ∈ fieldTokens fields, p t := by
  induction fields with
  | nil => exact List.forall_mem_nil _
  | cons field fields ih =>
      obtain ⟨⟨hkey, hfield⟩, hfields⟩ := List.forall_mem_cons.mp h
      cases fields with
      | nil => simpa [fieldTokens, laterFieldTokens, hcolon, hkey] using hfield
      | cons next fields =>
          rw [fieldTokens_cons_cons, List.forall_mem_cons, List.forall_mem_cons,
            List.forall_mem_append, List.forall_mem_cons]
          exact ⟨hkey, hcolon, hfield, hcomma, ih hfields⟩

/-- The tokens of a tree are written as they are spelled. -/
theorem spells_spelling {j : Json String String} (h : Everywhere HasNumber j) :
    ∀ t ∈ j.tokens, t.asRead.Spells t.spelling := by
  induction j with
  | null => exact List.forall_mem_singleton.mpr .null
  | bool b =>
      rw [tokens, List.forall_mem_singleton]
      cases b
      · exact .no
      · exact .yes
  | number literal =>
      have hspells : Token.Spells (.number (String.ofList literal.toList)) literal.toList :=
        .number h
      rw [String.ofList_toList] at hspells
      exact List.forall_mem_singleton.mpr hspells
  | text s => exact List.forall_mem_singleton.mpr (spells_quoted s)
  | list items ih =>
      have hitems := ((everywhere_list_iff _ _).mp h).2
      rw [tokens, List.forall_mem_cons, List.forall_mem_append, List.forall_mem_singleton]
      refine ⟨.symbol rfl, ?_, .symbol rfl⟩
      exact forall_mem_itemTokens (.symbol rfl) fun item hitem => ih item hitem (hitems item hitem)
  | record fields ih =>
      have hfields := ((everywhere_record_iff _ _).mp h).2
      rw [tokens, List.forall_mem_cons, List.forall_mem_append, List.forall_mem_singleton]
      refine ⟨.symbol rfl, ?_, .symbol rfl⟩
      exact forall_mem_fieldTokens (.symbol rfl) (.symbol rfl) fun field hfield =>
        ⟨spells_quoted field.1, ih field hfield (hfields field hfield)⟩

theorem spaced_spelling {ts : List (Token String)}
    (h : ∀ t ∈ ts, t.asRead.Spells t.spelling) :
    Spaced (ts.map Token.asRead) (ts.flatMap Token.spelling) := by
  induction ts using List.reverseRecOn with
  | nil => exact .space space_nil
  | append_singleton ts t ih =>
      obtain ⟨hts, ht⟩ := List.forall_mem_append.mp h
      have hall := (ih hts).token (ht t List.mem_cons_self) space_nil
      simpa using hall

/-- A tree is one of those that its compact text stands for. -/
theorem spells_compact {j : Json String String} (h : Everywhere HasNumber j) :
    Spells (asRead j) (compact j) := by
  rw [Spells, tokens_asRead]
  exact spaced_spelling (spells_spelling h)

/-- Reading undoes writing. -/
theorem read?_compact {j : Json String String} (h : Everywhere HasNumber j) :
    read? (String.ofList (compact j)) = some (asRead j) := by
  rw [read?_eq_some_iff, String.toList_ofList]
  exact spells_compact h

end Json

end QueryAlgebra
