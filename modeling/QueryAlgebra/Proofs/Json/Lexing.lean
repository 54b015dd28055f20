import Mathlib.Data.List.Chain
import QueryAlgebra.Proofs.Json.Grammar

/-!
# The tokens of a JSON text

The lexer reads the tokens that a text spells, and it reads nothing else: `spaced_of_run?` finds
the spellings in a text that was read, and `run?_of_spaced` reads spelled tokens. A word ends
only at a character that is no part of it, so the latter asks for tokens that are never two words
in a row.

The state of the lexer says what has been read so far. `Lexer.Reads` is the relation between the
two, which every step keeps.
-/

namespace QueryAlgebra

namespace Json

open Text (hexNumber? hexNumber?_concat hexValue? exists_of_hexNumber?)

theorem Token.isWordChar_of_symbol? {t : ReadToken} {c : Char} (h : t.symbol? = some c) :
    isWordChar c = false := by
  cases t <;> cases h <;> rfl

theorem Token.isWord_of_symbol? {t : ReadToken} {c : Char} (h : t.symbol? = some c) :
    t.isWord = false := by
  cases t <;> cases h <;> rfl

theorem isWordChar_of_isDigit {c : Char} (h : c.isDigit = true) : isWordChar c = true := by
  simp [isWordChar, Char.isAlphanum, h]

/-- A number is a word. -/
theorem Number.isWordChar {w : List Char} (h : Number w) :
    w ≠ [] ∧ ∀ c ∈ w, isWordChar c = true := by
  have hdigits : ∀ {ds : List Char}, Digits ds → ∀ c ∈ ds, Json.isWordChar c = true :=
    fun hds c hc => isWordChar_of_isDigit (hds.2 c hc)
  cases h with
  | @parts sign whole fraction exponent hsign hwhole hfraction hexponent =>
      have hsign' : ∀ c ∈ sign, Json.isWordChar c = true := by
        rcases hsign with rfl | rfl
        · exact List.forall_mem_nil _
        · exact List.forall_mem_singleton.mpr rfl
      have hfraction' : ∀ c ∈ fraction, Json.isWordChar c = true := by
        cases hfraction with
        | none => exact List.forall_mem_nil _
        | digits hds => exact List.forall_mem_cons.mpr ⟨rfl, hdigits hds⟩
      have hexponent' : ∀ c ∈ exponent, Json.isWordChar c = true := by
        cases hexponent with
        | none => exact List.forall_mem_nil _
        | digits he hsign hds =>
            refine List.forall_mem_cons.mpr ⟨?_, List.forall_mem_append.mpr ⟨?_, hdigits hds⟩⟩
            · rcases he with rfl | rfl <;> rfl
            · rcases hsign with rfl | rfl | rfl
              · exact List.forall_mem_nil _
              · exact List.forall_mem_singleton.mpr rfl
              · exact List.forall_mem_singleton.mpr rfl
      refine ⟨?_, ?_⟩
      · simp [hwhole.digits_all.1]
      · simp only [List.forall_mem_append]
        exact ⟨hsign', hdigits hwhole.digits_all, hfraction', hexponent'⟩

/-- The tokens that words stand for are the spelled ones. -/
theorem Token.ofWord?_eq_some_iff (w : List Char) (t : ReadToken) :
    Token.ofWord? w = some t ↔ t.isWord = true ∧ t.Spells w := by
  constructor
  · intro h
    unfold Token.ofWord? at h
    split at h
    · next hw =>
      obtain rfl := Option.some.inj h
      exact ⟨rfl, hw ▸ .null⟩
    · split at h
      · next hw =>
        obtain rfl := Option.some.inj h
        exact ⟨rfl, hw ▸ .yes⟩
      · split at h
        · next hw =>
          obtain rfl := Option.some.inj h
          exact ⟨rfl, hw ▸ .no⟩
        · split at h
          · next hw =>
            obtain rfl := Option.some.inj h
            exact ⟨rfl, .number ((isNumberLiteral_iff w).mp hw)⟩
          · exact nomatch h
  · rintro ⟨hword, h⟩
    cases h with
    | symbol hc => exact absurd hword (by rw [Token.isWord_of_symbol? hc]; simp)
    | null => rfl
    | yes => rfl
    | no => rfl
    | number hw =>
        have hliteral := (isNumberLiteral_iff w).mpr hw
        have hne : ∀ v : List Char, isNumberLiteral v = false → w ≠ v := by
          rintro v hv rfl
          rw [hliteral] at hv
          exact nomatch hv
        rw [Token.ofWord?, if_neg (hne _ rfl), if_neg (hne _ rfl), if_neg (hne _ rfl),
          if_pos hliteral]
    | text => exact nomatch hword

/-- A word is made of its own characters. -/
theorem Token.Spells.isWordChar {t : ReadToken} {w : List Char} (h : t.Spells w)
    (hword : t.isWord = true) : w ≠ [] ∧ ∀ c ∈ w, isWordChar c = true := by
  cases h with
  | symbol hc => exact absurd hword (by rw [Token.isWord_of_symbol? hc]; simp)
  | null => exact ⟨by simp, List.all_eq_true.mp rfl⟩
  | yes => exact ⟨by simp, List.all_eq_true.mp rfl⟩
  | no => exact ⟨by simp, List.all_eq_true.mp rfl⟩
  | number hw => exact hw.isWordChar
  | text => exact nomatch hword

namespace Lexer

section Steps

variable (tokens : List ReadToken) (letters : List Char) (pieces : List Piece)
  (missing value : Nat) (c : Char)

theorem step?_word :
    step? ⟨.word letters, tokens⟩ c =
      if isWordChar c then some ⟨.word (c :: letters), tokens⟩
      else (closeWord? ⟨.word letters, tokens⟩ letters).bind (·.open? c) := rfl

theorem step?_string :
    step? ⟨.string pieces, tokens⟩ c =
      if c = '"' then
        some (push ⟨.between, tokens⟩ (.text ((joinPieces pieces.reverse).map String.ofList)))
      else if c = '\\' then some ⟨.escape pieces, tokens⟩
      else if c.toNat < 0x20 then none
      else some ⟨.string (.char c :: pieces), tokens⟩ := rfl

theorem step?_escape :
    step? ⟨.escape pieces, tokens⟩ c =
      if c = 'u' then some ⟨.codeUnit pieces 4 0, tokens⟩
      else (unescape? c).map fun c => ⟨.string (.char c :: pieces), tokens⟩ := rfl

theorem step?_codeUnit :
    step? ⟨.codeUnit pieces missing value, tokens⟩ c =
      (hexValue? c).map fun digit =>
        if missing = 1 then ⟨.string (.unit (value * 16 + digit) :: pieces), tokens⟩
        else ⟨.codeUnit pieces (missing - 1) (value * 16 + digit), tokens⟩ := rfl

end Steps

theorem open?_of_symbol? (s : Lexer) {t : ReadToken} {c : Char} (h : t.symbol? = some c) :
    s.open? c = some (s.push t) := by
  cases t <;> cases h <;> rfl

theorem open?_of_isWordChar (s : Lexer) {c : Char} (h : isWordChar c = true) :
    s.open? c = some { s with mode := .word [c] } := by
  unfold open?
  split
  all_goals exact if_pos h

theorem open?_of_space (s : Lexer) {c : Char}
    (h : c = ' ' ∨ c = '\t' ∨ c = '\n' ∨ c = '\r') :
    s.open? c = some { s with mode := .between } ∧ isWordChar c = false := by
  rcases h with rfl | rfl | rfl | rfl <;> exact ⟨rfl, rfl⟩

/-- What the first character of a token can be. -/
theorem open?_cases {s s' : Lexer} {c : Char} (h : s.open? c = some s') :
    ((c = ' ' ∨ c = '\t' ∨ c = '\n' ∨ c = '\r') ∧ s' = { s with mode := .between }) ∨
      (∃ t : ReadToken, t.symbol? = some c ∧ s' = s.push t) ∨
      (c = '"' ∧ s' = { s with mode := .string [] }) ∨
      (isWordChar c = true ∧ s' = { s with mode := .word [c] }) := by
  unfold open? at h
  split at h
  case h_1 | h_2 | h_3 | h_4 => exact Or.inl ⟨by simp, (Option.some.inj h).symm⟩
  case h_5 => exact Or.inr (Or.inl ⟨.openList, rfl, (Option.some.inj h).symm⟩)
  case h_6 => exact Or.inr (Or.inl ⟨.closeList, rfl, (Option.some.inj h).symm⟩)
  case h_7 => exact Or.inr (Or.inl ⟨.openRecord, rfl, (Option.some.inj h).symm⟩)
  case h_8 => exact Or.inr (Or.inl ⟨.closeRecord, rfl, (Option.some.inj h).symm⟩)
  case h_9 => exact Or.inr (Or.inl ⟨.comma, rfl, (Option.some.inj h).symm⟩)
  case h_10 => exact Or.inr (Or.inl ⟨.colon, rfl, (Option.some.inj h).symm⟩)
  case h_11 => exact Or.inr (Or.inr (Or.inl ⟨rfl, (Option.some.inj h).symm⟩))
  case h_12 =>
    obtain ⟨hword, h⟩ := Option.ite_none_right_eq_some.mp h
    exact Or.inr (Or.inr (Or.inr ⟨hword, (Option.some.inj h).symm⟩))

/-! ## What is read was spelled -/

/-- The characters that have been read, as far as the state of the lexer tells. -/
inductive Reads : List Char → Lexer → Prop
  | between {tokens : List ReadToken} {w : List Char} :
      Spaced tokens.reverse w → Reads w ⟨.between, tokens⟩
  | word {tokens : List ReadToken} {w letters : List Char} :
      Spaced tokens.reverse w → Reads (w ++ letters.reverse) ⟨.word letters, tokens⟩
  | string {tokens : List ReadToken} {w u : List Char} {pieces : List Piece} :
      Spaced tokens.reverse w → SpellsPieces pieces.reverse u →
        Reads (w ++ '"' :: u) ⟨.string pieces, tokens⟩
  | escape {tokens : List ReadToken} {w u : List Char} {pieces : List Piece} :
      Spaced tokens.reverse w → SpellsPieces pieces.reverse u →
        Reads (w ++ '"' :: (u ++ ['\\'])) ⟨.escape pieces, tokens⟩
  | codeUnit {tokens : List ReadToken} {w u digits : List Char} {pieces : List Piece}
      {missing value : Nat} :
      Spaced tokens.reverse w → SpellsPieces pieces.reverse u →
        digits.length + missing = 4 → 0 < missing →
        hexNumber? digits = some value →
        Reads (w ++ '"' :: (u ++ '\\' :: 'u' :: digits)) ⟨.codeUnit pieces missing value, tokens⟩

theorem Reads.start : Reads [] Lexer.start := .between (.space space_nil)

theorem Reads.push {tokens : List ReadToken} {w u : List Char} {t : ReadToken}
    (h : Spaced tokens.reverse w) (ht : t.Spells u) :
    Reads (w ++ u) (Lexer.push ⟨.between, tokens⟩ t) := by
  have hall : Spaced (tokens.reverse ++ [t]) (w ++ (u ++ [])) := h.token ht space_nil
  rw [← List.reverse_cons, List.append_nil] at hall
  exact .between hall

theorem Reads.open? {tokens : List ReadToken} {w : List Char} {s s' : Lexer} {c : Char}
    (hs : s.tokens = tokens) (h : Spaced tokens.reverse w) (hopen : s.open? c = some s') :
    Reads (w ++ [c]) s' := by
  subst hs
  rcases open?_cases hopen with ⟨hc, rfl⟩ | ⟨t, ht, rfl⟩ | ⟨rfl, rfl⟩ | ⟨hc, rfl⟩
  · exact .between (h.append_space (List.forall_mem_singleton.mpr hc))
  · exact .push h (.symbol ht)
  · exact .string h .nil
  · exact (Reads.word h : Reads (w ++ [c].reverse) _)

theorem Reads.closeWord? {tokens : List ReadToken} {w letters : List Char} {s s' : Lexer}
    (hs : s.tokens = tokens) (h : Spaced tokens.reverse w)
    (hclose : s.closeWord? letters = some s') :
    s'.mode = .between ∧ Spaced s'.tokens.reverse (w ++ letters.reverse) := by
  obtain ⟨t, ht, rfl⟩ := Option.map_eq_some_iff.mp hclose
  have hspells := ((Token.ofWord?_eq_some_iff _ _).mp ht).2
  have hall := h.token hspells space_nil
  subst hs
  exact ⟨rfl, by simpa [Lexer.push] using hall⟩

/-- One more character. -/
theorem Reads.step? {w : List Char} {s s' : Lexer} {c : Char} (h : Reads w s)
    (hstep : s.step? c = some s') : Reads (w ++ [c]) s' := by
  cases h with
  | between h => exact .open? rfl h hstep
  | @word tokens w letters h =>
      by_cases hc : isWordChar c = true
      · rw [Lexer.step?_word, if_pos hc, Option.some.injEq] at hstep
        rw [← hstep, List.append_assoc, ← List.reverse_cons]
        exact .word h
      · rw [Lexer.step?_word, if_neg hc, Option.bind_eq_some_iff] at hstep
        obtain ⟨r, hclose, hopen⟩ := hstep
        exact .open? rfl (Reads.closeWord? rfl h hclose).2 hopen
  | @string tokens w u pieces h hu =>
      by_cases hquote : c = '"'
      · rw [Lexer.step?_string, if_pos hquote, Option.some.injEq] at hstep
        rw [← hstep, hquote, List.append_assoc]
        exact .push h (.text hu)
      by_cases hslash : c = '\\'
      · rw [Lexer.step?_string, if_neg hquote, if_pos hslash, Option.some.injEq] at hstep
        rw [← hstep, hslash, List.append_assoc]
        exact .escape h hu
      · rw [Lexer.step?_string, if_neg hquote, if_neg hslash, Option.ite_none_left_eq_some] at hstep
        obtain ⟨hlow, hstep⟩ := hstep
        rw [← Option.some.inj hstep, List.append_assoc]
        have hpiece : Piece.Spells (.char c) [c] := .itself hquote hslash (Nat.le_of_not_lt hlow)
        exact .string h (List.reverse_cons ▸ hu.snoc hpiece)
  | @escape tokens w u pieces h hu =>
      by_cases hunit : c = 'u'
      · rw [Lexer.step?_escape, if_pos hunit, Option.some.injEq] at hstep
        rw [← hstep, hunit, List.append_assoc, List.cons_append, List.append_assoc]
        have hnone : hexNumber? [] = some 0 := rfl
        exact .codeUnit h hu rfl (by decide) hnone
      · rw [Lexer.step?_escape, if_neg hunit, Option.map_eq_some_iff] at hstep
        obtain ⟨d, hd, rfl⟩ := hstep
        rw [List.append_assoc, List.cons_append, List.append_assoc]
        exact .string h (List.reverse_cons ▸ hu.snoc (.named hd))
  | @codeUnit tokens w u digits pieces missing value h hu hlength hmissing hvalue =>
      rw [Lexer.step?_codeUnit, Option.map_eq_some_iff] at hstep
      obtain ⟨digit, hdigit, rfl⟩ := hstep
      have hmore : hexNumber? (digits ++ [c]) = some (value * 16 + digit) := by
        rw [hexNumber?_concat, hvalue, Option.bind_some, hdigit, Option.map_some]
      rw [List.append_assoc, List.cons_append, List.append_assoc, List.cons_append,
        List.cons_append]
      split
      · next hlast =>
        have hpiece : Piece.Spells (.unit (value * 16 + digit))
            ('\\' :: 'u' :: (digits ++ [c])) := .numbered (by simp; omega) hmore
        exact .string h (List.reverse_cons ▸ hu.snoc hpiece)
      · next hlast => exact .codeUnit h hu (by simp; omega) (by omega) hmore

theorem Reads.foldlM {w u : List Char} {s s' : Lexer} (h : Reads w s)
    (hrun : u.foldlM Lexer.step? s = some s') : Reads (w ++ u) s' := by
  induction u generalizing w s with
  | nil =>
      obtain rfl := Option.some.inj hrun
      rwa [List.append_nil]
  | cons c u ih =>
      rw [List.foldlM_cons] at hrun
      obtain ⟨r, hstep, hrest⟩ := Option.bind_eq_some_iff.mp hrun
      rw [List.append_cons]
      exact ih (h.step? hstep) hrest

theorem Reads.finish? {w : List Char} {s : Lexer} {ts : List ReadToken} (h : Reads w s)
    (hfinish : s.finish? = some ts) : Spaced ts w := by
  cases h with
  | between h =>
      obtain rfl := Option.some.inj hfinish
      exact h
  | word h =>
      obtain ⟨r, hclose, rfl⟩ := Option.map_eq_some_iff.mp hfinish
      exact (Reads.closeWord? rfl h hclose).2
  | string => exact nomatch hfinish
  | escape => exact nomatch hfinish
  | codeUnit => exact nomatch hfinish

/-- A text spells the tokens that are read from it. -/
theorem spaced_of_run? {w : List Char} {ts : List ReadToken} (h : run? w = some ts) :
    Spaced ts w := by
  obtain ⟨s, hrun, hfinish⟩ := Option.bind_eq_some_iff.mp h
  exact (Reads.start.foldlM hrun).finish? hfinish

/-! ## What is spelled is read -/

/-- The tokens that have been read, the last of which may be a word that can go on. -/
inductive Holds : List ReadToken → Lexer → Prop
  | between {ts : List ReadToken} : Holds ts ⟨.between, ts.reverse⟩
  | word {ts : List ReadToken} {letters : List Char} {t : ReadToken} :
      Token.ofWord? letters.reverse = some t → Holds (ts ++ [t]) ⟨.word letters, ts.reverse⟩

/-- A character that is not part of a word ends the one before it. -/
theorem Holds.step? {ts : List ReadToken} {s : Lexer} (h : Holds ts s) {c : Char}
    (hc : isWordChar c = false) : s.step? c = Lexer.open? ⟨.between, ts.reverse⟩ c := by
  cases h with
  | between => rfl
  | word ht =>
      rw [step?_word, if_neg (by simp [hc]), Lexer.closeWord?, ht, List.reverse_concat]
      rfl

/-- Only a word can go on. -/
theorem Holds.eq_between {ts : List ReadToken} {s : Lexer} (h : Holds ts s)
    (hlast : ∀ t ∈ ts.getLast?, t.isWord = false) : s = ⟨.between, ts.reverse⟩ := by
  cases h with
  | between => rfl
  | word ht =>
      have hword := ((Token.ofWord?_eq_some_iff _ _).mp ht).1
      rw [hlast _ (by simp)] at hword
      exact nomatch hword

theorem Holds.space {ts : List ReadToken} {s : Lexer} (h : Holds ts s) {a : List Char}
    (ha : Space a) : ∃ s', a.foldlM Lexer.step? s = some s' ∧ Holds ts s' := by
  induction a generalizing s with
  | nil => exact ⟨s, rfl, h⟩
  | cons c a ih =>
      obtain ⟨hc, ha⟩ := List.forall_mem_cons.mp ha
      obtain ⟨hopen, hword⟩ := open?_of_space ⟨.between, ts.reverse⟩ hc
      have hstep := (h.step? hword).trans hopen
      obtain ⟨s', hrun, hs'⟩ := ih Holds.between ha
      refine ⟨s', ?_, hs'⟩
      rw [List.foldlM_cons, hstep]
      exact hrun

theorem foldlM_word {tokens : List ReadToken} {letters w : List Char}
    (hw : ∀ c ∈ w, isWordChar c = true) :
    w.foldlM step? ⟨.word letters, tokens⟩ = some ⟨.word (w.reverse ++ letters), tokens⟩ := by
  induction w generalizing letters with
  | nil => rfl
  | cons c w ih =>
      obtain ⟨hc, hw⟩ := List.forall_mem_cons.mp hw
      have hstep : step? ⟨.word letters, tokens⟩ c = some ⟨.word (c :: letters), tokens⟩ :=
        if_pos hc
      rw [List.foldlM_cons, hstep, List.reverse_cons, List.append_assoc]
      exact ih hw

theorem foldlM_piece {tokens : List ReadToken} {pieces : List Piece} {p : Piece} {w : List Char}
    (h : p.Spells w) :
    w.foldlM step? ⟨.string pieces, tokens⟩ = some ⟨.string (p :: pieces), tokens⟩ := by
  cases h with
  | @itself c hquote hslash hlow =>
      have hstep : step? ⟨.string pieces, tokens⟩ c =
          some ⟨.string (.char c :: pieces), tokens⟩ := by
        rw [step?_string, if_neg hquote, if_neg hslash, if_neg (Nat.not_lt.mpr hlow)]
      rw [List.foldlM_cons, hstep]
      rfl
  | @named letter c hletter =>
      have hne : letter ≠ 'u' := by
        rintro rfl
        exact nomatch hletter
      have hstep : step? ⟨.escape pieces, tokens⟩ letter =
          some ⟨.string (.char c :: pieces), tokens⟩ := by
        rw [step?_escape, if_neg hne, hletter]
        rfl
      change (do let s ← step? ⟨.escape pieces, tokens⟩ letter; _) = _
      rw [hstep]
      rfl
  | @numbered digits n hlength hvalue =>
      obtain ⟨a, b, c, d, i, j, k, l, rfl, ha, hb, hc, hd, rfl⟩ :=
        exists_of_hexNumber? hlength hvalue
      simp [step?_string, step?_escape, step?_codeUnit, ha, hb, hc, hd]

theorem foldlM_pieces {tokens : List ReadToken} {ps : List Piece} {u : List Char}
    (h : SpellsPieces ps u) :
    u.foldlM step? ⟨.string [], tokens⟩ = some ⟨.string ps.reverse, tokens⟩ := by
  induction h with
  | nil => rfl
  | snoc _ hp ih =>
      rw [List.foldlM_append, ih, List.reverse_concat]
      exact foldlM_piece hp

/-- A token that is read after the others. -/
theorem Holds.token {ts : List ReadToken} {s : Lexer} (h : Holds ts s) {t : ReadToken}
    {u : List Char} (hu : t.Spells u)
    (hwords : t.isWord = true → ∀ t' ∈ ts.getLast?, t'.isWord = false) :
    ∃ s', u.foldlM Lexer.step? s = some s' ∧ Holds (ts ++ [t]) s' := by
  by_cases hword : t.isWord = true
  · obtain rfl := h.eq_between (hwords hword)
    obtain ⟨hne, hall⟩ := hu.isWordChar hword
    obtain ⟨c, w, rfl⟩ := List.exists_cons_of_ne_nil hne
    obtain ⟨hc, hw⟩ := List.forall_mem_cons.mp hall
    refine ⟨⟨.word (w.reverse ++ [c]), ts.reverse⟩, ?_, ?_⟩
    · have hopen : Lexer.step? ⟨.between, ts.reverse⟩ c = some ⟨.word [c], ts.reverse⟩ :=
        open?_of_isWordChar _ hc
      rw [List.foldlM_cons, hopen]
      exact foldlM_word hw
    · have hread : Token.ofWord? (w.reverse ++ [c]).reverse = some t := by
        rw [List.reverse_append, List.reverse_reverse]
        exact (Token.ofWord?_eq_some_iff _ _).mpr ⟨hword, hu⟩
      exact .word hread
  · have hpush : Holds (ts ++ [t]) (Lexer.push ⟨.between, ts.reverse⟩ t) := by
      rw [Lexer.push, ← List.reverse_concat]
      exact .between
    refine ⟨_, ?_, hpush⟩
    cases hu with
    | @symbol t c hc =>
        have hstep := (h.step? (Token.isWordChar_of_symbol? hc)).trans (open?_of_symbol? _ hc)
        rw [List.foldlM_cons, hstep]
        rfl
    | null => exact absurd rfl hword
    | yes => exact absurd rfl hword
    | no => exact absurd rfl hword
    | number => exact absurd rfl hword
    | @text ps u hps =>
        have hopen : s.step? '"' = some ⟨.string [], ts.reverse⟩ := h.step? rfl
        have hclose : ['"'].foldlM Lexer.step? ⟨.string ps.reverse, ts.reverse⟩ =
            some (Lexer.push ⟨.between, ts.reverse⟩
              (.text ((joinPieces ps).map String.ofList))) := by
          rw [List.foldlM_cons, step?_string, if_pos rfl, List.reverse_reverse]
          rfl
        rw [List.foldlM_cons, hopen]
        change (u ++ _).foldlM Lexer.step? _ = _
        rw [List.foldlM_append, foldlM_pieces hps]
        exact hclose

theorem Holds.finish? {ts : List ReadToken} {s : Lexer} (h : Holds ts s) :
    s.finish? = some ts := by
  cases h with
  | between => exact congrArg some ts.reverse_reverse
  | @word ts letters t ht =>
      have hclose : Lexer.closeWord? ⟨.word letters, ts.reverse⟩ letters =
          some ⟨.between, t :: ts.reverse⟩ := by
        rw [Lexer.closeWord?, ht]
        rfl
      have hfinish : Lexer.finish? ⟨.word letters, ts.reverse⟩ =
          (Lexer.closeWord? ⟨.word letters, ts.reverse⟩ letters).map (·.tokens.reverse) := rfl
      rw [hfinish, hclose, Option.map_some, List.reverse_cons, List.reverse_reverse]

/-- Two tokens that are not both words. -/
def Apart (t t' : ReadToken) : Prop := t.isWord = true → t'.isWord = false

theorem exists_holds_of_spaced {ts : List ReadToken} {w : List Char} (h : Spaced ts w)
    (hts : ts.IsChain Apart) : ∃ s, w.foldlM step? start = some s ∧ Holds ts s := by
  induction h with
  | space ha => exact (Holds.between : Holds [] start).space ha
  | @token ts w t u a _ ht ha ih =>
      obtain ⟨hts, -, hlast⟩ := List.isChain_append.mp hts
      obtain ⟨s, hw, hs⟩ := ih hts
      have hwords : t.isWord = true → ∀ t' ∈ ts.getLast?, t'.isWord = false := by
        intro hword t' ht'
        by_contra hword'
        have hapart := hlast t' ht' t rfl (Bool.not_eq_false _ ▸ hword')
        rw [hword] at hapart
        exact nomatch hapart
      obtain ⟨r, hu, hr⟩ := hs.token ht hwords
      obtain ⟨s', ha, hs'⟩ := hr.space ha
      refine ⟨s', ?_, hs'⟩
      rw [List.foldlM_append, hw]
      change (u ++ a).foldlM step? s = _
      rw [List.foldlM_append, hu]
      exact ha

/-- Spelled tokens are read, unless two words meet. -/
theorem run?_of_spaced {ts : List ReadToken} {w : List Char} (h : Spaced ts w)
    (hts : ts.IsChain Apart) : run? w = some ts := by
  obtain ⟨s, hw, hs⟩ := exists_holds_of_spaced h hts
  rw [run?, hw]
  exact hs.finish?

end Lexer

end Json

end QueryAlgebra
