import Mathlib.Tactic.Common
import QueryAlgebra.Json.Lexer

/-!
# The grammar of JSON strings

`Json.Piece.Spells` is how a piece of a string is written: as itself, by a backslash and a
letter, or as a UTF-16 code unit by its number. What the pieces mean does not depend on which of
these is chosen: `joinPieces_eq_some_iff` says that they make the string whose UTF-16 form they
are, and no string where there is none.
-/

namespace QueryAlgebra

namespace Json

open Text (hexNumber? hexValue?_lt exists_of_hexNumber?)

/-- The spellings of a piece. -/
inductive Piece.Spells : Piece → List Char → Prop
  | itself {c : Char} : c ≠ '"' → c ≠ '\\' → 0x20 ≤ c.toNat → Piece.Spells (.char c) [c]
  | named {letter c : Char} : unescape? letter = some c → Piece.Spells (.char c) ['\\', letter]
  | numbered {digits : List Char} {n : Nat} :
      digits.length = 4 → hexNumber? digits = some n →
        Piece.Spells (.unit n) ('\\' :: 'u' :: digits)

/-- The spellings of pieces in a row. -/
inductive SpellsPieces : List Piece → List Char → Prop
  | nil : SpellsPieces [] []
  | snoc {ps : List Piece} {u : List Char} {p : Piece} {w : List Char} :
      SpellsPieces ps u → p.Spells w → SpellsPieces (ps ++ [p]) (u ++ w)

theorem SpellsPieces.append {ps qs : List Piece} {u w : List Char} (hp : SpellsPieces ps u)
    (hq : SpellsPieces qs w) : SpellsPieces (ps ++ qs) (u ++ w) := by
  induction hq with
  | nil => simpa using hp
  | snoc _ h ih =>
      rw [← List.append_assoc, ← List.append_assoc]
      exact ih.snoc h

theorem SpellsPieces.single {p : Piece} {w : List Char} (h : p.Spells w) :
    SpellsPieces [p] w :=
  SpellsPieces.nil.snoc h

/-! ## Code units -/

/-- The UTF-16 form of a character: one unit, or a surrogate pair. -/
def units (c : Char) : List Nat :=
  if c.toNat < 0x10000 then [c.toNat]
  else [0xD800 + (c.toNat - 0x10000) / 0x400, 0xDC00 + (c.toNat - 0x10000) % 0x400]

/-- The code units that a piece stands for. -/
def Piece.units : Piece → List Nat
  | .char c => Json.units c
  | .unit n => [n]

/-- The piece is a code unit in the proper sense. -/
def Piece.Fits : Piece → Prop
  | .char _ => True
  | .unit n => n < 0x10000

theorem toNat_ranges (c : Char) :
    c.toNat < 0xD800 ∨ (0xE000 ≤ c.toNat ∧ c.toNat < 0x110000) := by
  have h : c.toNat.isValidChar := c.valid
  simp only [Nat.isValidChar] at h
  omega

theorem toNat_ofNat {n : Nat} (h : n.isValidChar) : (Char.ofNat n).toNat = n := by
  rw [Char.ofNat, dif_pos h]
  rfl

/-- The first unit of a character, and the second one where there are two. -/
theorem units_cases (c : Char) :
    (units c = [c.toNat] ∧ isLeading c.toNat = false ∧ isTrailing c.toNat = false) ∨
      ∃ n m, units c = [n, m] ∧ isLeading n = true ∧ isTrailing m = true ∧
        c.toNat = 0x10000 + (n - 0xD800) * 0x400 + (m - 0xDC00) := by
  have hranges := toNat_ranges c
  by_cases h : c.toNat < 0x10000
  · left
    refine ⟨if_pos h, ?_⟩
    simp only [isLeading, isTrailing, Bool.and_eq_false_iff, decide_eq_false_iff_not]
    omega
  · right
    refine ⟨_, _, if_neg h, ?_⟩
    simp only [isLeading, isTrailing, Bool.and_eq_true, decide_eq_true_eq]
    omega

theorem units_ofNat {n : Nat} (hfits : n < 0x10000) (hleading : isLeading n = false)
    (htrailing : isTrailing n = false) : units (Char.ofNat n) = [n] := by
  have hvalid : n.isValidChar := by
    simp only [isLeading, isTrailing, Bool.and_eq_false_iff, decide_eq_false_iff_not] at *
    simp only [Nat.isValidChar]
    omega
  rw [units, toNat_ofNat hvalid, if_pos hfits]

theorem units_ofNat_pair {n m : Nat} (hn : isLeading n = true) (hm : isTrailing m = true) :
    units (Char.ofNat (0x10000 + (n - 0xD800) * 0x400 + (m - 0xDC00))) = [n, m] := by
  simp only [isLeading, isTrailing, Bool.and_eq_true, decide_eq_true_eq] at hn hm
  have hvalid : (0x10000 + (n - 0xD800) * 0x400 + (m - 0xDC00)).isValidChar := by
    simp only [Nat.isValidChar]
    omega
  have hfirst : 0xD800 + (0x10000 + (n - 0xD800) * 0x400 + (m - 0xDC00) - 0x10000) / 0x400 =
      n := by
    omega
  have hsecond : 0xDC00 + (0x10000 + (n - 0xD800) * 0x400 + (m - 0xDC00) - 0x10000) % 0x400 =
      m := by
    omega
  rw [units, toNat_ofNat hvalid, if_neg (by omega), hfirst, hsecond]

/-- A leading unit is never a whole character, so the forms of two characters are never the
beginning of one another. -/
theorem units_append_inj {c d : Char} {us vs : List Nat}
    (h : units c ++ us = units d ++ vs) : c = d ∧ us = vs := by
  rcases units_cases c with ⟨hc, hlead, -⟩ | ⟨n, m, hc, hlead, -, hcn⟩ <;>
    rcases units_cases d with ⟨hd, hlead', -⟩ | ⟨n', m', hd, hlead', -, hdn⟩ <;>
    rw [hc, hd] at h
  · obtain ⟨heq, rfl⟩ := List.cons.inj h
    exact ⟨Char.toNat_inj.mp heq, rfl⟩
  · obtain ⟨rfl, -⟩ := List.cons.inj h
    rw [hlead] at hlead'
    exact nomatch hlead'
  · obtain ⟨rfl, -⟩ := List.cons.inj h
    rw [hlead] at hlead'
    exact nomatch hlead'
  · simp only [List.cons_append, List.nil_append, List.cons.injEq] at h
    obtain ⟨rfl, rfl, rfl⟩ := h
    exact ⟨Char.toNat_inj.mp (hcn.trans hdn.symm), rfl⟩

/-! ## Strings of pieces -/

theorem flatMap_units_of_joinPieces {ps : List Piece} {cs : List Char}
    (hfits : ∀ p ∈ ps, p.Fits) (h : joinPieces ps = some cs) :
    ps.flatMap Piece.units = cs.flatMap units := by
  fun_induction joinPieces ps generalizing cs with
  | case1 =>
      obtain rfl := Option.some.inj h
      rfl
  | case2 c rest ih =>
      obtain ⟨ds, hds, rfl⟩ := Option.map_eq_some_iff.mp h
      rw [List.forall_mem_cons] at hfits
      rw [List.flatMap_cons, ih hfits.2 hds, List.flatMap_cons]
      rfl
  | case3 n m rest hn hm ih =>
      obtain ⟨ds, hds, rfl⟩ := Option.map_eq_some_iff.mp h
      rw [List.forall_mem_cons, List.forall_mem_cons] at hfits
      rw [List.flatMap_cons, List.flatMap_cons, ih hfits.2.2 hds, List.flatMap_cons,
        units_ofNat_pair hn hm]
      rfl
  | case4 => exact nomatch h
  | case5 => exact nomatch h
  | case6 n m rest hn hm ih =>
      obtain ⟨ds, hds, rfl⟩ := Option.map_eq_some_iff.mp h
      rw [List.forall_mem_cons] at hfits
      rw [Bool.not_eq_true] at hn hm
      rw [List.flatMap_cons, ih hfits.2 hds, List.flatMap_cons, units_ofNat hfits.1 hn hm]
      rfl
  | case7 => exact nomatch h
  | case8 n rest _ hn ih =>
      obtain ⟨ds, hds, rfl⟩ := Option.map_eq_some_iff.mp h
      rw [List.forall_mem_cons] at hfits
      rw [Bool.not_eq_true, Bool.or_eq_false_iff] at hn
      rw [List.flatMap_cons, ih hfits.2 hds, List.flatMap_cons, units_ofNat hfits.1 hn.1 hn.2]
      rfl

/-- A leading unit is the first of a pair, so the character of this pair comes first. -/
theorem eq_cons_of_leading {n : Nat} {us : List Nat} {cs : List Char} (hn : isLeading n = true)
    (h : n :: us = cs.flatMap units) :
    ∃ m ds, isTrailing m = true ∧
      cs = Char.ofNat (0x10000 + (n - 0xD800) * 0x400 + (m - 0xDC00)) :: ds ∧
      us = m :: ds.flatMap units := by
  cases cs with
  | nil => exact nomatch h
  | cons d ds =>
      rw [List.flatMap_cons] at h
      rcases units_cases d with ⟨hd, hlead, -⟩ | ⟨k, m, hd, -, htrail, hdk⟩
      · rw [hd] at h
        obtain ⟨rfl, -⟩ := List.cons.inj h
        rw [hn] at hlead
        exact nomatch hlead
      · rw [hd] at h
        obtain ⟨rfl, rfl⟩ := List.cons.inj h
        refine ⟨m, ds, htrail, ?_, rfl⟩
        rw [← hdk, Char.ofNat_toNat]

/-- Any other unit is a character by itself, so it is not a trailing one. -/
theorem eq_cons_of_not_leading {n : Nat} {us : List Nat} {cs : List Char}
    (hn : isLeading n = false) (h : n :: us = cs.flatMap units) :
    ∃ ds, isTrailing n = false ∧ cs = Char.ofNat n :: ds ∧ us = ds.flatMap units := by
  cases cs with
  | nil => exact nomatch h
  | cons d ds =>
      rw [List.flatMap_cons] at h
      rcases units_cases d with ⟨hd, -, htrail⟩ | ⟨k, m, hd, hlead, -, -⟩
      · rw [hd] at h
        obtain ⟨rfl, rfl⟩ := List.cons.inj h
        exact ⟨ds, htrail, by rw [Char.ofNat_toNat], rfl⟩
      · rw [hd] at h
        obtain ⟨rfl, -⟩ := List.cons.inj h
        rw [hn] at hlead
        exact nomatch hlead

/-- No character begins with a trailing unit. -/
theorem isTrailing_eq_false_of_units {c : Char} {n : Nat} {us vs : List Nat}
    (h : units c ++ us = n :: vs) : isTrailing n = false := by
  rcases units_cases c with ⟨hc, -, htrail⟩ | ⟨k, m, hc, hlead, -, -⟩
  · rw [hc] at h
    obtain ⟨rfl, -⟩ := List.cons.inj h
    exact htrail
  · rw [hc] at h
    obtain ⟨rfl, -⟩ := List.cons.inj h
    simp only [isLeading, Bool.and_eq_true, decide_eq_true_eq] at hlead
    simp only [isTrailing, Bool.and_eq_false_iff, decide_eq_false_iff_not]
    omega

theorem joinPieces_of_flatMap_units {ps : List Piece} {cs : List Char}
    (h : ps.flatMap Piece.units = cs.flatMap units) : joinPieces ps = some cs := by
  fun_induction joinPieces ps generalizing cs with
  | case1 =>
      cases cs with
      | nil => rfl
      | cons d ds =>
          rcases units_cases d with ⟨hd, -⟩ | ⟨n, m, hd, -⟩ <;> simp [hd] at h
  | case2 c rest ih =>
      cases cs with
      | nil =>
          rcases units_cases c with ⟨hc, -⟩ | ⟨n, m, hc, -⟩ <;> simp [Piece.units, hc] at h
      | cons d ds =>
          obtain ⟨rfl, hrest⟩ := units_append_inj h
          rw [ih hrest, Option.map_some]
  | case3 n m rest hn hm ih =>
      obtain ⟨k, ds, -, rfl, hrest⟩ := eq_cons_of_leading hn h
      obtain ⟨rfl, hds⟩ : m = k ∧ rest.flatMap Piece.units = ds.flatMap units :=
        List.cons.inj hrest
      rw [ih hds, Option.map_some]
  | case4 n m rest hn hm =>
      obtain ⟨k, ds, htrail, -, hrest⟩ := eq_cons_of_leading hn h
      obtain ⟨rfl, -⟩ : m = k ∧ rest.flatMap Piece.units = ds.flatMap units :=
        List.cons.inj hrest
      exact absurd htrail hm
  | case5 n m rest hn hm =>
      obtain ⟨ds, htrail, -, -⟩ := eq_cons_of_not_leading (Bool.not_eq_true _ ▸ hn) h
      rw [hm] at htrail
      exact nomatch htrail
  | case6 n m rest hn hm ih =>
      obtain ⟨ds, -, rfl, hrest⟩ := eq_cons_of_not_leading (Bool.not_eq_true _ ▸ hn) h
      rw [ih hrest, Option.map_some]
  | case7 n rest hrest hn =>
      by_cases hlead : isLeading n = true
      · -- the unit that would complete the pair belongs to a character of its own
        obtain ⟨k, ds, htrail, -, hafter⟩ := eq_cons_of_leading hlead h
        rcases rest with _ | ⟨_ | m, rest⟩
        · exact nomatch hafter
        · rw [isTrailing_eq_false_of_units hafter] at htrail
          exact nomatch htrail
        · exact absurd rfl (hrest m rest)
      · rw [Bool.not_eq_true] at hlead
        obtain ⟨ds, htrail, -, -⟩ := eq_cons_of_not_leading hlead h
        rw [hlead, htrail] at hn
        exact nomatch hn
  | case8 n rest _ hn ih =>
      rw [Bool.not_eq_true, Bool.or_eq_false_iff] at hn
      obtain ⟨ds, -, rfl, hrest⟩ := eq_cons_of_not_leading hn.1 h
      rw [ih hrest, Option.map_some]

theorem Piece.Spells.fits {p : Piece} {w : List Char} (h : p.Spells w) : p.Fits := by
  cases h with
  | itself => trivial
  | named => trivial
  | @numbered digits n hlength hvalue =>
      obtain ⟨a, b, c, d, i, j, k, l, -, ha, hb, hc, hd, rfl⟩ :=
        exists_of_hexNumber? hlength hvalue
      have hi := hexValue?_lt ha
      have hj := hexValue?_lt hb
      have hk := hexValue?_lt hc
      have hl := hexValue?_lt hd
      change _ < 0x10000
      omega

theorem SpellsPieces.fits {ps : List Piece} {u : List Char} (h : SpellsPieces ps u) :
    ∀ p ∈ ps, p.Fits := by
  induction h with
  | nil => exact List.forall_mem_nil _
  | snoc _ hp ih => exact List.forall_mem_append.mpr ⟨ih, List.forall_mem_singleton.mpr hp.fits⟩

/-- Pieces make the string whose UTF-16 form they are. -/
theorem SpellsPieces.joinPieces_eq_some_iff {ps : List Piece} {u : List Char}
    (h : SpellsPieces ps u) (cs : List Char) :
    joinPieces ps = some cs ↔ ps.flatMap Piece.units = cs.flatMap units :=
  ⟨flatMap_units_of_joinPieces h.fits, joinPieces_of_flatMap_units⟩

end Json

end QueryAlgebra
