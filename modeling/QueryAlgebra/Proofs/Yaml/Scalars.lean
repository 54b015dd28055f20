import QueryAlgebra.Json.Token
import QueryAlgebra.Proofs.Json.Writing
import QueryAlgebra.Yaml.Lexer

/-!
# JSON strings as YAML scalars

In a YAML text a JSON string is a double-quoted scalar, provided that it has only characters up
to the tilde: every escape of JSON is one of YAML with the same meaning, and blanks in a line are
kept, also those at the ends. What `scan?_quoted` says of a string is put together from what
`scan?_escape` says of a character.

The characters that are written take one column and one octet each, so reading some of them
only moves the position (`Lexer.shift`).
-/

namespace QueryAlgebra

namespace Yaml

open Json (escape quoted)
open Text (hexDigit hexNumber?_octet)

/-- A character of a JSON text that is written in ASCII. -/
def Visible (c : Char) : Prop := 0x20 ≤ c.toNat ∧ c.toNat ≤ 0x7E

instance (c : Char) : Decidable (Visible c) := inferInstanceAs (Decidable (_ ∧ _))

theorem visible_of_all {w : List Char} (h : (w.all fun c => decide (Visible c)) = true) :
    ∀ c ∈ w, Visible c := by
  simpa using h

theorem Visible.isBreak {c : Char} (h : Visible c) : isBreak c = false := by
  have hne : c ≠ '\n' := by
    rintro rfl
    exact absurd h.1 (by decide)
  have hlow := h.2
  simp only [Yaml.isBreak, Bool.or_eq_false_iff, beq_eq_false_iff_ne]
  exact ⟨⟨hne, by omega⟩, by omega⟩

theorem Visible.utf8Size {c : Char} (h : Visible c) : c.utf8Size = 1 := by
  have hval : c.val.toNat ≤ 0x7E := h.2
  have hle : c.val ≤ 0x7F := by
    rw [UInt32.le_iff_toNat_le]
    exact Nat.le_trans hval (by decide)
  exact Char.utf8Size_eq_one_iff.mpr hle

/-- A tab has an escape, so a space is the only blank that stands for itself. -/
theorem Visible.isBlank_iff {c : Char} (h : Visible c) : isBlank c = true ↔ c = ' ' := by
  have hne : c ≠ '\t' := by
    rintro rfl
    exact absurd h.1 (by decide)
  simp [isBlank, hne]

theorem visible_hexDigit (n : Nat) : Visible (hexDigit n) := by
  have hdigits : ∀ d < 16, Visible (Nat.digitChar d) := by decide
  exact hdigits _ (Nat.mod_lt _ (by decide))

/-- What is written for a character is visible, as far as the character itself is ASCII. -/
theorem visible_escape {c : Char} (h : c.toNat ≤ 0x7E) : ∀ d ∈ escape c, Visible d := by
  fun_cases escape c with
  | case8 =>
      have hplain : ∀ d ∈ ['\\', 'u', '0', '0'], Visible d := visible_of_all rfl
      have hdigits : ∀ d ∈ [hexDigit (c.toNat / 16), hexDigit c.toNat], Visible d := by
        simp only [List.forall_mem_cons]
        exact ⟨visible_hexDigit _, visible_hexDigit _, List.forall_mem_nil _⟩
      exact List.forall_mem_append.mpr ⟨hplain, hdigits⟩
  | case9 _ _ _ _ _ _ _ hlow =>
      exact List.forall_mem_singleton.mpr ⟨Nat.le_of_not_lt hlow, h⟩
  | _ => exact visible_of_all rfl

namespace Lexer

/-! ## Positions -/

/-- The state further on in the line. -/
def shift (s : Lexer) (n : Nat) : Lexer :=
  { s with column := s.column + n, offset := s.offset + n }

theorem shift_shift (s : Lexer) (m n : Nat) : (s.shift m).shift n = s.shift (m + n) := by
  simp only [shift, Nat.add_assoc]

theorem shift_column_ne_zero {s : Lexer} (h : s.column ≠ 0) (n : Nat) :
    (s.shift n).column ≠ 0 :=
  fun hzero => h (Nat.eq_zero_of_add_eq_zero_right hzero)

theorem advance_eq_shift (s : Lexer) {c : Char} (h : Visible c) : s.advance c = s.shift 1 := by
  rw [advance, h.isBreak, h.utf8Size]
  rfl

theorem scan?_pass (s : Lexer) {w : List Char} (hw : ∀ c ∈ w, Visible c) (rest : List Char) :
    s.scan? w.length (w ++ rest) = (s.shift w.length).scan? 0 rest := by
  induction w generalizing s with
  | nil => rfl
  | cons c w ih =>
      obtain ⟨hc, hw⟩ := List.forall_mem_cons.mp hw
      rw [List.length_cons, List.cons_append, scan?, advance_eq_shift s hc, ih _ hw, shift_shift,
        Nat.add_comm 1]

theorem scan?_one {s s' : Lexer} {c : Char} {rest : List Char} (hc : Visible c)
    (h : s.step? c rest = some (s', 0)) : s.scan? 0 (c :: rest) = (s'.shift 1).scan? 0 rest := by
  have hstep : s.scan? 0 (c :: rest) = (s'.advance c).scan? 0 rest := by
    rw [scan?, h]
    rfl
  rw [hstep, advance_eq_shift s' hc]

/-- A step that takes some characters along. -/
theorem scan?_step {s s' : Lexer} {c : Char} {w rest : List Char} (hc : Visible c)
    (hw : ∀ d ∈ w, Visible d) (h : s.step? c (w ++ rest) = some (s', w.length)) :
    s.scan? 0 (c :: (w ++ rest)) = (s'.shift (w.length + 1)).scan? 0 rest := by
  have hstep : s.scan? 0 (c :: (w ++ rest)) = (s'.advance c).scan? w.length (w ++ rest) := by
    rw [scan?, h]
    rfl
  rw [hstep, advance_eq_shift s' hc, scan?_pass _ hw, shift_shift, Nat.add_comm 1]

end Lexer

/-! ## Quoted scalars -/

/-- The characters of the text, in reverse, when the gap at its end belongs to it. -/
def Folded.content (f : Folded) : List Char := f.gap.reversed ++ f.text

/-- A blank that does not follow a line break is kept. -/
theorem Folded.content_space {f : Folded} (hgap : f.gap.hasBreak = false) :
    (f.space ' ').gap.hasBreak = false ∧ (f.space ' ').content = ' ' :: f.content := by
  obtain ⟨text, gap⟩ := f
  cases gap with
  | none => exact ⟨rfl, rfl⟩
  | blanks => exact ⟨rfl, rfl⟩
  | breaks => exact nomatch hgap

/-- The code unit of a control character is its number. -/
theorem readEscape?_control {c : Char} (h : c.toNat < 0x20) (rest : List Char) :
    readEscape? ('u' :: '0' :: '0' :: hexDigit (c.toNat / 16) :: hexDigit c.toNat :: rest) =
      some (c, 5) := by
  have hoctet : c.toNat < 0x100 := by omega
  have hvalid : c.toNat.isValidChar := c.valid
  simp [readEscape?, escapeWidth?, hexNumber?_octet hoctet, hvalid]

/-- What is written for a character adds this character to the scalar. -/
theorem step_escape {c : Char} (h : c.toNat ≤ 0x7E) {f : Folded}
    (hgap : f.gap.hasBreak = false) (rest : List Char) :
    ∃ d w f', escape c = d :: w ∧ f'.gap.hasBreak = false ∧ f'.content = c :: f.content ∧
      Quote.double.step f d (w ++ rest) = .continues f' w.length := by
  fun_cases escape c with
  | case8 _ _ _ _ _ _ _ hlow =>
      refine ⟨'\\', ['u', '0', '0', hexDigit (c.toNat / 16), hexDigit c.toNat], f.push c, rfl, rfl,
        rfl, ?_⟩
      have hread := readEscape?_control hlow rest
      simp [Quote.step, isBlank, isBreak, hread]
  | case9 hquote hslash _ _ _ _ _ hlow =>
      have hc : Visible c := ⟨Nat.le_of_not_lt hlow, h⟩
      by_cases hspace : c = ' '
      · subst hspace
        obtain ⟨hkept, hcontent⟩ := Folded.content_space hgap
        exact ⟨' ', [], f.space ' ', rfl, hkept, hcontent, rfl⟩
      · have hblank : isBlank c = false := by
          rw [Bool.eq_false_iff, Ne, hc.isBlank_iff]
          exact hspace
        refine ⟨c, [], f.push c, rfl, rfl, rfl, ?_⟩
        simp [Quote.step, hblank, hc.isBreak, hquote, hslash]
  | _ =>
      subst_vars
      exact ⟨'\\', [_], f.push _, rfl, rfl, rfl, rfl⟩

namespace Lexer

/-- The state within a quoted scalar. -/
def within (s : Lexer) (f : Folded) : Lexer := { s with mode := .quoted .double f }

theorem step?_within {s : Lexer} (hcolumn : s.column ≠ 0) (f : Folded) (c : Char)
    (rest : List Char) :
    (s.within f).step? c rest =
      match Quote.double.step f c rest with
      | .continues f' taken => some (s.within f', taken)
      | .ended f' => some (s.pushScalar .quoted f'.toString, 0)
      | .failed => none := by
  have hmark : ¬((s.within f).column = 0 ∧ isDocumentMark c rest = true) := fun h => hcolumn h.1
  change (s.within f).quoted? .double f c rest = _
  rw [quoted?, if_neg hmark]
  rfl

theorem scan?_escape {s : Lexer} (hcolumn : s.column ≠ 0) {c : Char} (hc : c.toNat ≤ 0x7E)
    {f : Folded} (hgap : f.gap.hasBreak = false) (rest : List Char) :
    ∃ f' : Folded, f'.gap.hasBreak = false ∧ f'.content = c :: f.content ∧
      (s.within f).scan? 0 (escape c ++ rest) =
        ((s.shift (escape c).length).within f').scan? 0 rest := by
  obtain ⟨d, w, f', hescape, hgap', hcontent, hstep⟩ := step_escape hc hgap rest
  have hvisible := visible_escape hc
  rw [hescape, List.forall_mem_cons] at hvisible
  refine ⟨f', hgap', hcontent, ?_⟩
  have htaken : (s.within f).step? d (w ++ rest) = some (s.within f', w.length) := by
    rw [step?_within hcolumn, hstep]
  rw [hescape, List.cons_append, scan?_step hvisible.1 hvisible.2 htaken, List.length_cons]
  rfl

theorem scan?_flatMap_escape {s : Lexer} (hcolumn : s.column ≠ 0) {cs : List Char}
    (hcs : ∀ c ∈ cs, c.toNat ≤ 0x7E) {f : Folded} (hgap : f.gap.hasBreak = false)
    (rest : List Char) :
    ∃ f' : Folded, f'.content = cs.reverse ++ f.content ∧
      (s.within f).scan? 0 (cs.flatMap escape ++ rest) =
        ((s.shift (cs.flatMap escape).length).within f').scan? 0 rest := by
  induction cs generalizing s f with
  | nil => exact ⟨f, rfl, rfl⟩
  | cons c cs ih =>
      obtain ⟨hc, hcs⟩ := List.forall_mem_cons.mp hcs
      obtain ⟨g, hgap', hcontent, hfirst⟩ :=
        scan?_escape hcolumn hc hgap (cs.flatMap escape ++ rest)
      have hcolumn' := shift_column_ne_zero hcolumn (escape c).length
      obtain ⟨f', hcontent', hlater⟩ := ih hcolumn' hcs hgap'
      refine ⟨f', ?_, ?_⟩
      · rw [hcontent', hcontent]
        simp
      · rw [List.flatMap_cons, List.append_assoc, hfirst, hlater, shift_shift,
          List.length_append]

/-- The rest of a quoted string, after its first quote. -/
theorem scan?_quoted {s : Lexer} (hcolumn : s.column ≠ 0) {cs : List Char}
    (hcs : ∀ c ∈ cs, c.toNat ≤ 0x7E) (rest : List Char) :
    (s.within {}).scan? 0 (cs.flatMap escape ++ '"' :: rest) =
      ((s.pushScalar .quoted (String.ofList cs)).shift
        ((cs.flatMap escape).length + 1)).scan? 0 rest := by
  obtain ⟨f, hcontent, hbody⟩ := scan?_flatMap_escape (f := {}) hcolumn hcs rfl ('"' :: rest)
  have hend : (((s.shift (cs.flatMap escape).length).within f)).step? '"' rest =
      some ((s.pushScalar .quoted (String.ofList cs)).shift (cs.flatMap escape).length, 0) := by
    have htext : f.settle.toString = String.ofList cs := by
      have hreverse : f.settle.text = cs.reverse := by
        change f.content = _
        rw [hcontent]
        exact List.append_nil _
      rw [Folded.toString, hreverse, List.reverse_reverse]
    rw [step?_within (shift_column_ne_zero hcolumn _)]
    change some (pushScalar _ _ f.settle.toString, 0) = _
    rw [htext]
    rfl
  have hquote : Visible '"' := by decide
  rw [hbody, scan?_one hquote hend, shift_shift]

end Lexer

/-! ## Plain scalars -/

/-- A character of a word is a letter, a digit or one of three signs. -/
theorem toNat_of_isWordChar {c : Char} (h : Json.isWordChar c = true) :
    (48 ≤ c.toNat ∧ c.toNat ≤ 57) ∨ (65 ≤ c.toNat ∧ c.toNat ≤ 90) ∨
      (97 ≤ c.toNat ∧ c.toNat ≤ 122) ∨ c = '+' ∨ c = '-' ∨ c = '.' := by
  have hrange : ∀ {low high : UInt32}, low ≤ c.val → c.val ≤ high →
      low.toNat ≤ c.toNat ∧ c.toNat ≤ high.toNat := fun hlow hhigh =>
    ⟨UInt32.le_iff_toNat_le.mp hlow, UInt32.le_iff_toNat_le.mp hhigh⟩
  simp only [Json.isWordChar, Bool.or_eq_true, beq_iff_eq] at h
  rcases h with ((halphanum | rfl) | rfl) | rfl
  · rcases Bool.or_eq_true_iff.mp halphanum with halpha | hdigit
    · rcases Bool.or_eq_true_iff.mp halpha with hupper | hlower
      · obtain ⟨hlow, hhigh⟩ := of_decide_eq_true hupper
        exact Or.inr (Or.inl (hrange hlow hhigh))
      · obtain ⟨hlow, hhigh⟩ := Bool.and_eq_true_iff.mp hlower
        exact Or.inr (Or.inr (Or.inl
          (hrange (of_decide_eq_true hlow) (of_decide_eq_true hhigh))))
    · obtain ⟨hlow, hhigh⟩ := Bool.and_eq_true_iff.mp hdigit
      exact Or.inl (hrange (of_decide_eq_true hlow) (of_decide_eq_true hhigh))
  all_goals simp

theorem ne_of_isWordChar {c d : Char} (hc : Json.isWordChar c = true)
    (hd : Json.isWordChar d = false) : c ≠ d := by
  rintro rfl
  rw [hc] at hd
  exact nomatch hd

/-- A character of a word has no meaning of its own in a plain scalar. -/
structure Wordy (c : Char) : Prop where
  visible : Visible c
  blank : isBlank c = false
  indicator : isFlowIndicator c = false
  colon : c ≠ ':'
  hash : c ≠ '#'

theorem wordy_of_isWordChar {c : Char} (h : Json.isWordChar c = true) : Wordy c := by
  have hranges := toNat_of_isWordChar h
  have hne : ∀ d : Char, Json.isWordChar d = false → c ≠ d := fun _ => ne_of_isWordChar h
  have hvisible : Visible c := by
    rcases hranges with hr | hr | hr | rfl | rfl | rfl
    · exact ⟨by omega, by omega⟩
    · exact ⟨by omega, by omega⟩
    · exact ⟨by omega, by omega⟩
    all_goals decide
  refine ⟨hvisible, ?_, ?_, hne ':' rfl, hne '#' rfl⟩
  · simp [isBlank, hne ' ' rfl, hne '\t' rfl]
  · simp [isFlowIndicator, hne ',' rfl, hne '[' rfl, hne ']' rfl, hne '{' rfl, hne '}' rfl]

namespace Lexer

/-- The state within a plain scalar without blanks; the text is in reverse. -/
def withinWord (s : Lexer) (text : List Char) : Lexer := { s with mode := .plain ⟨text, .none⟩ }

theorem step?_withinWord (s : Lexer) (text : List Char) {c : Char} (hc : Wordy c)
    (rest : List Char) : (s.withinWord text).step? c rest = some (s.withinWord (c :: text), 0) := by
  change (s.withinWord text).plain? ⟨text, .none⟩ c rest = _
  have hcolon : (c == ':') = false := beq_false_of_ne hc.colon
  have hend : (s.withinWord text).endsPlain ⟨text, .none⟩ c rest = false := by
    simp [endsPlain, hcolon, hc.indicator]
  simp only [plain?, hc.blank, hc.visible.isBreak, hend, hcolon]
  simp
  rfl

theorem scan?_word (s : Lexer) {w : List Char} (hw : ∀ c ∈ w, Wordy c) (text : List Char)
    (rest : List Char) :
    (s.withinWord text).scan? 0 (w ++ rest) =
      ((s.shift w.length).withinWord (w.reverse ++ text)).scan? 0 rest := by
  induction w generalizing s text with
  | nil => rfl
  | cons c w ih =>
      obtain ⟨hc, hw⟩ := List.forall_mem_cons.mp hw
      have hfirst := scan?_one hc.visible (step?_withinWord s text hc (w ++ rest))
      have hshift : (s.withinWord (c :: text)).shift 1 = (s.shift 1).withinWord (c :: text) := rfl
      rw [List.cons_append, hfirst, hshift, ih (s.shift 1) hw, shift_shift, Nat.add_comm 1,
        List.length_cons, List.reverse_cons, List.append_assoc]
      rfl

/-- A plain scalar ends before a character of the flow collection around it. -/
theorem scan?_withinWord_end {s : Lexer} (hflow : s.inFlow = true) (text : List Char) {c : Char}
    (hc : isFlowIndicator c = true) (rest : List Char) :
    (s.withinWord text).scan? 0 (c :: rest) =
      (s.pushScalar .plain (String.ofList text.reverse)).scan? 0 (c :: rest) := by
  have hplain : isBlank c = false ∧ isBreak c = false := by
    simp only [isFlowIndicator, Bool.or_eq_true, beq_iff_eq] at hc
    rcases hc with (((rfl | rfl) | rfl) | rfl) | rfl <;> exact ⟨rfl, rfl⟩
  have hflow' : (s.withinWord text).inFlow = true := hflow
  have hend : (s.withinWord text).endsPlain ⟨text, .none⟩ c rest = true := by
    simp [endsPlain, hflow', hc]
  have hpush : (s.withinWord text).pushPlain ⟨text, .none⟩ =
      s.pushScalar .plain (String.ofList text.reverse) := by
    simp [pushPlain, pushScalar, withinWord, push, Folded.toString, Gap.hasBreak]
  have hstep : (s.withinWord text).step? c rest =
      (s.pushScalar .plain (String.ofList text.reverse)).step? c rest := by
    change (s.withinWord text).plain? ⟨text, .none⟩ c rest = _
    simp only [plain?, hplain.1, hplain.2, hend, hpush]
    rfl
  rw [scan?, scan?, hstep]

end Lexer

end Yaml

end QueryAlgebra
