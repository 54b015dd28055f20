import QueryAlgebra.Proofs.Yaml.Scalars

/-!
# JSON tokens within a YAML flow collection

Inside of brackets and braces the lexer of YAML reads each piece of a compact JSON text as the
token that it stands for. `Lexer.Between` describes its state between two pieces. No line has
ended, so no block collection is open and no place of a possible key is binding. A key is found
at its colon, 1024 octets later at the latest.
-/

namespace QueryAlgebra

namespace Yaml

open Json (escape quoted)

namespace Lexer

/-- Between two tokens in the first line, with this many flow collections open and these tokens
read, the last one first. -/
structure Between (s : Lexer) (depth : Nat) (ts : List Token) : Prop where
  mode : s.mode = .between
  column : s.column ≠ 0
  columns : s.columns = []
  depth : s.outerKeyStarts.length = depth
  tokens : s.tokens = ts
  count : s.count = ts.length
  optional : ∀ o ∈ s.keyStart :: s.outerKeyStarts, ∀ k ∈ o, k.required = false

variable {s : Lexer} {depth : Nat} {ts : List Token}

theorem Between.inFlow (h : Between s (depth + 1) ts) : s.inFlow = true := by
  have hlength := h.depth
  cases houter : s.outerKeyStarts with
  | nil => simp [houter] at hlength
  | cons => simp [Lexer.inFlow, houter]

theorem Between.shift (h : Between s depth ts) (n : Nat) : Between (s.shift n) depth ts :=
  ⟨h.mode, shift_column_ne_zero h.column n, h.columns, h.depth, h.tokens, h.count, h.optional⟩

/-- One more token. -/
theorem Between.push (h : Between s depth ts) (t : Token) :
    Between (s.push t) depth (t :: ts) :=
  ⟨h.mode, h.column, h.columns, h.depth, congrArg (t :: ·) h.tokens,
    congrArg (· + 1) h.count, h.optional⟩

theorem leaveColumns_of_eq_nil (h : s.columns = []) (stays : Nat → Bool) :
    s.leaveColumns stays = s := by
  cases s with
  | mk =>
    obtain rfl : _ = [] := h
    simp [leaveColumns]

theorem Between.pushScalar (h : Between s depth ts) (style : Style) (text : String) :
    Between (s.pushScalar style text) depth (.scalar style text :: ts) :=
  ⟨rfl, h.column, h.columns, h.depth, congrArg (_ :: ·) h.tokens, congrArg (· + 1) h.count,
    h.optional⟩

/-! ## Places of possible keys -/

theorem Between.dropKeyStart? (h : Between s depth ts) :
    s.dropKeyStart? = some { s with keyStart := none } := by
  have hoptional := h.optional s.keyStart List.mem_cons_self
  rw [Lexer.dropKeyStart?, if_neg]
  cases hk : s.keyStart with
  | none => simp
  | some k => simp [hoptional k hk]

/-- Whether a key may start here does not matter. -/
theorem Between.mark (h : Between s depth ts) {o : Option KeyStart}
    (ho : ∀ k ∈ o, k.required = false) (allowed : Bool) :
    Between { s with keyStart := o, keyAllowed := allowed } depth ts :=
  ⟨h.mode, h.column, h.columns, h.depth, h.tokens, h.count,
    List.forall_mem_cons.mpr ⟨ho, (List.forall_mem_cons.mp h.optional).2⟩⟩

/-- A key may start here, or may not; in neither case it has to. -/
theorem Between.markKeyStart? (h : Between s depth ts) :
    ∃ o : Option KeyStart, s.markKeyStart? = some { s with keyStart := o } ∧
      (∀ k ∈ o, k.required = false) ∧
      (s.keyAllowed = true → o = some ⟨ts.length, s.line, s.column, s.offset, false⟩) := by
  by_cases hallowed : s.keyAllowed = true
  · have hbinding : (!s.inFlow && s.columns.head? == some s.column) = false := by
      rw [h.columns, Bool.and_eq_false_iff]
      exact Or.inr rfl
    refine ⟨_, ?_, ?_, fun _ => rfl⟩
    · rw [Lexer.markKeyStart?, if_pos hallowed, h.dropKeyStart?, Option.map_some, ← h.count]
      exact congrArg
        (fun b => some { s with keyStart := some ⟨s.count, s.line, s.column, s.offset, b⟩ })
        hbinding
    · rintro _ ⟨⟩
      rfl
  · refine ⟨s.keyStart, ?_, h.optional _ List.mem_cons_self, fun hk => absurd hk hallowed⟩
    rw [Lexer.markKeyStart?, if_neg hallowed]

/-- A scalar begins, and with it a key where one may start. -/
theorem Between.openScalar? (h : Between s depth ts) (mode : Mode) :
    ∃ o : Option KeyStart, Between { s with keyStart := o, keyAllowed := false } depth ts ∧
      (s.keyAllowed = true → o = some ⟨ts.length, s.line, s.column, s.offset, false⟩) ∧
      s.openScalar? mode =
        some ({ s with keyStart := o, keyAllowed := false, mode := mode }, 0) := by
  obtain ⟨o, hmark, ho, hallowed⟩ := h.markKeyStart?
  refine ⟨o, h.mark ho false, hallowed, ?_⟩
  rw [Lexer.openScalar?, hmark, Option.map_some]

/-- The state without the places that are too far back. -/
def fresh (s : Lexer) : Lexer :=
  { s with
    keyStart := s.keyStart.filter fun k => !s.isStale k
    outerKeyStarts := s.outerKeyStarts.map (Option.filter fun k => !s.isStale k) }

theorem Between.fresh (h : Between s depth ts) : Between s.fresh depth ts := by
  have hfilter : ∀ {o : Option KeyStart}, (∀ k ∈ o, k.required = false) →
      ∀ k ∈ o.filter fun k => !s.isStale k, k.required = false := by
    intro o ho k hk
    exact ho k (Option.filter_eq_some_iff.mp hk).1
  obtain ⟨hinner, houter⟩ := List.forall_mem_cons.mp h.optional
  refine ⟨h.mode, h.column, h.columns, ?_, h.tokens, h.count, ?_⟩
  · exact (List.length_map _).trans h.depth
  · refine List.forall_mem_cons.mpr ⟨hfilter hinner, ?_⟩
    exact List.forall_mem_map.mpr fun o ho => hfilter (houter o ho)

theorem Between.dropStale? (h : Between s depth ts) : s.dropStale? = some s.fresh := by
  rw [Lexer.dropStale?, if_neg]
  · rfl
  · rw [Bool.not_eq_true, List.any_eq_false]
    intro o ho
    cases o with
    | none => simp
    | some k => simp [h.optional _ ho k rfl]

/-- The first character of a token. -/
theorem Between.step? (h : Between s depth ts) {c : Char} (hc : Visible c) (hspace : c ≠ ' ')
    (hhash : c ≠ '#') (rest : List Char) : s.step? c rest = s.fresh.token? c rest := by
  have htab : c ≠ '\t' := by
    rintro rfl
    exact absurd hc.1 (by decide)
  have hcolumns : s.fresh.leaveColumns (· ≤ s.fresh.column) = s.fresh :=
    leaveColumns_of_eq_nil h.fresh.columns _
  rw [Lexer.step?, h.mode]
  change s.between? c rest = _
  rw [Lexer.between?, if_neg (fun hmark => h.column hmark.2), if_neg (by simp [hspace, htab]),
    if_neg hhash, if_neg (by simp [hc.isBreak]), h.dropStale?, Option.bind_some, hcolumns]

/-- A token of one character. -/
theorem Between.scan?_token (h : Between s depth ts) {c : Char} (hc : Visible c)
    (hspace : c ≠ ' ') (hhash : c ≠ '#') {rest : List Char} {s' : Lexer}
    (htoken : s.fresh.token? c rest = some (s', 0)) :
    s.scan? 0 (c :: rest) = (s'.shift 1).scan? 0 rest :=
  scan?_one hc ((h.step? hc hspace hhash rest).trans htoken)

/-! ## Brackets and commas -/

theorem Between.openFlow (h : Between s depth ts) {c : Char} {t : Token}
    (hc : c = '[' ∧ t = .flowSequenceStart ∨ c = '{' ∧ t = .flowMappingStart)
    (rest : List Char) :
    ∃ s', Between s' (depth + 1) (t :: ts) ∧ s'.keyAllowed = true ∧
      s.scan? 0 (c :: rest) = s'.scan? 0 rest := by
  obtain ⟨o, hmark, ho, -⟩ := h.fresh.markKeyStart?
  have htoken : s.fresh.token? c rest = s.fresh.openFlow? t := by
    rw [token?, if_neg (fun hzero => h.fresh.column hzero.1),
      if_neg (fun hzero => h.fresh.column hzero.1)]
    rcases hc with ⟨rfl, rfl⟩ | ⟨rfl, rfl⟩ <;> rfl
  have hvisible : Visible c ∧ c ≠ ' ' ∧ c ≠ '#' := by
    rcases hc with ⟨rfl, -⟩ | ⟨rfl, -⟩ <;>
      decide
  rw [openFlow?, hmark, Option.map_some] at htoken
  refine ⟨_, ?_, ?_, h.scan?_token hvisible.1 hvisible.2.1 hvisible.2.2 htoken⟩
  · refine Between.shift ?_ 1
    refine ⟨h.mode, h.column, h.columns, ?_, congrArg (t :: ·) h.tokens,
      congrArg (· + 1) h.count, ?_⟩
    · exact congrArg (· + 1) h.fresh.depth
    · refine List.forall_mem_cons.mpr ⟨by simp, List.forall_mem_cons.mpr ⟨ho, ?_⟩⟩
      exact (List.forall_mem_cons.mp h.fresh.optional).2
  · rfl

theorem Between.closeFlow (h : Between s (depth + 1) ts) {c : Char} {t : Token}
    (hc : c = ']' ∧ t = .flowSequenceEnd ∨ c = '}' ∧ t = .flowMappingEnd)
    (rest : List Char) :
    ∃ s', Between s' depth (t :: ts) ∧ s.scan? 0 (c :: rest) = s'.scan? 0 rest := by
  have htoken : s.fresh.token? c rest = s.fresh.closeFlow? t := by
    rw [token?, if_neg (fun hzero => h.fresh.column hzero.1),
      if_neg (fun hzero => h.fresh.column hzero.1)]
    rcases hc with ⟨rfl, rfl⟩ | ⟨rfl, rfl⟩ <;> rfl
  have hvisible : Visible c ∧ c ≠ ' ' ∧ c ≠ '#' := by
    rcases hc with ⟨rfl, -⟩ | ⟨rfl, -⟩ <;>
      decide
  rw [closeFlow?, h.fresh.dropKeyStart?, Option.map_some] at htoken
  refine ⟨_, ?_, h.scan?_token hvisible.1 hvisible.2.1 hvisible.2.2 htoken⟩
  obtain ⟨o, outer, houter⟩ : ∃ o outer, s.fresh.outerKeyStarts = o :: outer :=
    List.exists_cons_of_length_eq_add_one h.fresh.depth
  have hoptional := (List.forall_mem_cons.mp h.fresh.optional).2
  have hdepth := h.fresh.depth
  rw [houter] at hoptional hdepth
  refine Between.shift ?_ 1
  refine ⟨h.mode, h.column, h.columns, ?_, congrArg (t :: ·) h.tokens,
    congrArg (· + 1) h.count, ?_⟩
  · change s.fresh.outerKeyStarts.tail.length = depth
    rw [houter]
    exact Nat.succ.inj hdepth
  · change ∀ o ∈ s.fresh.outerKeyStarts.head?.getD none :: s.fresh.outerKeyStarts.tail, _
    rw [houter]
    exact hoptional

theorem Between.flowEntry (h : Between s depth ts) (rest : List Char) :
    ∃ s', Between s' depth (.flowEntry :: ts) ∧ s'.keyAllowed = true ∧
      s.scan? 0 (',' :: rest) = s'.scan? 0 rest := by
  have htoken : s.fresh.token? ',' rest = s.fresh.flowComma? := by
    rw [token?, if_neg (fun hzero => h.fresh.column hzero.1),
      if_neg (fun hzero => h.fresh.column hzero.1)]
    rfl
  rw [flowComma?, h.fresh.dropKeyStart?, Option.map_some] at htoken
  refine ⟨_, ?_, ?_,
    h.scan?_token (by decide) (by decide) (by decide) htoken⟩
  · exact ((h.fresh.mark (o := none) (by simp) true).push .flowEntry).shift 1
  · rfl

/-! ## Scalars and keys -/

/-- A place for a key that a quoted string of this length leaves behind it. -/
structure KeyBefore (s : Lexer) (index length : Nat) (k : KeyStart) : Prop where
  keyStart : s.keyStart = some k
  index : k.index = index
  line : k.line = s.line
  offset : s.offset = k.offset + length

/-- A quoted string. If a key may start before it, then that is known after it. -/
theorem Between.text (h : Between s depth ts) {str : String}
    (hstr : ∀ c ∈ str.toList, c.toNat ≤ 0x7E) (rest : List Char) :
    ∃ s', Between s' depth (.scalar .quoted str :: ts) ∧
      (s.keyAllowed = true → ∃ k, KeyBefore s' ts.length (quoted str.toList).length k) ∧
      s.scan? 0 (quoted str.toList ++ rest) = s'.scan? 0 rest := by
  obtain ⟨o, hmarked, hallowed, hopen⟩ := h.fresh.openScalar? (.quoted .double {})
  set marked : Lexer := { s.fresh with keyStart := o, keyAllowed := false }
  have htoken : s.fresh.token? '"' (str.toList.flatMap escape ++ '"' :: rest) =
      some (marked.within {}, 0) := by
    rw [token?, if_neg (fun hzero => h.fresh.column hzero.1),
      if_neg (fun hzero => h.fresh.column hzero.1)]
    exact hopen
  have hscan : s.scan? 0 (quoted str.toList ++ rest) =
      ((marked.pushScalar .quoted str).shift (quoted str.toList).length).scan? 0 rest := by
    have hquote : Visible '"' := by decide
    have hbody := scan?_quoted (hmarked.shift 1).column hstr rest
    rw [String.ofList_toList] at hbody
    have hspelled : quoted str.toList ++ rest =
        '"' :: (str.toList.flatMap escape ++ '"' :: rest) := by simp [quoted]
    have hlength : (quoted str.toList).length = 1 + ((str.toList.flatMap escape).length + 1) := by
      simp [quoted, Nat.add_comm]
    rw [hspelled, h.scan?_token hquote (by decide) (by decide) htoken, hlength, ← shift_shift]
    exact hbody
  refine ⟨_, ?_, ?_, hscan⟩
  · exact (hmarked.pushScalar .quoted str).shift _
  · intro hkey
    exact ⟨_, hallowed hkey, rfl, rfl, rfl⟩

/-- A quoted string with a colon behind it. -/
theorem Between.key (h : Between s (depth + 1) ts) (hkey : s.keyAllowed = true) {str : String}
    (hstr : ∀ c ∈ str.toList, c.toNat ≤ 0x7E) (hlength : (quoted str.toList).length ≤ 1024)
    (rest : List Char) :
    ∃ s', Between s' (depth + 1) (.value :: .scalar .quoted str :: .key :: ts) ∧
      s.scan? 0 (quoted str.toList ++ ':' :: rest) = s'.scan? 0 rest := by
  obtain ⟨r, hr, hbefore, hscan⟩ := h.text hstr (':' :: rest)
  obtain ⟨k, hk⟩ := hbefore hkey
  have hfresh : r.fresh.keyStart = some k := by
    have hstale : r.isStale k = false := by
      have hoffset := hk.offset
      simp only [isStale, hk.line, Bool.or_eq_false_iff, decide_eq_false_iff_not]
      omega
    simp [Lexer.fresh, hk.keyStart, hstale]
  have hflow : r.fresh.inFlow = true := hr.fresh.inFlow
  have htoken : r.fresh.token? ':' rest = r.fresh.value? := by
    rw [token?, if_neg (fun hzero => hr.fresh.column hzero.1),
      if_neg (fun hzero => hr.fresh.column hzero.1)]
    simp [hflow]
  have hindex : r.fresh.count - k.index = 1 := by
    rw [hr.fresh.count, hk.index, List.length_cons]
    omega
  have hinsert : (r.fresh.insert k.index [.key]).tokens = .scalar .quoted str :: .key :: ts := by
    rw [insert, hindex, hr.fresh.tokens]
    rfl
  have hvalue : r.fresh.value? =
      some ({ (r.fresh.insert k.index [.key]).push .value with
        keyStart := none, keyAllowed := false }, 0) := by
    have henter : (r.fresh.insert k.index [.key]).enterColumn k.column k.index .blockMappingStart =
        r.fresh.insert k.index [.key] := by
      have hflow' : (r.fresh.insert k.index [.key]).inFlow = true := hflow
      rw [enterColumn, hflow']
      rfl
    rw [value?, hfresh]
    dsimp only
    rw [henter]
  refine ⟨_, ?_, hscan.trans
    (hr.scan?_token (by decide) (by decide) (by decide) (htoken.trans hvalue))⟩
  have hread : Between (r.fresh.insert k.index [.key]) (depth + 1)
      (.scalar .quoted str :: .key :: ts) :=
    ⟨hr.mode, hr.column, hr.columns, hr.fresh.depth, hinsert,
      congrArg (· + 1) hr.fresh.count, hr.fresh.optional⟩
  exact ((hread.mark (o := none) (by simp) false).push .value).shift 1

/-- What can be written as a plain scalar in JSON: letters, digits and signs, with no sign in
front but a hyphen before something else. -/
def IsWord (w : List Char) : Prop :=
  ∃ c ds, w = c :: ds ∧ (∀ d ∈ w, Json.isWordChar d = true) ∧
    (c.isAlphanum = true ∨ c = '-' ∧ ds ≠ [])

/-- A word starts a plain scalar. -/
theorem token?_word (hcolumn : s.column ≠ 0) {c : Char} {w : List Char} (hw : IsWord (c :: w))
    (rest : List Char) :
    s.token? c (w ++ rest) = s.openScalar? (.plain (Folded.push {} c)) := by
  obtain ⟨_, _, heq, hchars, hfirst⟩ := hw
  obtain ⟨rfl, rfl⟩ := List.cons.inj heq
  obtain ⟨hc, hw⟩ := List.forall_mem_cons.mp hchars
  have hne : ∀ d : Char, Json.isWordChar d = false → c ≠ d := fun _ => ne_of_isWordChar hc
  have hblank := (wordy_of_isWordChar hc).blank
  have hrest : c = '-' → endsWord (w ++ rest) = false ∧ (w ++ rest).head?.any isBlank = false := by
    rintro rfl
    rcases hfirst with hfirst | ⟨-, hnil⟩
    · exact absurd hfirst (by decide)
    · obtain ⟨d, ds, rfl⟩ := List.exists_cons_of_ne_nil hnil
      have hd := wordy_of_isWordChar (hw d List.mem_cons_self)
      exact ⟨by simp [endsWord, hd.blank, hd.visible.isBreak], by simp [hd.blank]⟩
  have hhyphen : ¬(c = '-' ∧ endsWord (w ++ rest) = true) := by
    rintro ⟨heq, hend⟩
    rw [(hrest heq).1] at hend
    exact nomatch hend
  have hstart : s.startsPlain c (w ++ rest) = true := by
    by_cases heq : c = '-'
    · rw [startsPlain, (hrest heq).2, heq]
      simp [isBlank]
    · have hindicator : isIndicator c = false := by
        have hbacktick : c.toNat ≠ 0x60 := fun hn => hne (Char.ofNat 0x60) rfl (by
          rw [← hn, Char.ofNat_toNat])
        simp [isIndicator, (wordy_of_isWordChar hc).indicator, heq, hbacktick, hne '?' rfl,
          hne ':' rfl, hne '#' rfl, hne '&' rfl, hne '*' rfl, hne '!' rfl, hne '|' rfl,
          hne '>' rfl, hne '\'' rfl, hne '"' rfl, hne '%' rfl, hne '@' rfl]
      simp [startsPlain, hblank, hindicator]
  rw [token?, if_neg (fun hzero => hcolumn hzero.1), if_neg (fun hzero => hcolumn hzero.1)]
  simp only [hne '[' rfl, hne '{' rfl, hne ']' rfl, hne '}' rfl, hne ',' rfl, hne '?' rfl,
    hne ':' rfl, hne '*' rfl, hne '&' rfl, hne '!' rfl, hne '|' rfl, hne '>' rfl, hne '\'' rfl,
    hne '"' rfl, hhyphen, hstart, if_false, if_true, false_and]

theorem Between.word (h : Between s (depth + 1) ts) {w : List Char} (hw : IsWord w) {c : Char}
    (hc : isFlowIndicator c = true) (rest : List Char) :
    ∃ s', Between s' (depth + 1) (.scalar .plain (String.ofList w) :: ts) ∧
      s.scan? 0 (w ++ c :: rest) = s'.scan? 0 (c :: rest) := by
  obtain ⟨d, ds, rfl, hchars, -⟩ := id hw
  obtain ⟨o, hmarked, -, hopen⟩ := h.fresh.openScalar? (.plain (Folded.push {} d))
  set marked : Lexer := { s.fresh with keyStart := o, keyAllowed := false }
  have htoken : s.fresh.token? d (ds ++ c :: rest) = some (marked.withinWord [d], 0) := by
    rw [token?_word h.fresh.column hw]
    exact hopen
  have hwordy : ∀ e ∈ d :: ds, Wordy e := fun e he => wordy_of_isWordChar (hchars e he)
  obtain ⟨hd, hds⟩ := List.forall_mem_cons.mp hwordy
  have hscan : s.scan? 0 (d :: ds ++ c :: rest) =
      ((marked.shift (1 + ds.length)).pushScalar .plain (String.ofList (d :: ds))).scan? 0
        (c :: rest) := by
    have hflow : (marked.shift (1 + ds.length)).inFlow = true := hmarked.inFlow
    have hspace : d ≠ ' ' := by
      rintro rfl
      exact absurd hd.blank (by decide)
    have hend := scan?_withinWord_end hflow (ds.reverse ++ [d]) hc rest
    rw [List.reverse_append, List.reverse_reverse] at hend
    rw [List.cons_append, h.scan?_token hd.visible hspace hd.hash htoken]
    change ((marked.shift 1).withinWord [d]).scan? 0 _ = _
    rw [scan?_word _ hds, shift_shift, hend]
    rfl
  exact ⟨_, (hmarked.shift _).pushScalar _ _, hscan⟩

end Lexer

end Yaml

end QueryAlgebra
