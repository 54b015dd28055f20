import QueryAlgebra.Proofs.Json.Lexing

/-!
# The tree of a JSON text

`Json.read?_eq_some_iff` says that the reader finds exactly the tree that a text stands for. For
one direction, the state of the reader determines the tokens that it has been given
(`Reader.consumed`). For the other, the tokens of a tree are read wherever a value can stand,
by induction on the tree.
-/

namespace QueryAlgebra

namespace Json

/-- The tokens of an item that another item follows. -/
def itemAndComma (item : Source) : List ReadToken := item.tokens ++ [.comma]

/-- The tokens of a field that another field follows. -/
def fieldAndComma (field : Option String × Source) : List ReadToken :=
  .text field.1 :: .colon :: itemAndComma field.2

theorem itemTokens_concat (items : List Source) (item : Source) :
    itemTokens (items ++ [item]) = items.flatMap itemAndComma ++ item.tokens := by
  have hlater : ∀ items : List Source, .comma :: (items.flatMap itemAndComma ++ item.tokens) =
      laterItemTokens (items ++ [item]) := by
    intro items
    induction items with
    | nil => simp [laterItemTokens]
    | cons first items ih =>
        rw [List.cons_append, laterItemTokens, ← ih]
        simp [itemAndComma]
  cases items with
  | nil => simp [itemTokens, laterItemTokens]
  | cons first items =>
      rw [List.cons_append, itemTokens, ← hlater]
      simp [itemAndComma]

theorem fieldTokens_concat (fields : List (Option String × Source)) (key : Option String)
    (value : Source) :
    fieldTokens (fields ++ [(key, value)]) =
      fields.flatMap fieldAndComma ++ .text key :: .colon :: value.tokens := by
  have hlater : ∀ fields : List (Option String × Source),
      .comma :: (fields.flatMap fieldAndComma ++ .text key :: .colon :: value.tokens) =
        laterFieldTokens (fields ++ [(key, value)]) := by
    intro fields
    induction fields with
    | nil => simp [laterFieldTokens]
    | cons first fields ih =>
        rw [List.cons_append, laterFieldTokens, ← ih]
        simp [fieldAndComma, itemAndComma]
  cases fields with
  | nil => simp [fieldTokens, laterFieldTokens]
  | cons first fields =>
      rw [List.cons_append, fieldTokens, ← hlater]
      simp [fieldAndComma, itemAndComma]

/-- The tokens that opened a frame, up to the value it waits for. -/
def Frame.tokens : Frame → List ReadToken
  | .list items => .openList :: items.reverse.flatMap itemAndComma
  | .record fields key =>
    .openRecord :: (fields.reverse.flatMap fieldAndComma ++ [.text key, .colon])

namespace Reader

/-- The tokens that lead to a value inside these frames. -/
def openTokens (frames : List Frame) : List ReadToken := frames.reverse.flatMap Frame.tokens

theorem openTokens_cons (frame : Frame) (frames : List Frame) :
    openTokens (frame :: frames) = openTokens frames ++ frame.tokens := by
  simp [openTokens]

/-! ## What is read was there -/

/-- The tokens that the reader has been given. -/
def consumed : Reader → List ReadToken
  | value frames => openTokens frames
  | firstItem frames => openTokens frames ++ [.openList]
  | firstKey frames => openTokens frames ++ [.openRecord]
  | nextKey fields frames =>
    openTokens frames ++ .openRecord :: fields.reverse.flatMap fieldAndComma
  | keyed fields key frames =>
    openTokens frames ++ .openRecord :: (fields.reverse.flatMap fieldAndComma ++ [.text key])
  | complete v frames => openTokens frames ++ v.tokens

theorem consumed_openValue? {frames : List Frame} {t : ReadToken} {r : Reader}
    (h : openValue? frames t = some r) : r.consumed = openTokens frames ++ [t] := by
  cases t <;> cases h <;> rfl

/-- One more token. -/
theorem consumed_step? {r r' : Reader} {t : ReadToken} (h : r.step? t = some r') :
    r'.consumed = r.consumed ++ [t] := by
  fun_cases step? r t with
  | case1 frames t => exact consumed_openValue? h
  | case2 frames =>
      obtain rfl := Option.some.inj h
      simp [consumed, tokens, itemTokens]
  | case3 frames t hne =>
      have hopen : openValue? (.list [] :: frames) t = some r' := by
        rwa [step?] at h
        exact hne
      rw [consumed_openValue? hopen, openTokens_cons]
      rfl
  | case4 frames =>
      obtain rfl := Option.some.inj h
      simp [consumed, tokens, fieldTokens]
  | case5 frames key =>
      obtain rfl := Option.some.inj h
      simp [consumed]
  | case6 fields frames key =>
      obtain rfl := Option.some.inj h
      simp [consumed]
  | case7 fields key frames =>
      obtain rfl := Option.some.inj h
      simp [consumed, openTokens_cons, Frame.tokens]
  | case8 v items frames =>
      obtain rfl := Option.some.inj h
      simp [consumed, openTokens_cons, Frame.tokens, itemAndComma]
  | case9 v items frames =>
      obtain rfl := Option.some.inj h
      simp [consumed, openTokens_cons, Frame.tokens, tokens, itemTokens_concat]
  | case10 v fields key frames =>
      obtain rfl := Option.some.inj h
      simp [consumed, openTokens_cons, Frame.tokens, fieldAndComma, itemAndComma]
  | case11 v fields key frames =>
      obtain rfl := Option.some.inj h
      simp [consumed, openTokens_cons, Frame.tokens, tokens, fieldTokens_concat]
  | case12 => simp_all [step?]

theorem consumed_foldlM {r r' : Reader} {ts : List ReadToken}
    (h : ts.foldlM step? r = some r') : r'.consumed = r.consumed ++ ts := by
  induction ts generalizing r with
  | nil =>
      obtain rfl := Option.some.inj h
      rw [List.append_nil]
  | cons t ts ih =>
      rw [List.foldlM_cons] at h
      obtain ⟨s, hstep, hrest⟩ := Option.bind_eq_some_iff.mp h
      rw [ih hrest, consumed_step? hstep, List.append_assoc]
      rfl

/-- The tree that is read has the tokens it was read from. -/
theorem tokens_of_ofTokens? {ts : List ReadToken} {v : Source} (h : ofTokens? ts = some v) :
    v.tokens = ts := by
  obtain ⟨r, hrun, hfinish⟩ := Option.bind_eq_some_iff.mp h
  have hconsumed := consumed_foldlM hrun
  cases r with
  | complete w frames =>
      cases frames with
      | nil =>
          obtain rfl := Option.some.inj hfinish
          exact hconsumed
      | cons => exact nomatch hfinish
  | _ => exact nomatch hfinish

/-! ## What is there is read -/

/-- A value begins alike wherever it can stand. -/
theorem foldlM_firstItem (v : Source) (frames : List Frame) (ts : List ReadToken) :
    (v.tokens ++ ts).foldlM step? (firstItem frames) =
      (v.tokens ++ ts).foldlM step? (value (.list [] :: frames)) := by
  cases v <;> rfl

mutual

/-- A value is read where a value can stand. -/
theorem foldlM_tokens (v : Source) (frames : List Frame) (ts : List ReadToken) :
    (v.tokens ++ ts).foldlM step? (value frames) = ts.foldlM step? (complete v frames) := by
  match v with
  | .null => rfl
  | .bool _ => rfl
  | .number _ => rfl
  | .text _ => rfl
  | .list [] => rfl
  | .list (item :: items) =>
      have hopen : (value frames).step? .openList = some (firstItem frames) := rfl
      rw [tokens, itemTokens, List.cons_append, List.foldlM_cons, hopen]
      change List.foldlM _ (firstItem frames) _ = _
      rw [List.append_assoc, List.append_assoc, foldlM_firstItem, foldlM_tokens item]
      exact foldlM_laterItemTokens items item [] frames ts
  | .record [] => rfl
  | .record ((key, w) :: fields) =>
      rw [tokens, fieldTokens]
      change (((w.tokens ++ laterFieldTokens fields) ++ [Token.closeRecord]) ++ ts).foldlM step?
        (value (.record [] key :: frames)) = _
      rw [List.append_assoc, List.append_assoc, foldlM_tokens w]
      exact foldlM_laterFieldTokens fields key w [] frames ts

/-- The items that follow another one, and the end of their list. -/
theorem foldlM_laterItemTokens (items : List Source) (item : Source) (earlier : List Source)
    (frames : List Frame) (ts : List ReadToken) :
    (laterItemTokens items ++ Token.closeList :: ts).foldlM step?
        (complete item (.list earlier :: frames)) =
      ts.foldlM step? (complete (.list (earlier.reverse ++ item :: items)) frames) := by
  match items with
  | [] =>
      have hclose : (complete item (.list earlier :: frames)).step? .closeList =
        some (complete (.list (item :: earlier).reverse) frames) := rfl
      rw [laterItemTokens, List.nil_append, List.foldlM_cons, hclose, List.reverse_cons]
      rfl
  | next :: items =>
      have hcomma : (complete item (.list earlier :: frames)).step? .comma =
        some (value (.list (item :: earlier) :: frames)) := rfl
      rw [laterItemTokens, List.cons_append, List.foldlM_cons, hcomma]
      change List.foldlM _ (value (.list (item :: earlier) :: frames)) _ = _
      rw [List.append_assoc, foldlM_tokens next, foldlM_laterItemTokens items next]
      simp

/-- The fields that follow another one, and the end of their record. -/
theorem foldlM_laterFieldTokens (fields : List (Option String × Source)) (key : Option String)
    (v : Source) (earlier : List (Option String × Source)) (frames : List Frame)
    (ts : List ReadToken) :
    (laterFieldTokens fields ++ Token.closeRecord :: ts).foldlM step?
        (complete v (.record earlier key :: frames)) =
      ts.foldlM step? (complete (.record (earlier.reverse ++ (key, v) :: fields)) frames) := by
  match fields with
  | [] =>
      have hclose : (complete v (.record earlier key :: frames)).step? .closeRecord =
        some (complete (.record ((key, v) :: earlier).reverse) frames) := rfl
      rw [laterFieldTokens, List.nil_append, List.foldlM_cons, hclose, List.reverse_cons]
      rfl
  | (next, w) :: fields =>
      rw [laterFieldTokens]
      change ((w.tokens ++ laterFieldTokens fields) ++ Token.closeRecord :: ts).foldlM step?
        (value (.record ((key, v) :: earlier) next :: frames)) = _
      rw [List.append_assoc, foldlM_tokens w, foldlM_laterFieldTokens fields next w]
      simp

end

theorem ofTokens?_tokens (v : Source) : ofTokens? v.tokens = some v := by
  have h := foldlM_tokens v [] []
  rw [List.append_nil] at h
  rw [ofTokens?, Reader.start, h]
  rfl

/-! ## Words are apart -/

/-- After a word a value is complete. -/
theorem eq_complete_of_isWord {r r' : Reader} {t : ReadToken} (h : r.step? t = some r')
    (hword : t.isWord = true) : ∃ v frames, r' = complete v frames := by
  have hopen : ∀ {frames : List Frame}, openValue? frames t = some r' →
      ∃ v frames, r' = complete v frames := by
    intro frames h
    cases t <;> first | exact ⟨_, _, (Option.some.inj h).symm⟩ | exact nomatch hword
  fun_cases step? r t with
  | case1 => exact hopen h
  | case3 frames t hne => exact hopen (by rwa [step?] at h; exact hne)
  | case12 => simp_all [step?]
  | _ => exact nomatch hword

/-- No word follows a complete value. -/
theorem isWord_of_step?_complete {v : Source} {frames : List Frame} {r' : Reader} {t : ReadToken}
    (h : (complete v frames).step? t = some r') : t.isWord = false := by
  cases t with
  | null | bool | number => rcases frames with _ | ⟨_ | _, _⟩ <;> exact nomatch h
  | _ => rfl

theorem isChain_of_foldlM {r r' : Reader} {ts : List ReadToken}
    (h : ts.foldlM step? r = some r') : ts.IsChain Lexer.Apart := by
  induction ts generalizing r with
  | nil => exact .nil
  | cons t ts ih =>
      rw [List.foldlM_cons] at h
      obtain ⟨s, hstep, hrest⟩ := Option.bind_eq_some_iff.mp h
      cases ts with
      | nil => exact .singleton t
      | cons t' ts =>
          refine .cons_cons ?_ (ih hrest)
          intro hword
          obtain ⟨v, frames, rfl⟩ := eq_complete_of_isWord hstep hword
          rw [List.foldlM_cons] at hrest
          obtain ⟨s', hstep', -⟩ := Option.bind_eq_some_iff.mp hrest
          exact isWord_of_step?_complete hstep'

end Reader

/-- The reader finds the tree that a text stands for, and nothing where there is none. -/
theorem read?_eq_some_iff (text : String) (v : Source) :
    read? text = some v ↔ Spells v text.toList := by
  constructor
  · intro h
    obtain ⟨ts, hrun, hread⟩ := Option.bind_eq_some_iff.mp h
    have htokens := Reader.tokens_of_ofTokens? hread
    rw [Spells, htokens]
    exact Lexer.spaced_of_run? hrun
  · intro h
    have hread := Reader.ofTokens?_tokens v
    obtain ⟨r, hrun, -⟩ := Option.bind_eq_some_iff.mp hread
    rw [read?, Lexer.run?_of_spaced h (Reader.isChain_of_foldlM hrun)]
    exact hread

end Json

end QueryAlgebra
