import QueryAlgebra.Proofs.Yaml.Scanning
import QueryAlgebra.Yaml.Reader

/-!
# Compact JSON as a YAML document

`read?_compact_record` says that the compact text of a record is a YAML document with the nodes
that one expects, `Json.flowNode`, as far as its strings are ASCII and its keys short. The lexer
and the reader of YAML are followed at the same time: `Leads` says where the text that has been
scanned has led both of them, and a value leads from a frame that waits for a node to the frame
with this node in it.
-/

namespace QueryAlgebra

open Json (compact quoted Everywhere writeList writeRecord)

mutual

/-- The node that a tree becomes when its text is read as YAML. -/
def Json.flowNode : Json String String → Yaml.Node
  | .null => .scalar none none .plain "null"
  | .bool b => .scalar none none .plain (if b then "true" else "false")
  | .number literal => .scalar none none .plain literal
  | .text s => .scalar none none .quoted s
  | .list items => .sequence none (Json.flowItems items)
  | .record fields => .mapping none (Json.flowPairs fields)

/-- `flowNode`, item by item. -/
def Json.flowItems : List (Json String String) → List Yaml.Node
  | [] => []
  | item :: items => Json.flowNode item :: Json.flowItems items

/-- `flowNode`, field by field; keys are quoted. -/
def Json.flowPairs : List (String × Json String String) → List (Yaml.Node × Yaml.Node)
  | [] => []
  | (key, value) :: fields =>
    (.scalar none none .quoted key, Json.flowNode value) :: Json.flowPairs fields

end

namespace Yaml

/-- The characters of the string are ASCII, the last of them excluded. -/
def IsAscii (s : String) : Prop := ∀ c ∈ s.toList, c.toNat ≤ 0x7E

instance (s : String) : Decidable (IsAscii s) :=
  decidable_of_iff ((s.toList.all fun c => c.toNat ≤ 0x7E) = true) (by simp [IsAscii])

/-- The value, its parts left aside, means the same in YAML. -/
def Flowable : Json String String → Prop
  | .number literal => Json.Number literal.toList
  | .text s => IsAscii s
  | .record fields =>
    ∀ field ∈ fields, IsAscii field.1 ∧ (quoted field.1.toList).length ≤ 1024
  | _ => True

/-! ## The reader -/

/-- The first token of a node without properties. -/
def startsNode : Token → Bool
  | .scalar .. | .flowSequenceStart | .flowMappingStart => true
  | _ => false

/-- A node can come next in the frame. -/
def Frame.Awaits (frame : Frame) : Prop :=
  ∀ t, startsNode t = true → ∃ place, frame.move t = .opens place frame

section Frames

variable (anchor : Option Nat) (items : List Node) (pairs : List (Node × Node)) (key : Node)

theorem awaits_item : Frame.Awaits (.flowSequence anchor items .item) := by
  intro t ht
  cases t <;> first | exact ⟨_, rfl⟩ | exact nomatch ht

theorem awaits_keyNode : Frame.Awaits (.flowMapping anchor pairs .keyNode) := by
  intro t ht
  cases t <;> first | exact ⟨_, rfl⟩ | exact nomatch ht

theorem awaits_valueNode : Frame.Awaits (.flowMapping anchor pairs (.valueNode key)) := by
  intro t ht
  cases t <;> first | exact ⟨_, rfl⟩ | exact nomatch ht

end Frames

section Steps

variable {names : Names} {frame frame' : Frame} {frames : List Frame} {t : Token}

theorem accept?_of_opens {place : Place} (h : frame.move t = .opens place frame') :
    Reader.accept? names frame frames t = Reader.openNode? names place (frame' :: frames) t := by
  cases frame with
  | node => exact nomatch h
  | _ =>
      unfold Reader.accept?
      rw [h]

theorem accept?_of_stays (h : frame.move t = .stays frame') :
    Reader.accept? names frame frames t = some ⟨names, .within frame' frames⟩ := by
  cases frame with
  | node => exact nomatch h
  | _ =>
      unfold Reader.accept?
      rw [h]

theorem accept?_of_finishes {node : Node} (h : frame.move t = .finishes node) :
    Reader.accept? names frame frames t = some ⟨names, .close node frames⟩ := by
  cases frame with
  | node => exact nomatch h
  | _ =>
      unfold Reader.accept?
      rw [h]

/-- The first token of a node gives the node, or opens a frame for it. -/
theorem accept?_startsNode (names : Names) (frames : List Frame) (hframe : frame.Awaits)
    (ht : startsNode t = true) :
    ∃ place, Reader.accept? names frame frames t =
      (Stage.content? place {} (frame :: frames) t).map fun stage => ⟨names, stage⟩ := by
  obtain ⟨place, hmove⟩ := hframe t ht
  refine ⟨place, ?_⟩
  rw [accept?_of_opens hmove]
  cases t <;> first | rfl | exact nomatch ht

end Steps

namespace Lexer

/-- The text that has been scanned has led the lexer between two tokens, inside of this many
flow collections, and the reader to this stage. -/
def Leads (s : Lexer) (depth : Nat) (stage : Stage) : Prop :=
  ∃ ts, Between s depth ts ∧ ts.reverse.foldlM Reader.step? {} = some ⟨{}, stage⟩

variable {s : Lexer} {depth : Nat} {frame frame' : Frame} {frames : List Frame}

theorem foldlM_reverse_cons {ts : List Token} {t : Token} {r r' : Reader}
    (h : ts.reverse.foldlM Reader.step? {} = some r) (hstep : r.step? t = some r') :
    (t :: ts).reverse.foldlM Reader.step? {} = some r' := by
  rw [List.reverse_cons, List.foldlM_append, h]
  change ([t].foldlM Reader.step? r) = _
  rw [List.foldlM_cons, hstep]
  rfl

/-- A scalar that is a node. -/
theorem foldlM_scalar {ts : List Token}
    (h : ts.reverse.foldlM Reader.step? {} = some ⟨{}, .within frame frames⟩)
    (hframe : frame.Awaits) (style : Style) (text : String) :
    (.scalar style text :: ts).reverse.foldlM Reader.step? {} =
      some ⟨{}, .within (frame.put (.scalar none none style text)) frames⟩ := by
  obtain ⟨place, haccept⟩ := accept?_startsNode {} frames hframe
    (t := .scalar style text) rfl
  exact foldlM_reverse_cons h haccept

/-! ## Pieces -/

theorem Leads.text (h : Leads s depth (.within frame frames)) (hframe : frame.Awaits)
    {str : String} (hstr : IsAscii str) (rest : List Char) :
    ∃ s', Leads s' depth (.within (frame.put (.scalar none none .quoted str)) frames) ∧
      s.scan? 0 (quoted str.toList ++ rest) = s'.scan? 0 rest := by
  obtain ⟨ts, hs, hts⟩ := h
  obtain ⟨s', hs', -, hscan⟩ := hs.text hstr rest
  exact ⟨s', ⟨_, hs', foldlM_scalar hts hframe _ _⟩, hscan⟩

theorem Leads.word (h : Leads s (depth + 1) (.within frame frames)) (hframe : frame.Awaits)
    {w : List Char} (hw : IsWord w) {c : Char} (hc : isFlowIndicator c = true)
    (rest : List Char) :
    ∃ s', Leads s' (depth + 1)
        (.within (frame.put (.scalar none none .plain (String.ofList w))) frames) ∧
      s.scan? 0 (w ++ c :: rest) = s'.scan? 0 (c :: rest) := by
  obtain ⟨ts, hs, hts⟩ := h
  obtain ⟨s', hs', hscan⟩ := hs.word hw hc rest
  exact ⟨s', ⟨_, hs', foldlM_scalar hts hframe _ _⟩, hscan⟩

theorem Leads.openList (h : Leads s depth (.within frame frames)) (hframe : frame.Awaits)
    (rest : List Char) :
    ∃ s', Leads s' (depth + 1) (.within (.flowSequence none [] .item) (frame :: frames)) ∧
      s.scan? 0 ('[' :: rest) = s'.scan? 0 rest := by
  obtain ⟨ts, hs, hts⟩ := h
  obtain ⟨s', hs', -, hscan⟩ := hs.openFlow (Or.inl ⟨rfl, rfl⟩) rest
  obtain ⟨place, haccept⟩ := accept?_startsNode {} frames hframe
    (t := .flowSequenceStart) rfl
  exact ⟨s', ⟨_, hs', foldlM_reverse_cons hts haccept⟩, hscan⟩

theorem Leads.openRecord (h : Leads s depth (.within frame frames)) (hframe : frame.Awaits)
    (rest : List Char) :
    ∃ s', Leads s' (depth + 1) (.within (.flowMapping none [] .key) (frame :: frames)) ∧
      s'.keyAllowed = true ∧ s.scan? 0 ('{' :: rest) = s'.scan? 0 rest := by
  obtain ⟨ts, hs, hts⟩ := h
  obtain ⟨s', hs', hkey, hscan⟩ := hs.openFlow (Or.inr ⟨rfl, rfl⟩) rest
  obtain ⟨place, haccept⟩ := accept?_startsNode {} frames hframe
    (t := .flowMappingStart) rfl
  exact ⟨s', ⟨_, hs', foldlM_reverse_cons hts haccept⟩, hkey, hscan⟩

/-- The end of a collection. -/
theorem Leads.close (h : Leads s (depth + 1) (.within frame frames)) {c : Char} {t : Token}
    (hc : c = ']' ∧ t = .flowSequenceEnd ∨ c = '}' ∧ t = .flowMappingEnd) {node : Node}
    (hmove : frame.move t = .finishes node) (rest : List Char) :
    ∃ s', Leads s' depth (.close node frames) ∧ s.scan? 0 (c :: rest) = s'.scan? 0 rest := by
  obtain ⟨ts, hs, hts⟩ := h
  obtain ⟨s', hs', hscan⟩ := hs.closeFlow hc rest
  exact ⟨s', ⟨_, hs', foldlM_reverse_cons hts (accept?_of_finishes hmove)⟩, hscan⟩

theorem Leads.comma (h : Leads s depth (.within frame frames))
    (hmove : frame.move .flowEntry = .stays frame') (rest : List Char) :
    ∃ s', Leads s' depth (.within frame' frames) ∧ s'.keyAllowed = true ∧
      s.scan? 0 (',' :: rest) = s'.scan? 0 rest := by
  obtain ⟨ts, hs, hts⟩ := h
  obtain ⟨s', hs', hkey, hscan⟩ := hs.flowEntry rest
  exact ⟨s', ⟨_, hs', foldlM_reverse_cons hts (accept?_of_stays hmove)⟩, hkey, hscan⟩

/-- A key and its colon. -/
theorem Leads.key {anchor : Option Nat} {pairs : List (Node × Node)}
    (h : Leads s (depth + 1) (.within (.flowMapping anchor pairs .key) frames))
    (hkey : s.keyAllowed = true) {str : String} (hstr : IsAscii str)
    (hlength : (quoted str.toList).length ≤ 1024) (rest : List Char) :
    ∃ s', Leads s' (depth + 1)
        (.within (.flowMapping anchor pairs (.valueNode (.scalar none none .quoted str)))
          frames) ∧
      s.scan? 0 (quoted str.toList ++ ':' :: rest) = s'.scan? 0 rest := by
  obtain ⟨ts, hs, hts⟩ := h
  obtain ⟨s', hs', hscan⟩ := hs.key hkey hstr hlength rest
  refine ⟨s', ⟨_, hs', ?_⟩, hscan⟩
  have hannounced := foldlM_reverse_cons hts (accept?_of_stays (t := .key) rfl)
  have hname := foldlM_scalar hannounced (awaits_keyNode anchor pairs) .quoted str
  exact foldlM_reverse_cons hname (accept?_of_stays (t := .value) rfl)

/-! ## Trees -/

/-- A value leads from a frame that waits for it to the frame that has it. It is followed by a
character of the collection around it. -/
def LeadsOver (j : Json String String) : Prop :=
  ∀ {s : Lexer} {depth : Nat} {frame : Frame} {frames : List Frame},
    Leads s (depth + 1) (.within frame frames) → frame.Awaits →
    ∀ {c : Char}, isFlowIndicator c = true → ∀ rest : List Char,
    ∃ s', Leads s' (depth + 1) (.within (frame.put j.flowNode) frames) ∧
      s.scan? 0 (compact j ++ c :: rest) = s'.scan? 0 (c :: rest)

theorem leadsOver_word {j : Json String String} {w : List Char} (hw : IsWord w)
    (hcompact : compact j = w)
    (hnode : j.flowNode = .scalar none none .plain (String.ofList w)) : LeadsOver j := by
  intro s depth frame frames h hframe c hc rest
  rw [hcompact, hnode]
  exact h.word hframe hw hc rest

theorem leads_items {items : List (Json String String)} (hitems : ∀ item ∈ items, LeadsOver item)
    {s : Lexer} {depth : Nat} {frames : List Frame} (earlier : List Node)
    (h : Leads s (depth + 1) (.within (.flowSequence none earlier .item) frames))
    (rest : List Char) :
    ∃ s' frame, Leads s' (depth + 1) (.within frame frames) ∧
      frame.move .flowSequenceEnd =
        .finishes (.sequence none (earlier.reverse ++ items.map Json.flowNode)) ∧
      s.scan? 0 (List.intercalate [','] (items.map compact) ++ ']' :: rest) =
        s'.scan? 0 (']' :: rest) := by
  induction items generalizing s earlier with
  | nil =>
      refine ⟨s, _, h, ?_, rfl⟩
      rw [List.map_nil, List.append_nil]
      rfl
  | cons item items ih =>
      obtain ⟨hitem, hlater⟩ := List.forall_mem_cons.mp hitems
      have hawaits := awaits_item none earlier
      cases items with
      | nil =>
          obtain ⟨s', hs', hscan⟩ := hitem h hawaits (c := ']') rfl rest
          refine ⟨s', _, hs', ?_, ?_⟩
          · rw [List.map_singleton, ← List.reverse_cons]
            rfl
          · rw [List.map_singleton, List.intercalate_singleton]
            exact hscan
      | cons next items =>
          set others := List.intercalate [','] ((next :: items).map compact) ++ ']' :: rest
          obtain ⟨r, hr, hfirst⟩ := hitem h hawaits (c := ',') rfl others
          have hgoes : (Frame.put item.flowNode (.flowSequence none earlier .item)).move
            .flowEntry = .stays (.flowSequence none (item.flowNode :: earlier) .item) := rfl
          obtain ⟨r', hr', -, hcomma⟩ := hr.comma hgoes others
          obtain ⟨s', frame, hs', hmove, hscan⟩ := ih hlater (item.flowNode :: earlier) hr'
          refine ⟨s', frame, hs', ?_, ?_⟩
          · rw [hmove, List.reverse_cons, List.append_assoc]
            rfl
          · rw [← hscan, ← hcomma, ← hfirst, List.map_cons, List.map_cons,
              List.intercalate_cons_cons]
            simp [others]

/-- A field as it is written. -/
def writtenField (field : String × Json String String) : List Char :=
  quoted field.1.toList ++ ':' :: compact field.2

theorem compact_record_eq (fields : List (String × Json String String)) :
    compact (.record fields) =
      '{' :: (List.intercalate [','] (fields.map writtenField) ++ ['}']) := by
  rw [Json.compact_record, writeRecord, List.map_map]
  rfl

theorem leads_fields {fields : List (String × Json String String)}
    (hfields : ∀ field ∈ fields, LeadsOver field.2)
    (hkeys : ∀ field ∈ fields, IsAscii field.1 ∧ (quoted field.1.toList).length ≤ 1024)
    {s : Lexer} {depth : Nat} {frames : List Frame} (earlier : List (Node × Node))
    (h : Leads s (depth + 1) (.within (.flowMapping none earlier .key) frames))
    (hkey : s.keyAllowed = true) (rest : List Char) :
    ∃ s' frame, Leads s' (depth + 1) (.within frame frames) ∧
      frame.move .flowMappingEnd = .finishes (.mapping none
        (earlier.reverse ++ fields.map fun (key, value) =>
          (.scalar none none .quoted key, value.flowNode))) ∧
      s.scan? 0 (List.intercalate [','] (fields.map writtenField) ++ '}' :: rest) =
        s'.scan? 0 ('}' :: rest) := by
  induction fields generalizing s earlier with
  | nil =>
      refine ⟨s, _, h, ?_, rfl⟩
      rw [List.map_nil, List.append_nil]
      rfl
  | cons field fields ih =>
      obtain ⟨hfield, hlater⟩ := List.forall_mem_cons.mp hfields
      obtain ⟨⟨hascii, hlength⟩, hnames⟩ := List.forall_mem_cons.mp hkeys
      obtain ⟨key, value⟩ := field
      have hawaits := awaits_valueNode none earlier (.scalar none none .quoted key)
      cases fields with
      | nil =>
          obtain ⟨r, hr, hname⟩ := h.key hkey hascii hlength (compact value ++ '}' :: rest)
          obtain ⟨s', hs', hscan⟩ := hfield hr hawaits (c := '}') rfl rest
          refine ⟨s', _, hs', ?_, ?_⟩
          · rw [List.map_singleton, ← List.reverse_cons]
            rfl
          · rw [← hscan, ← hname, List.map_singleton, List.intercalate_singleton]
            simp [writtenField]
      | cons next fields =>
          set others := List.intercalate [','] ((next :: fields).map writtenField) ++ '}' :: rest
          obtain ⟨r, hr, hname⟩ := h.key hkey hascii hlength (compact value ++ ',' :: others)
          obtain ⟨r', hr', hfirst⟩ := hfield hr hawaits (c := ',') rfl others
          set pair : Node × Node := (.scalar none none .quoted key, value.flowNode)
          have hgoes : (Frame.put pair.2 (.flowMapping none earlier (.valueNode pair.1))).move
            .flowEntry = .stays (.flowMapping none (pair :: earlier) .key) := rfl
          obtain ⟨r'', hr'', hallowed, hcomma⟩ := hr'.comma hgoes others
          obtain ⟨s', frame, hs', hmove, hscan⟩ := ih hlater hnames _ hr'' hallowed
          refine ⟨s', frame, hs', ?_, ?_⟩
          · rw [hmove, List.reverse_cons, List.append_assoc]
            rfl
          · rw [← hscan, ← hcomma, ← hfirst, ← hname, List.map_cons, List.map_cons,
              List.intercalate_cons_cons]
            simp [others, writtenField]

theorem flowNode_list (items : List (Json String String)) :
    Json.flowNode (.list items) = .sequence none (items.map Json.flowNode) := by
  rw [Json.flowNode]
  congr 1
  induction items with
  | nil => rfl
  | cons item items ih => rw [Json.flowItems, ih, List.map_cons]

theorem flowNode_record (fields : List (String × Json String String)) :
    Json.flowNode (.record fields) = .mapping none (fields.map fun (key, value) =>
      (.scalar none none .quoted key, value.flowNode)) := by
  rw [Json.flowNode]
  congr 1
  induction fields with
  | nil => rfl
  | cons field fields ih => rw [Json.flowPairs, ih, List.map_cons]

theorem isWord_of_number {w : List Char} (h : Json.Number w) : IsWord w := by
  have hchars := h.isWordChar.2
  cases h with
  | @parts sign whole fraction exponent hsign hwhole _ _ =>
      obtain ⟨d, ds, rfl⟩ := List.exists_cons_of_ne_nil hwhole.digits_all.1
      rcases hsign with rfl | rfl
      · have hdigit : d.isDigit = true := hwhole.digits_all.2 d List.mem_cons_self
        exact ⟨d, _, rfl, hchars, Or.inl (by simp [Char.isAlphanum, hdigit])⟩
      · exact ⟨'-', _, rfl, hchars, Or.inr ⟨rfl, by simp⟩⟩

theorem leadsOver_of_flowable {j : Json String String} (hj : Everywhere Flowable j) :
    LeadsOver j := by
  induction j with
  | null =>
      exact leadsOver_word (w := ['n', 'u', 'l', 'l'])
        ⟨_, _, rfl, List.all_eq_true.mp rfl, Or.inl rfl⟩ rfl rfl
  | bool b =>
      cases b
      · exact leadsOver_word (w := ['f', 'a', 'l', 's', 'e'])
          ⟨_, _, rfl, List.all_eq_true.mp rfl, Or.inl rfl⟩ rfl rfl
      · exact leadsOver_word (w := ['t', 'r', 'u', 'e'])
          ⟨_, _, rfl, List.all_eq_true.mp rfl, Or.inl rfl⟩ rfl rfl
  | number literal =>
      refine leadsOver_word (isWord_of_number hj) (Json.compact_number literal) ?_
      rw [Json.flowNode, String.ofList_toList]
  | text str =>
      intro s depth frame frames h hframe c _ rest
      rw [Json.compact_text]
      exact h.text hframe hj (c :: rest)
  | list items ih =>
      intro s depth frame frames h hframe c _ rest
      have hitems := ((Json.everywhere_list_iff _ _).mp hj).2
      obtain ⟨r, hr, hopen⟩ := h.openList hframe
        (List.intercalate [','] (items.map compact) ++ ']' :: c :: rest)
      obtain ⟨r', frame', hr', hmove, hscan⟩ :=
        leads_items (fun item hitem => ih item hitem (hitems item hitem)) [] hr (c :: rest)
      obtain ⟨s', hs', hclose⟩ := hr'.close (Or.inl ⟨rfl, rfl⟩) hmove (c :: rest)
      refine ⟨s', ?_, ?_⟩
      · rw [flowNode_list]
        exact hs'
      · rw [← hclose, ← hscan, ← hopen, Json.compact_list]
        simp [writeList]
  | record fields ih =>
      intro s depth frame frames h hframe c _ rest
      obtain ⟨hkeys, hfields⟩ := (Json.everywhere_record_iff _ _).mp hj
      obtain ⟨r, hr, hallowed, hopen⟩ := h.openRecord hframe
        (List.intercalate [','] (fields.map writtenField) ++ '}' :: c :: rest)
      obtain ⟨r', frame', hr', hmove, hscan⟩ :=
        leads_fields (fun field hfield => ih field hfield (hfields field hfield)) hkeys [] hr
          hallowed (c :: rest)
      obtain ⟨s', hs', hclose⟩ := hr'.close (Or.inr ⟨rfl, rfl⟩) hmove (c :: rest)
      refine ⟨s', ?_, ?_⟩
      · rw [flowNode_record]
        exact hs'
      · rw [← hclose, ← hscan, ← hopen, compact_record_eq]
        simp

/-! ## Documents -/

/-- A record at the beginning of a text. -/
theorem leads_openRecord (rest : List Char) :
    ∃ s', Leads s' 1 (.within (.flowMapping none [] .key) []) ∧ s'.keyAllowed = true ∧
      ({} : Lexer).scan? 0 ('{' :: rest) = s'.scan? 0 rest := by
  have hmark : isDocumentMark '{' rest = false := by
    unfold isDocumentMark
    split <;> rfl
  have htoken : ({} : Lexer).token? '{' rest = ({} : Lexer).openFlow? .flowMappingStart := by
    rw [token?, if_neg (by decide), if_neg (by simp [hmark])]
    rfl
  have hstep : ({} : Lexer).step? '{' rest = ({} : Lexer).openFlow? .flowMappingStart := htoken
  refine ⟨_, ?_, ?_, scan?_one (by decide) (hstep.trans rfl)⟩
  · refine ⟨[.flowMappingStart], ⟨rfl, by decide, rfl, rfl, rfl, rfl, ?_⟩, rfl⟩
    refine List.forall_mem_cons.mpr ⟨?_, List.forall_mem_singleton.mpr ?_⟩
    · rintro _ ⟨⟩
    · rintro _ ⟨⟩
      rfl
  · rfl

/-- The end of the text. -/
theorem Leads.finish? {s : Lexer} {root : Node} (h : Leads s 0 (.complete root)) :
    (s.scan? 0 []).bind ofTokens? = some (some root) := by
  obtain ⟨ts, hs, hts⟩ := h
  have hfinish : s.scan? 0 [] = some (.streamEnd :: ts).reverse := by
    have hpush := hs.fresh.tokens
    rw [scan?, Lexer.finish?, hs.mode]
    simp only [Option.bind_eq_bind, Option.bind_some, hs.dropStale?,
      leaveColumns_of_eq_nil hs.fresh.columns, hs.fresh.dropKeyStart?]
    exact congrArg (fun us => some (.streamEnd :: us).reverse) hpush
  have hlast : Reader.step? ⟨{}, .complete root⟩ .streamEnd = some ⟨{}, .ended (some root)⟩ := rfl
  have hend := foldlM_reverse_cons hts hlast
  rw [hfinish, Option.bind_some, ofTokens?, hend]
  rfl

end Lexer

theorem visible_quoted {str : String} (h : IsAscii str) : ∀ c ∈ quoted str.toList, Visible c := by
  rw [quoted, List.forall_mem_cons, List.forall_mem_append, List.forall_mem_singleton]
  refine ⟨by decide, fun d hd => ?_, by decide⟩
  obtain ⟨c, hc, hd⟩ := List.mem_flatMap.mp hd
  exact visible_escape (h c hc) d hd

/-- Whatever is written for a flowable tree is visible. -/
theorem visible_compact {j : Json String String} (h : Everywhere Flowable j) :
    ∀ c ∈ compact j, Visible c := by
  suffices hspelling : ∀ t ∈ j.tokens, ∀ c ∈ t.spelling, Visible c by
    intro c hc
    obtain ⟨t, ht, hc⟩ := List.mem_flatMap.mp hc
    exact hspelling t ht c hc
  induction j with
  | null => exact List.forall_mem_singleton.mpr (visible_of_all rfl)
  | bool b => cases b <;> exact List.forall_mem_singleton.mpr (visible_of_all rfl)
  | number literal =>
      refine List.forall_mem_singleton.mpr fun c hc => ?_
      exact (wordy_of_isWordChar (h.isWordChar.2 c hc)).visible
  | text str => exact List.forall_mem_singleton.mpr (visible_quoted h)
  | list items ih =>
      have hitems := ((Json.everywhere_list_iff _ _).mp h).2
      rw [Json.tokens, List.forall_mem_cons, List.forall_mem_append, List.forall_mem_singleton]
      refine ⟨visible_of_all rfl, ?_, visible_of_all rfl⟩
      exact Json.forall_mem_itemTokens (visible_of_all rfl) fun item hitem =>
        ih item hitem (hitems item hitem)
  | record fields ih =>
      obtain ⟨hkeys, hfields⟩ := (Json.everywhere_record_iff _ _).mp h
      rw [Json.tokens, List.forall_mem_cons, List.forall_mem_append, List.forall_mem_singleton]
      refine ⟨visible_of_all rfl, ?_, visible_of_all rfl⟩
      refine Json.forall_mem_fieldTokens (visible_of_all rfl) (visible_of_all rfl)
        fun field hfield => ⟨?_, ?_⟩
      · exact visible_quoted (hkeys field hfield).1
      · exact ih field hfield (hfields field hfield)

theorem unifyBreaks_of_visible {w : List Char} (h : ∀ c ∈ w, Visible c) : unifyBreaks w = w := by
  induction w with
  | nil => rfl
  | cons c w ih =>
      obtain ⟨hc, hw⟩ := List.forall_mem_cons.mp h
      have hreturn : c ≠ '\r' := by
        rintro rfl
        exact absurd hc (by decide)
      have hnext : c.toNat ≠ 0x85 := by
        have hhigh := hc.2
        omega
      rw [unifyBreaks, if_neg hnext, ih hw]
      · rintro _ rfl
        exact absurd rfl hreturn
      · exact hreturn

open Lexer in
/-- A record is a document. -/
theorem read?_compact_record {fields : List (String × Json String String)}
    (h : Everywhere Flowable (.record fields)) :
    read? (String.ofList (compact (.record fields))) =
      some (some (Json.flowNode (.record fields))) := by
  obtain ⟨hkeys, hfields⟩ := (Json.everywhere_record_iff _ _).mp h
  obtain ⟨s, hs, hallowed, hopen⟩ :=
    leads_openRecord (List.intercalate [','] (fields.map writtenField) ++ '}' :: [])
  obtain ⟨r, frame, hr, hmove, hscan⟩ :=
    leads_fields (fun field hfield => leadsOver_of_flowable (hfields field hfield)) hkeys [] hs
      hallowed []
  obtain ⟨s', hs', hclose⟩ := hr.close (Or.inr ⟨rfl, rfl⟩) hmove []
  have hvisible := visible_compact h
  have hallowed : (compact (.record fields)).all isAllowed = true := by
    rw [List.all_eq_true]
    intro c hc
    obtain ⟨hlow, hhigh⟩ := hvisible c hc
    simp [isAllowed, hlow, hhigh]
  have hend := hs'.finish?
  rw [read?, String.toList_ofList, Lexer.run?, if_pos hallowed, unifyBreaks_of_visible hvisible,
    compact_record_eq, hopen, hscan, hclose, flowNode_record]
  exact hend

end Yaml

end QueryAlgebra
