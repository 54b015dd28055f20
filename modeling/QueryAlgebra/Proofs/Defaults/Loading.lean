import QueryAlgebra.Defaults.File
import QueryAlgebra.Proofs.Building.Conditions
import QueryAlgebra.Request

/-!
# Defaults that are loaded

Defaults are loaded from a text in one of two formats, or from a file whose name chooses between
them. In each case the text is read first, `Format.read?`, and what was read is checked after
that: `Format.load_eq_ok_iff` and `ofFile_eq_ok_iff`. So there is no way around the check, and
loaded defaults are `Usable`.

A request that is made from defaults cannot fail, `Request.ofDefaults_eq`, and sends them
unchanged.
-/

namespace QueryAlgebra

theorem FileContent.text_toUTF8 (s : String) : text (.bytes s.toUTF8) = .ok s := by
  have h : String.fromUTF8? s.toUTF8 = some s := dif_pos s.isValidUTF8
  rw [text, h]

namespace Defaults

/-- A page holds at least one result, and every sort key has a field with something in it. -/
structure Usable (d : Defaults) : Prop where
  pageSize : 1 ≤ d.pageSize
  sort : ∀ k ∈ d.sort, ∃ c ∈ k.field.toList, Text.isWhiteSpace c = false

theorem check_eq_ok_iff_usable (d e : Defaults) : d.check = .ok e ↔ d = e ∧ d.Usable := by
  rw [check_eq_ok_iff]
  refine and_congr_right fun _ => ⟨?_, ?_⟩
  · rintro ⟨hpageSize, hsort⟩
    exact ⟨Nat.one_le_iff_ne_zero.mpr hpageSize,
      fun k hk => (Text.isBlank_eq_false_iff _).mp (hsort k hk)⟩
  · rintro ⟨hpageSize, hsort⟩
    exact ⟨Nat.one_le_iff_ne_zero.mp hpageSize,
      fun k hk => (Text.isBlank_eq_false_iff _).mpr (hsort k hk)⟩

theorem check_of_pageSize_eq_zero {d : Defaults} (h : d.pageSize = 0) :
    d.check = .error (.defaults .zeroPageSize) :=
  if_pos h

theorem ofRead_eq_ok_iff (o : Option Defaults) (d : Defaults) :
    ofRead o = .ok d ↔ o = some d ∧ d.Usable := by
  cases o with
  | none => simp [ofRead]
  | some e =>
      rw [ofRead, check_eq_ok_iff_usable, Option.some.injEq]
      exact and_congr_right fun he => by rw [he]

/-- The formats in which defaults are written. -/
inductive Format where
  | json
  | yaml

namespace Format

/-- Reads defaults from a text, without checking them. -/
def read? : Format → String → Option Defaults
  | json, text => (Json.read? text).bind (Defaults.read? Json.view)
  | yaml, text => (Yaml.read? text).bind fun root => root.elim (some {}) ofRoot?

/-- Reads defaults from a text and checks them. -/
def load : Format → String → Except Fault Defaults
  | json => ofJson
  | yaml => ofYaml

/-- The format that the name of a file asks for. -/
def ofPath? (path : String) : Option Format :=
  match extension? path with
  | some "yaml" | some "yml" => some yaml
  | some "json" => some json
  | _ => none

theorem load_eq_ofRead (f : Format) (text : String) : f.load text = ofRead (f.read? text) := by
  cases f with
  | json => rfl
  | yaml =>
      rw [load, ofYaml, read?]
      match Yaml.read? text with
      | none => rfl
      | some none => rfl
      | some (some root) => rfl

theorem load_eq_ok_iff (f : Format) (text : String) (d : Defaults) :
    f.load text = .ok d ↔ f.read? text = some d ∧ d.Usable := by
  rw [load_eq_ofRead, ofRead_eq_ok_iff]

theorem load_of_pageSize_eq_zero {f : Format} {text : String} {d : Defaults}
    (h : f.read? text = some d) (hzero : d.pageSize = 0) :
    f.load text = .error (.defaults .zeroPageSize) := by
  rw [load_eq_ofRead, h, ofRead, check_of_pageSize_eq_zero hzero]

end Format

theorem ofFile_eq_bind (path : String) (file : FileContent) :
    ofFile path file = file.text.bind fun text =>
      (Format.ofPath? path).elim (.error (.defaults (.unknownFormat path)))
        fun f => f.load text := by
  rw [ofFile, Format.ofPath?]
  congr 1
  funext text
  split <;> simp [*, Format.load]

theorem ofFile_of_text {path text : String} {file : FileContent} {f : Format}
    (hformat : Format.ofPath? path = some f) (htext : file.text = .ok text) :
    ofFile path file = f.load text := by
  rw [ofFile_eq_bind, htext, hformat]
  rfl

theorem ofFile_eq_ok_iff (path : String) (file : FileContent) (d : Defaults) :
    ofFile path file = .ok d ↔ ∃ f text, Format.ofPath? path = some f ∧ file.text = .ok text ∧
      f.load text = .ok d := by
  constructor
  · intro h
    rw [ofFile_eq_bind] at h
    obtain ⟨text, htext, h⟩ := (bind_eq_ok_iff _ _ _).mp h
    cases hformat : Format.ofPath? path with
    | none => exact nomatch hformat ▸ h
    | some f => exact ⟨f, text, rfl, htext, by rwa [hformat] at h⟩
  · rintro ⟨f, text, hformat, htext, hload⟩
    rw [ofFile_of_text hformat htext, hload]

/-- The ways in which defaults are loaded. -/
inductive Loaded (d : Defaults) : Prop
  | json (text : String) : ofJson text = .ok d → Loaded d
  | yaml (text : String) : ofYaml text = .ok d → Loaded d
  | file (path : String) (content : FileContent) : ofFile path content = .ok d → Loaded d

theorem usable_of_loaded {d : Defaults} (h : d.Loaded) : d.Usable := by
  have hload : ∀ {f : Format} {text : String}, f.load text = .ok d → d.Usable :=
    fun hd => ((Format.load_eq_ok_iff _ _ _).mp hd).2
  cases h with
  | json text hd => exact hload (f := .json) hd
  | yaml text hd => exact hload (f := .yaml) hd
  | file path content hd =>
      obtain ⟨f, text, -, -, hd⟩ := (ofFile_eq_ok_iff _ _ _).mp hd
      exact hload hd

end Defaults

namespace Request

theorem ofDefaults_eq (q : Query) (d : Defaults) :
    ofDefaults q d = .ok
      { envelope := { limit := d.pageSize, query := some q, sort := d.sort }
        attributes := d.attributes } := rfl

/-- The sort keys are left out where there is none. -/
theorem document_of_ofDefaults {q : Query} {d : Defaults} {r : Request}
    (h : ofDefaults q d = .ok r) :
    r.document = .record
      [("dsl", .record
        (("from", Document.integer 0) :: ("size", Document.integer d.pageSize) ::
          ("query", q.document) ::
          if d.sort = [] then []
          else [("sort", .list (d.sort.map fun k =>
            .record [(k.field, .record [("order", .text k.direction.name)])]))])),
        ("attributes", .list (d.attributes.map .text))] := by
  rw [ofDefaults_eq] at h
  obtain rfl := Except.ok.inj h
  cases d.sort with
  | nil => simp [document, Envelope.document, Document.bucket]
  | cons k ks =>
      simp [document, Envelope.document, Document.bucket, SortKey.document, Document.single]

end Request

namespace Defaults

/-- However defaults were loaded, they are usable, and the request for any query with them is
built and sends them: the first page of their size, their attributes in order, and one record for
each sort key in order. What a text says is loaded where it is usable, and rejected for a page size
of zero whatever its sort keys are. A file is loaded as its text is. -/
theorem request_of_loaded :
    (∀ d : Defaults, d.Loaded → d.Usable ∧
      ∀ q : Query, ∃ r, Request.ofDefaults q d = .ok r ∧
        r.document = .record
          [("dsl", .record
            (("from", Document.integer 0) :: ("size", Document.integer d.pageSize) ::
              ("query", q.document) ::
              if d.sort = [] then []
              else [("sort", .list (d.sort.map fun k =>
                .record [(k.field, .record [("order", .text k.direction.name)])]))])),
            ("attributes", .list (d.attributes.map .text))]) ∧
      ∀ (f : Format) (text : String) (d : Defaults), f.read? text = some d →
        (d.Usable → f.load text = .ok d) ∧
        (d.pageSize = 0 → f.load text = .error (.defaults .zeroPageSize)) ∧
        ∀ (path : String) (file : FileContent), Format.ofPath? path = some f →
          file.text = .ok text → ofFile path file = f.load text := by
  constructor
  · intro d hd
    refine ⟨usable_of_loaded hd, fun q => ⟨_, Request.ofDefaults_eq q d, ?_⟩⟩
    exact Request.document_of_ofDefaults (Request.ofDefaults_eq q d)
  · intro f text d hread
    refine ⟨?_, Format.load_of_pageSize_eq_zero hread, fun path file => ofFile_of_text⟩
    intro husable
    exact (Format.load_eq_ok_iff f text d).mpr ⟨hread, husable⟩

/-- A sort key that is sent, and a file that asks for empty pages sorted by a blank. -/
theorem request_of_loaded_file :
    Loaded { pageSize := 5, sort := [⟨"name", .descending⟩] } ∧
      (∃ r, Request.ofDefaults .matchNone { pageSize := 5, sort := [⟨"name", .descending⟩] } =
          .ok r ∧
        r.document = .record
          [("dsl", .record
            [("from", Document.integer 0), ("size", Document.integer 5),
              ("query", .record [("match_none", .record [])]),
              ("sort", .list [.record [("name", .record [("order", .text "desc")])]])]),
            ("attributes", .list [])]) ∧
      ofFile "conf/search.yml" (.bytes "page_size: 0\nsort: [\x7bfield: ' '\x7d]\n".toUTF8) =
        .error (.defaults .zeroPageSize) := by
  have hname : Format.json.read? "\x7b\"sort\":[[\"name\",\"desc\"]],\"page_size\":5\x7d" =
      some { pageSize := 5, sort := [⟨"name", .descending⟩] } := rfl
  have husable : Usable { pageSize := 5, sort := [⟨"name", .descending⟩] } :=
    ((check_eq_ok_iff_usable _ _).mp rfl).2
  have hloaded : Loaded { pageSize := 5, sort := [⟨"name", .descending⟩] } :=
    .json _ ((request_of_loaded.2 .json _ _ hname).1 husable)
  have hread : Format.yaml.read? "page_size: 0\nsort: [\x7bfield: ' '\x7d]\n" =
      some { pageSize := 0, sort := [⟨" ", .ascending⟩] } := by
    decide +kernel
  obtain ⟨-, hrejected, hfile⟩ := request_of_loaded.2 .yaml _ _ hread
  exact ⟨hloaded, (request_of_loaded.1 _ hloaded).2 .matchNone,
    (hfile _ _ rfl (FileContent.text_toUTF8 _)).trans (hrejected rfl)⟩

end Defaults

end QueryAlgebra
