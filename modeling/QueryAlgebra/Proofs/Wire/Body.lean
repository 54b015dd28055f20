import QueryAlgebra.Proofs.Json.Writing
import QueryAlgebra.Proofs.Wire.Equality
import QueryAlgebra.Proofs.Wire.Literals
import QueryAlgebra.Proofs.Wire.Nulls

/-!
# The body of a request is read back

The body of a request is written in two ways: piece by piece, and as the compact text of the
document. `Request.read?_body_of_built` says that both give the same text, that this text
stands for the document and for nothing else, and that no record of the document has a key twice.

Reading a text back is possible where every number that is written has a literal. That and
the distinct keys of a record are collected in `Document.Sound`, which holds everywhere in what
is sent for a built query.
-/

namespace QueryAlgebra

namespace Json

variable {ν σ ν' σ' : Type}

/-- The keys of a record. -/
def keys : Json ν σ → List σ
  | record fields => fields.map Prod.fst
  | _ => []

theorem everywhere_map_iff (p : Json ν' σ' → Prop) (f : ν → ν') (g : σ → σ') (j : Json ν σ) :
    Everywhere p (j.map f g) ↔ Everywhere (fun k => p (k.map f g)) j := by
  induction j with
  | null | bool | number | text => exact Iff.rfl
  | list items ih =>
      simp only [everywhere_list_iff, map_list, List.forall_mem_map]
      exact and_congr_right fun _ => forall₂_congr ih
  | record fields ih =>
      simp only [everywhere_record_iff, map_record, List.forall_mem_map]
      exact and_congr_right fun _ => forall₂_congr ih

end Json

open Json

namespace Document

/-- A number has a literal, and a record has every key once. -/
def Sound : Document → Prop
  | .number n => n.IsFinite
  | .record fields => (fields.map Prod.fst).Nodup
  | _ => True

theorem Sound.nodup_keys {d : Document} (h : d.Sound) : d.keys.Nodup := by
  cases d with
  | record => exact h
  | _ => exact List.nodup_nil

theorem Sound.hasNumber {d : Document} (h : d.Sound) : HasNumber d.literals := by
  cases d with
  | number n => exact WireNumber.number_literal h
  | _ => trivial

section Parts

theorem sound_float (x : Binary64) : Everywhere Sound (float x) := by
  rw [float]
  split
  · next hfinite => exact hfinite
  · trivial

theorem sound_single_iff (key : String) (d : Document) :
    Everywhere Sound (single key d) ↔ Everywhere Sound d := by
  have hkeys : Sound (single key d) := by simp [single, Sound]
  rw [single, everywhere_record_iff, List.forall_mem_singleton]
  exact and_iff_right hkeys

theorem sound_list_iff (ds : List Document) :
    Everywhere Sound (.list ds) ↔ ∀ d ∈ ds, Everywhere Sound d := by
  rw [everywhere_list_iff]
  exact and_iff_right trivial

theorem mem_of_mem_present {slots : List (String × Option Document)} {key : String}
    {value : Document} (h : (key, value) ∈ present slots) : (key, some value) ∈ slots := by
  induction slots with
  | nil => exact absurd h List.not_mem_nil
  | cons slot slots ih =>
      obtain ⟨name, _ | d⟩ := slot
      · exact List.mem_cons_of_mem _ (ih h)
      · rcases List.mem_cons.mp h with heq | h
        · obtain ⟨rfl, rfl⟩ := Prod.mk.inj heq
          exact List.mem_cons_self
        · exact List.mem_cons_of_mem _ (ih h)

/-- A record is sound when its slots have distinct keys and sound values. -/
theorem sound_record_of_slots {fields : List (String × Document)}
    (slots : List (String × Option Document)) (hnodup : (slots.map Prod.fst).Nodup)
    (hfields : present slots = fields)
    (h : ∀ slot ∈ slots, ∀ d ∈ slot.2, Everywhere Sound d) :
    Everywhere Sound (.record fields) := by
  subst hfields
  rw [everywhere_record_iff]
  refine ⟨(keys_present_sublist slots).nodup hnodup, ?_⟩
  rintro ⟨key, value⟩ hfield
  exact h _ (mem_of_mem_present hfield) value rfl

theorem sound_map {α : Type} {write : α → Document} {o : Option α}
    (h : ∀ a ∈ o, Everywhere Sound (write a)) : ∀ d ∈ o.map write, Everywhere Sound d := by
  intro d hd
  obtain ⟨a, ha, rfl⟩ := Option.map_eq_some_iff.mp hd
  exact h a ha

theorem sound_listed {ds : List Document} (h : ∀ d ∈ ds, Everywhere Sound d) :
    ∀ d ∈ listed ds, Everywhere Sound d := by
  cases ds with
  | nil => simp [listed]
  | cons d ds =>
      intro e he
      obtain rfl := Option.some.inj he
      exact (sound_list_iff _).mpr h

end Parts

end Document

open Document

theorem Value.sound_document (v : Value) : Everywhere Sound v.document := by
  cases v with
  | number n =>
      cases n with
      | float x => exact sound_float x
      | _ => trivial
  | _ => trivial

theorem Tuning.sound_fields (t : Tuning) (value : Document) (h : Everywhere Sound value) :
    Everywhere Sound (.record (("value", value) :: t.fields)) := by
  refine sound_record_of_slots
    [("value", some value), ("case_insensitive", t.caseInsensitive.map .bool),
      ("boost", t.boost.map float)] (by simp) (by simp [Tuning.fields]) ?_
  simp only [List.forall_mem_cons]
  exact ⟨by simpa using h, sound_map fun _ _ => trivial, sound_map fun b _ => sound_float b,
    List.forall_mem_nil _⟩

theorem Range.sound_fields (r : Range) : Everywhere Sound (.record r.fields) := by
  have hbound : ∀ o : Option Value, ∀ d ∈ o.map Value.document, Everywhere Sound d :=
    fun o => sound_map fun v _ => v.sound_document
  refine sound_record_of_slots
    [("gt", r.above.map Value.document), ("gte", r.atLeast.map Value.document),
      ("lt", r.below.map Value.document), ("lte", r.atMost.map Value.document),
      ("boost", r.boost.map float), ("format", r.format.map .text),
      ("relation", r.relation.map fun a => .text a.name), ("time_zone", r.timeZone.map .text)]
    (by simp) (by simp [Range.fields]) ?_
  simp only [List.forall_mem_cons]
  exact ⟨hbound _, hbound _, hbound _, hbound _, sound_map fun b _ => sound_float b,
    sound_map fun _ _ => trivial, sound_map fun _ _ => trivial, sound_map fun _ _ => trivial,
    List.forall_mem_nil _⟩

theorem Condition.sound_document {c : Condition} (h : c.Valid) : Everywhere Sound c.document := by
  cases c with
  | term t =>
      rw [Condition.document, Term.document, sound_single_iff, sound_single_iff]
      exact t.tuning.sound_fields _ t.value.sound_document
  | startsWith t =>
      rw [Condition.document, StartsWith.document, sound_single_iff, sound_single_iff]
      exact t.tuning.sound_fields _ trivial
  | terms t =>
      obtain ⟨-, hreserved, -⟩ := (valid_terms_iff t).mp h
      rw [Condition.document, Terms.document, sound_single_iff]
      -- the field is a key of its own, so only its name could be the one of the boost
      refine sound_record_of_slots
        [(t.field, some (.list (t.values.map Value.document))),
          (Terms.reserved, t.boost.map float)] (by simp [hreserved]) (by simp) ?_
      simp only [List.forall_mem_cons]
      refine ⟨?_, sound_map fun b _ => sound_float b, List.forall_mem_nil _⟩
      rintro _ ⟨⟩
      rw [sound_list_iff, List.forall_mem_map]
      exact fun v _ => v.sound_document
  | range r =>
      rw [Condition.document, Range.document, sound_single_iff, sound_single_iff]
      exact r.sound_fields
  | presence p =>
      rw [Condition.document, Presence.document, sound_single_iff, sound_single_iff]
      trivial

theorem Group.sound_fields {g : Group Document} (h : ∀ d ∈ g.clauses, Everywhere Sound d) :
    Everywhere Sound (.record g.fields) := by
  obtain ⟨hmust, hshould, hmustNot, hfilter⟩ := (Group.forall_mem_clauses_iff g _).mp h
  refine sound_record_of_slots
    [("must", listed g.must), ("should", listed g.should), ("must_not", listed g.mustNot),
      ("filter", listed g.filter), ("boost", g.boost.map float),
      ("minimum_should_match", g.minimum.map fun n : Nat => .integer n)]
    (by simp) (by simp [Group.fields, parameter_bind_some]) ?_
  simp only [List.forall_mem_cons]
  exact ⟨sound_listed hmust, sound_listed hshould, sound_listed hmustNot, sound_listed hfilter,
    sound_map fun b _ => sound_float b, sound_map fun _ _ => trivial, List.forall_mem_nil _⟩

theorem Query.sound_document {q : Query} (h : q.Everywhere Checked) :
    Json.Everywhere Sound q.document := by
  induction q with
  | matchAll boost =>
      rw [document_matchAll, sound_single_iff]
      refine sound_record_of_slots [("boost", boost.map float)] (by simp) (by simp) ?_
      rw [List.forall_mem_singleton]
      exact sound_map fun b _ => sound_float b
  | matchNone =>
      rw [document_matchNone, sound_single_iff]
      exact sound_record_of_slots [] List.nodup_nil rfl (List.forall_mem_nil _)
  | leaf c => exact Condition.sound_document ((everywhere_leaf_iff c).mp h)
  | group g hmust hshould hmustNot hfilter =>
      obtain ⟨-, hclauses⟩ := (everywhere_group_iff g).mp h
      have hall : ∀ q ∈ g.clauses, q.Everywhere Checked → Json.Everywhere Sound q.document :=
        (Group.forall_mem_clauses_iff g _).mpr ⟨hmust, hshould, hmustNot, hfilter⟩
      rw [document_group, sound_single_iff]
      refine Group.sound_fields ?_
      rw [Group.clauses_map, List.forall_mem_map]
      exact fun q hq => hall q hq (hclauses q hq)

theorem Envelope.sound_document {e : Envelope}
    (h : ∀ q ∈ e.queries, q.Everywhere Query.Checked) : Everywhere Sound e.document := by
  rw [Envelope.queries, List.forall_mem_append] at h
  simp only [Option.mem_toList] at h
  obtain ⟨hfilter, hquery⟩ := h
  refine sound_record_of_slots
    [("from", some (Document.integer e.offset)), ("size", some (Document.integer e.limit)),
      ("post_filter", e.postFilter.map Query.document), ("query", e.query.map Query.document),
      ("sort", listed (e.sort.map SortKey.document))] (by simp) (by simp) ?_
  have hinteger : ∀ n : Int, ∀ d ∈ some (Document.integer n), Everywhere Sound d := by
    rintro n _ ⟨⟩
    trivial
  have hsort : ∀ d ∈ e.sort.map SortKey.document, Everywhere Sound d := by
    rw [List.forall_mem_map]
    intro k _
    rw [SortKey.document, sound_single_iff, sound_single_iff]
    trivial
  simp only [List.forall_mem_cons]
  exact ⟨hinteger _, hinteger _, sound_map fun q hq => Query.sound_document (hfilter q hq),
    sound_map fun q hq => Query.sound_document (hquery q hq), sound_listed hsort,
    List.forall_mem_nil _⟩

namespace Request

theorem sound_document {r : Request}
    (h : ∀ q ∈ r.envelope.queries, q.Everywhere Query.Checked) :
    Everywhere Sound r.document := by
  refine sound_record_of_slots
    [("dsl", some r.envelope.document), ("attributes", some (.list (r.attributes.map .text)))]
    (by simp) rfl ?_
  simp only [List.forall_mem_cons]
  refine ⟨?_, ?_, List.forall_mem_nil _⟩
  · rintro _ ⟨⟩
    exact Envelope.sound_document h
  · rintro _ ⟨⟩
    rw [sound_list_iff, List.forall_mem_map]
    exact fun _ _ => trivial

/-- The two ways to write a request. -/
theorem body_eq_render (r : Request) : r.body = r.document.render := by
  have hattributes : compact (literals (.list (r.attributes.map .text))) =
      writeList (r.attributes.map fun a => quoted a.toList) := by
    rw [literals, map_list, compact_list, List.map_map, List.map_map]
    congr 1
    refine List.map_congr_left fun a _ => ?_
    exact compact_text a
  have hdocument : r.document.literals =
      .record [("dsl", r.envelope.document.literals),
        ("attributes", literals (.list (r.attributes.map .text)))] := map_record _ _ _
  rw [body, render, hdocument, compact_record, ← hattributes]
  rfl

/-- The body of a request around built queries is the compact text of its document. It stands
for that tree and no other, the reader finds it, and no record in it has a key twice. -/
theorem read?_body_of_built {r : Request} (h : ∀ q ∈ r.envelope.queries, q.Built) :
    r.body = r.document.render ∧
      (∀ v : Source, Spells v r.body.toList ↔ v = asRead r.document.literals) ∧
      read? r.body = some (asRead r.document.literals) ∧
      Everywhere (fun d => d.keys.Nodup) r.document := by
  have hsound : Everywhere Sound r.document :=
    sound_document fun q hq => Query.checked_of_built (h q hq)
  have hnumbers : Everywhere HasNumber r.document.literals :=
    (everywhere_map_iff _ _ _ _).mpr (hsound.mono fun _ => Sound.hasNumber)
  have hread : read? r.body = some (asRead r.document.literals) := by
    rw [body_eq_render]
    exact read?_compact hnumbers
  refine ⟨body_eq_render r, ?_, hread, hsound.mono fun _ => Sound.nodup_keys⟩
  intro v
  rw [← read?_eq_some_iff, hread, Option.some.injEq, eq_comm]

/-- Strings that have to be escaped in a condition and in an attribute. -/
theorem read?_body_of_built_escaped :
    Query.Built (.leaf (.term ⟨"na\"me", .text "\n\x01\\", {}⟩)) ∧
      read? (body
          { envelope := .ofQuery (.leaf (.term ⟨"na\"me", .text "\n\x01\\", {}⟩))
            attributes := ["\t"] }) =
        some (asRead (literals (document
          { envelope := .ofQuery (.leaf (.term ⟨"na\"me", .text "\n\x01\\", {}⟩))
            attributes := ["\t"] }))) := by
  have hbuilt : Query.Built (.leaf (.term ⟨"na\"me", .text "\n\x01\\", {}⟩)) :=
    ⟨[], .given (.leaf (.term ((Term.create_eq_ok_iff _ _ _).mpr ⟨rfl, rfl, rfl⟩))) .nil⟩
  refine ⟨hbuilt, (read?_body_of_built ?_).2.2.1⟩
  exact List.forall_mem_singleton.mpr hbuilt

end Request

end QueryAlgebra
