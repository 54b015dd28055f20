import QueryAlgebra.Proofs.Defaults.Json
import QueryAlgebra.Proofs.Json.Writing

/-!
# Sort keys that are written as JSON

A sort key is read from a record with the names `field` and `order`, among which any other names
may stand, and from the list of their values. `SortKey.WrittenAs` collects these trees, and
`SortKey.ofJson_eq_ok_iff` says that reading accepts them in every spelling and nothing else. What
is sent for a sort key has another shape, with the field as a name, and is none of them for any
field.
-/

namespace QueryAlgebra

open Json View

/-- The trees that name a direction: a text, or a record with the name as its single key. -/
inductive Direction.NamedBy (d : Direction) : Source → Prop
  | text {s : String} : s = d.name ∨ s = d.longName → NamedBy d (.text (some s))
  | key {s : String} : s = d.name ∨ s = d.longName → NamedBy d (.record [(some s, .null)])

/-- The trees that write a sort key. -/
inductive SortKey.WrittenAs (k : SortKey) : Source → Prop
  | record {fields : List (String × Source)} :
      Says fields "field" (· = .text (some k.field)) False →
      Says fields "order" k.direction.NamedBy (k.direction = .ascending) →
      WrittenAs k (.record (named fields))
  | pair {order : Source} :
      k.direction.NamedBy order → WrittenAs k (.list [.text (some k.field), order])
  | alone : k.direction = .ascending → WrittenAs k (.list [.text (some k.field)])

theorem Direction.choice?_eq_some_iff (v : Source) (d : Direction) :
    (view.choice? v).bind Direction.ofName? = some d ↔ d.NamedBy v := by
  rw [Option.bind_eq_some_iff]
  constructor
  · rintro ⟨s, hs, hd⟩
    rw [ofName?_eq_some_iff] at hd
    unfold view at hs
    dsimp only at hs
    split at hs
    · subst hs
      exact .text hd
    · subst hs
      exact .key hd
    · exact nomatch hs
  · intro h
    cases h with
    | text hs => exact ⟨_, rfl, (ofName?_eq_some_iff _ _).mpr hs⟩
    | key hs => exact ⟨_, rfl, (ofName?_eq_some_iff _ _).mpr hs⟩

namespace Json

theorem text?_eq_some_iff (v : Source) (s : String) :
    view.text? v = some s ↔ v = .text (some s) := by
  cases v <;> simp [view]

theorem namedFields?_eq_some_iff (fields : List (Option String × Source))
    (fs : List (String × Source)) : namedFields? fields = some fs ↔ fields = named fs := by
  constructor
  · intro h
    induction fields generalizing fs with
    | nil =>
        obtain rfl := Option.some.inj h
        rfl
    | cons field fields ih =>
        obtain ⟨key, value⟩ := field
        rw [namedFields?, List.mapM_cons, Option.bind_eq_bind, Option.bind_eq_some_iff] at h
        obtain ⟨_, hkey, h⟩ := h
        obtain ⟨key, rfl, rfl⟩ := Option.map_eq_some_iff.mp hkey
        obtain ⟨rest, hrest, h⟩ := Option.bind_eq_some_iff.mp h
        obtain rfl := Option.some.inj h
        rw [ih rest hrest]
        rfl
  · rintro rfl
    exact namedFields?_named fs

/-- A record is one with well-formed keys, or a list that is not longer than the keys. -/
theorem record?_eq_some_iff (keys : List String) (v : Source) (fields : List (String × Source)) :
    view.record? keys v = some fields ↔
      v = .record (named fields) ∨
        ∃ values, v = .list values ∧ values.length ≤ keys.length ∧ keys.zip values = fields := by
  cases v with
  | record fs => simpa [view] using namedFields?_eq_some_iff fs fields
  | list values => simp [view]
  | _ => simp [view]

end Json

namespace SortKey

variable {k : SortKey}

theorem says_field_iff (fields : List (String × Source)) :
    field? "field" view.text? none fields = some k.field ↔
      Says fields "field" (· = .text (some k.field)) False := by
  simp only [field?_eq_some_iff, text?_eq_some_iff, reduceCtorEq]

theorem says_order_iff (fields : List (String × Source)) :
    field? "order" (fun v => (view.choice? v).bind Direction.ofName?) (some .standard) fields =
        some k.direction ↔
      Says fields "order" k.direction.NamedBy (k.direction = .ascending) := by
  simp only [field?_eq_some_iff, Direction.choice?_eq_some_iff, Option.some.injEq]
  rw [Direction.standard, @eq_comm _ Direction.ascending]

/-- Without names the values stand for the field and the direction, in this order. -/
theorem writtenAs_list {values : List Source} (hlength : values.length ≤ 2)
    (hfield : field? "field" view.text? none (["field", "order"].zip values) = some k.field)
    (horder : field? "order" (fun v => (view.choice? v).bind Direction.ofName?) (some .standard)
      (["field", "order"].zip values) = some k.direction) : k.WrittenAs (.list values) := by
  match values with
  | [] => exact nomatch hfield
  | [value] =>
      obtain rfl := (text?_eq_some_iff value _).mp hfield
      exact .alone (Option.some.inj horder).symm
  | [value, order] =>
      obtain rfl := (text?_eq_some_iff value _).mp hfield
      exact .pair ((Direction.choice?_eq_some_iff _ _).mp horder)
  | _ :: _ :: _ :: _ => exact absurd hlength (by simp)

/-- A sort key is read from the trees that write it and from no others. -/
theorem read?_eq_some_iff_writtenAs (v : Source) :
    SortKey.read? view v = some k ↔ k.WrittenAs v := by
  rw [SortKey.read?_eq_some_iff]
  constructor
  · rintro ⟨fields, hrecord, hfield, horder⟩
    obtain rfl | ⟨values, rfl, hlength, rfl⟩ := (record?_eq_some_iff _ _ _).mp hrecord
    · exact .record ((says_field_iff fields).mp hfield) ((says_order_iff fields).mp horder)
    · exact writtenAs_list hlength hfield horder
  · intro h
    cases h with
    | @record fields hfield horder =>
        exact ⟨fields, record?_named _ _, (says_field_iff fields).mpr hfield,
          (says_order_iff fields).mpr horder⟩
    | @pair order horder =>
        exact ⟨[_, _], rfl, rfl, (Direction.choice?_eq_some_iff _ _).mpr horder⟩
    | alone horder => exact ⟨[_], rfl, rfl, congrArg some horder.symm⟩

theorem ofJson_eq_ok_iff (text : String) :
    ofJson text = .ok k ↔ ∃ v, Spells v text.toList ∧ k.WrittenAs v := by
  simp only [← Json.read?_eq_some_iff, ← read?_eq_some_iff_writtenAs]
  rw [← Option.bind_eq_some_iff, ofJson]
  cases (Json.read? text).bind (SortKey.read? view) <;> simp

theorem ofJson_eq_error_iff (text : String) :
    ofJson text = .error .json ↔ ∀ k : SortKey, ofJson text ≠ .ok k := by
  unfold ofJson
  cases (Json.read? text).bind (SortKey.read? view) <;> simp

theorem asRead_document (k : SortKey) :
    asRead k.document.literals =
      .record (named [(k.field, .record [(some "order", .text (some k.direction.name))])]) := rfl

/-- What is sent under the field's name is a record, and what is read under any name is none. -/
theorem not_writtenAs_document (k l : SortKey) : ¬l.WrittenAs (asRead k.document.literals) := by
  rw [asRead_document]
  intro h
  generalize hv : Json.record _ = v at h
  cases h with
  | @record fields hfield _ =>
      have hnamed := congrArg namedFields? (Json.record.inj hv)
      rw [namedFields?_named, namedFields?_named] at hnamed
      obtain rfl := Option.some.inj hnamed
      cases hfield with
      | @once before after v heq _ _ htext =>
          have hmem : ("field", v) ∈ before ++ ("field", v) :: after := by simp
          rw [← heq, List.mem_singleton, Prod.mk.injEq, htext] at hmem
          exact nomatch hmem.2
      | never _ hfalse => exact hfalse
  | pair => exact nomatch hv
  | alone => exact nomatch hv

theorem spells_render (k : SortKey) :
    Spells (asRead k.document.literals) k.document.render.toList := by
  rw [Document.render, String.toList_ofList]
  refine spells_compact ?_
  change Json.Everywhere HasNumber (.record [(k.field, .record [("order", .text _)])])
  simp [Json.Everywhere, EverywhereFields, HasNumber]

/-- A sort key is read from every text that stands for one of the trees that write it, and from
nothing else. No text that stands for what is sent for a sort key is among them, whatever its field
is. -/
theorem reading_of_written (k : SortKey) :
    (∀ text, ofJson text = .ok k ↔ ∃ v, Spells v text.toList ∧ k.WrittenAs v) ∧
      (∀ text : String, Spells (asRead k.document.literals) text.toList →
        ofJson text = .error .json) ∧
      ofJson k.document.render = .error .json := by
  have hsent : ∀ text : String, Spells (asRead k.document.literals) text.toList →
      ofJson text = .error .json := by
    intro text htext
    rw [ofJson_eq_error_iff]
    intro l hl
    obtain ⟨v, hv, hwritten⟩ := (ofJson_eq_ok_iff text).mp hl
    have hread := (Json.read?_eq_some_iff text _).mpr htext
    rw [(Json.read?_eq_some_iff text v).mpr hv] at hread
    obtain rfl := Option.some.inj hread
    exact not_writtenAs_document k l hwritten
  exact ⟨ofJson_eq_ok_iff, hsent, hsent _ (spells_render k)⟩

/-- A name that is passed over before the field, whose own name is escaped, and a field that has
the name of one of the two. -/
theorem reading_of_written_escaped :
    ofJson "\x7b\"order\":\"descending\",\"x\":[\x7b\x7d,\"\\ud800\"],\"f\\u0069eld\":\"a\"\x7d"
        = .ok ⟨"a", .descending⟩ ∧
      ofJson "[\"order\"]" = .ok ⟨"order", .ascending⟩ ∧
      Spells (asRead (document ⟨"field", .ascending⟩).literals)
        "\x7b\"field\": \x7b\"order\": \"asc\"\x7d\x7d".toList ∧
      ofJson "\x7b\"field\": \x7b\"order\": \"asc\"\x7d\x7d" = .error .json := by
  have hwritten : WrittenAs ⟨"a", .descending⟩
      (.record (named [("order", .text "descending"), ("x", .list [.record [], .text none]),
        ("field", .text "a")])) := by
    refine .record ?_ ?_
    · exact .once [_, _] [] rfl (by decide) (by decide) rfl
    · exact .once [] [_, _] rfl (by decide) (by decide) (.text (Or.inr rfl))
  have hspells : Spells (asRead (document ⟨"field", .ascending⟩).literals)
      "\x7b\"field\": \x7b\"order\": \"asc\"\x7d\x7d".toList :=
    (Json.read?_eq_some_iff _ _).mp rfl
  refine ⟨((reading_of_written _).1 _).mpr ⟨_, (Json.read?_eq_some_iff _ _).mp rfl, hwritten⟩,
    ((reading_of_written _).1 _).mpr ⟨_, (Json.read?_eq_some_iff _ _).mp rfl, .alone rfl⟩,
    hspells, (reading_of_written _).2.1 _ hspells⟩

end SortKey

end QueryAlgebra
