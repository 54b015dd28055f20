import Mathlib.Data.List.Forall2
import QueryAlgebra.Defaults.Reading

/-!
# How defaults are read from their fields

What a reader finds under a key depends on the fields with this key alone, so neither the order
of the fields nor what stands under other keys matters. `View.Says` is what a record says under
one key, and each rule for reading is stated once for every format.
-/

namespace QueryAlgebra

namespace View

variable {α β : Type}

/-- What a record says under a key: a value, once, or nothing where nothing need be said. -/
inductive Says (fields : List (String × α)) (key : String) (value : α → Prop) (missing : Prop) :
    Prop
  | once (before after : List (String × α)) {v : α} :
      fields = before ++ (key, v) :: after → key ∉ before.map Prod.fst →
        key ∉ after.map Prod.fst → value v → Says fields key value missing
  | never : key ∉ fields.map Prod.fst → missing → Says fields key value missing

theorem filter_key_eq_nil {fields : List (String × α)} {key : String}
    (h : key ∉ fields.map Prod.fst) : (fields.filter fun field => field.1 = key) = [] := by
  rw [List.filter_eq_nil_iff]
  intro field hfield hkey
  rw [decide_eq_true_eq] at hkey
  exact h (hkey ▸ List.mem_map_of_mem hfield)

theorem field?_of_says {fields : List (String × α)} {key : String} {value : α → Prop}
    {missing : Prop} (h : Says fields key value missing) {read : α → Option β}
    {standard : Option β} {b : β} (hvalue : ∀ v, value v → read v = some b)
    (hmissing : missing → standard = some b) : field? key read standard fields = some b := by
  cases h with
  | @once before after v heq hbefore hafter hv =>
      have hsingle : single? key fields = some (some v) := by
        rw [single?, heq, List.filter_append, List.filter_cons_of_pos (by simp),
          filter_key_eq_nil hbefore, filter_key_eq_nil hafter]
        rfl
      rw [field?, hsingle]
      exact hvalue v hv
  | never hnever hm =>
      rw [field?, single?, filter_key_eq_nil hnever]
      exact hmissing hm

theorem not_mem_of_filter_key_eq_nil {fields : List (String × α)} {key : String}
    (h : (fields.filter fun field => field.1 = key) = []) : key ∉ fields.map Prod.fst := by
  rw [List.filter_eq_nil_iff] at h
  intro hmem
  obtain ⟨field, hfield, hkey⟩ := List.mem_map.mp hmem
  exact h field hfield (decide_eq_true hkey)

/-- What is read under a key was said there. -/
theorem field?_eq_some_iff {fields : List (String × α)} {key : String} {read : α → Option β}
    {standard : Option β} {b : β} :
    field? key read standard fields = some b ↔
      Says fields key (fun v => read v = some b) (standard = some b) := by
  constructor
  · intro h
    obtain ⟨value, hsingle, hvalue⟩ := Option.bind_eq_some_iff.mp h
    unfold single? at hsingle
    split at hsingle
    · next hnil =>
      obtain rfl := Option.some.inj hsingle
      exact .never (not_mem_of_filter_key_eq_nil hnil) hvalue
    · next field hone =>
      obtain rfl := Option.some.inj hsingle
      obtain ⟨before, after, rfl, hbefore, hkey, hafter⟩ := List.filter_eq_cons_iff.mp hone
      obtain rfl := of_decide_eq_true hkey
      have hbefore' := not_mem_of_filter_key_eq_nil (List.filter_eq_nil_iff.mpr hbefore)
      exact .once before after rfl hbefore' (not_mem_of_filter_key_eq_nil hafter) hvalue
    · exact nomatch hsingle
  · intro h
    exact field?_of_says h (fun _ => id) id

/-- A key that occurs twice cannot be read. -/
theorem field?_eq_none_of_twice {before after : List (String × α)} {key : String} (v : α)
    (htwice : key ∈ (before ++ after).map Prod.fst) (read : α → Option β)
    (standard : Option β) : field? key read standard (before ++ (key, v) :: after) = none := by
  have htwo : 2 ≤ ((before ++ (key, v) :: after).filter fun field => field.1 = key).length := by
    obtain ⟨field, hfield, hkey⟩ := List.mem_map.mp htwice
    have hmem : ∀ {fields : List (String × α)}, field ∈ fields →
        0 < (fields.filter fun field => field.1 = key).length := fun hin =>
      List.length_pos_of_mem (List.mem_filter.mpr ⟨hin, decide_eq_true hkey⟩)
    rw [List.filter_append, List.filter_cons_of_pos (by simp), List.length_append,
      List.length_cons]
    rcases List.mem_append.mp hfield with hin | hin
    · have hbefore := hmem hin
      omega
    · have hafter := hmem hin
      omega
  have hsingle : single? key (before ++ (key, v) :: after) = none := by
    unfold single?
    split
    · next hnil => simp [hnil] at htwo
    · next field hone => simp [hone] at htwo
    · rfl
  rw [field?, hsingle]
  rfl

end View

open View

variable {α β : Type} {view : View α}

/-- Reading a sort key means finding a record and reading its field and its direction. -/
theorem SortKey.read?_eq_some_iff {value : α} {k : SortKey} :
    SortKey.read? view value = some k ↔
      ∃ fields, view.record? ["field", "order"] value = some fields ∧
        field? "field" view.text? none fields = some k.field ∧
        field? "order" (fun v => (view.choice? v).bind Direction.ofName?) (some .standard) fields =
          some k.direction := by
  rw [SortKey.read?, Option.bind_eq_bind, Option.bind_eq_some_iff]
  refine exists_congr fun fields => and_congr_right fun _ => ?_
  constructor
  · intro h
    obtain ⟨_, hfield, h⟩ := Option.bind_eq_some_iff.mp h
    obtain ⟨_, horder, h⟩ := Option.bind_eq_some_iff.mp h
    cases h
    exact ⟨hfield, horder⟩
  · rintro ⟨hfield, horder⟩
    rw [hfield, horder]
    rfl

namespace Defaults

theorem readPageSize?_eq_some {value : α} {n : Nat} (hnatural : view.natural? value = some n)
    (h : n ≤ largestPageSize) : readPageSize? view value = some n := by
  rw [readPageSize?, hnatural, Option.filter_some, if_pos (decide_eq_true h)]

/-- A list is read when each of its items is. -/
theorem readList?_eq_some {read : α → Option β} {value : α} {items : List α} {bs : List β}
    (hitems : view.items? value = some items)
    (hread : List.Forall₂ (fun b item => read item = some b) bs items) :
    readList? view read value = some bs := by
  have hall : items.mapM read = some bs := by
    clear hitems
    induction hread with
    | nil => rfl
    | cons hb _ ih =>
        rw [List.mapM_cons, hb, ih]
        rfl
  rw [readList?, hitems, Option.bind_some, hall]

/-- A list of written items is read when each item can be read where it is written. -/
theorem readList?_map {read : α → Option β} {write : β → α} {value : α} {bs : List β}
    (hitems : view.items? value = some (bs.map write)) (hread : ∀ b, read (write b) = some b) :
    readList? view read value = some bs := by
  refine readList?_eq_some hitems ?_
  rw [List.forall₂_map_right_iff, List.forall₂_same]
  exact fun b _ => hread b

/-- Reading defaults means finding a record with known keys alone and reading each of them. -/
theorem read?_eq_some_iff {value : α} {d : Defaults} :
    Defaults.read? view value = some d ↔
      ∃ fields, view.record? keys value = some fields ∧ (∀ field ∈ fields, field.1 ∈ keys) ∧
        field? "page_size" (readPageSize? view) (some standardPageSize) fields =
          some d.pageSize ∧
        field? "attributes" (readList? view view.text?) (some []) fields = some d.attributes ∧
        field? "sort" (readList? view (SortKey.read? view)) (some []) fields = some d.sort := by
  have hguard : ∀ fields : List (String × α),
      (guard (fields.all fun field => keys.contains field.1) : Option Unit) = some () ↔
        ∀ field ∈ fields, field.1 ∈ keys := by
    intro fields
    unfold guard
    split
    · next hall => simpa using hall
    · next hall => simpa using hall
  rw [Defaults.read?, Option.bind_eq_bind, Option.bind_eq_some_iff]
  refine exists_congr fun fields => and_congr_right fun _ => ?_
  constructor
  · intro h
    obtain ⟨⟨⟩, hknown, h⟩ := Option.bind_eq_some_iff.mp h
    obtain ⟨_, hpageSize, h⟩ := Option.bind_eq_some_iff.mp h
    obtain ⟨_, hattributes, h⟩ := Option.bind_eq_some_iff.mp h
    obtain ⟨_, hsort, h⟩ := Option.bind_eq_some_iff.mp h
    cases h
    exact ⟨(hguard fields).mp hknown, hpageSize, hattributes, hsort⟩
  · rintro ⟨hknown, hpageSize, hattributes, hsort⟩
    rw [(hguard fields).mpr hknown, hpageSize, hattributes, hsort]
    rfl

/-- No other key is allowed. -/
theorem read?_eq_none_of_unknown {value : α} {fields : List (String × α)}
    (hrecord : view.record? keys value = some fields) {key : String}
    (hkey : key ∈ fields.map Prod.fst) (hunknown : key ∉ keys) :
    Defaults.read? view value = none := by
  rw [Option.eq_none_iff_forall_ne_some]
  intro d hread
  obtain ⟨fields', hrecord', hknown, -⟩ := read?_eq_some_iff.mp hread
  obtain rfl := Option.some.inj (hrecord.symm.trans hrecord')
  obtain ⟨field, hfield, rfl⟩ := List.mem_map.mp hkey
  exact hunknown (hknown field hfield)

/-- No key is allowed twice. -/
theorem read?_eq_none_of_twice {value v : α} {before after : List (String × α)} {key : String}
    (hrecord : view.record? keys value = some (before ++ (key, v) :: after))
    (htwice : key ∈ (before ++ after).map Prod.fst) : Defaults.read? view value = none := by
  rw [Option.eq_none_iff_forall_ne_some]
  intro d hread
  obtain ⟨fields, hfields, hknown, hpageSize, hattributes, hsort⟩ := read?_eq_some_iff.mp hread
  obtain rfl := Option.some.inj (hrecord.symm.trans hfields)
  have hkey : key ∈ keys := hknown (key, v) (by simp)
  simp only [keys, List.mem_cons, List.not_mem_nil, or_false] at hkey
  rcases hkey with rfl | rfl | rfl
  · exact nomatch (field?_eq_none_of_twice v htwice _ _).symm.trans hpageSize
  · exact nomatch (field?_eq_none_of_twice v htwice _ _).symm.trans hattributes
  · exact nomatch (field?_eq_none_of_twice v htwice _ _).symm.trans hsort

end Defaults

end QueryAlgebra
