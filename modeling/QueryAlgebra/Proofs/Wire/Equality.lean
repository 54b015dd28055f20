import Mathlib.Data.List.Perm.Subperm
import QueryAlgebra.Proofs.Wire.Reading
import QueryAlgebra.Sameness

/-!
# Equality of documents

Two JSON values are equal whatever the order in which their records have their fields.
`Document.equal` is this equality, with floats compared as numbers.

The records of the wire have a fixed list of keys, each of which may be missing. Such a record
is given by its slots, `Document.present`. `equal_present` compares two of them slot by slot:
a parameter that is set never makes up for another one that is not.
-/

namespace QueryAlgebra

namespace Document

mutual

/-- Equality as JSON values. -/
def equal : Document → Document → Bool
  | .null, .null => true
  | .bool b, .bool c => b == c
  | .number m, .number n => m.same n
  | .text s, .text t => s == t
  | .list items, .list others => equalItems items others
  | .record fields, .record others =>
    fields.length == others.length && equalFields fields others
  | _, _ => false

/-- `equal`, item by item. -/
def equalItems : List Document → List Document → Bool
  | [], [] => true
  | d :: ds, e :: es => equal d e && equalItems ds es
  | _, _ => false

/-- Every field has its key in the other record, with an equal value. -/
def equalFields : List (String × Document) → List (String × Document) → Bool
  | [], _ => true
  | (key, value) :: fields, others =>
    (match others.lookup key with
      | some other => equal value other
      | none => false) && equalFields fields others

end

theorem equal_record (fields others : List (String × Document)) :
    equal (.record fields) (.record others) =
      (fields.length == others.length && equalFields fields others) := by
  rw [equal]

example : equal (.record [("field", .text "a"), ("boost", .null)])
    (.record [("boost", .null), ("field", .text "a")]) = true := by decide

theorem equal_list (ds es : List Document) :
    equal (.list ds) (.list es) = sameList equal ds es := by
  rw [equal]
  induction ds generalizing es with
  | nil => cases es <;> rfl
  | cons d ds ih =>
      cases es with
      | nil => rfl
      | cons e es => rw [equalItems, ih, sameList_cons]

theorem equal_single (key other : String) (d e : Document) :
    equal (single key d) (single other e) = (key == other && equal d e) := by
  rw [single, single, equal_record, equalFields, equalFields, lookup_pair]
  by_cases h : key = other
  · simp [h]
  · simp [h]

theorem equal_text (s t : String) : equal (.text s) (.text t) = (s == t) := by
  rw [equal]

theorem equal_bool (b c : Bool) : equal (.bool b) (.bool c) = (b == c) := by
  rw [equal]

theorem equal_integer (m n : Int) : equal (integer m) (integer n) = (m == n) := by
  rw [integer, integer, equal, WireNumber.same]

theorem equal_float {x y : Binary64} (hx : x.isFinite = true) (hy : y.isFinite = true) :
    equal (float x) (float y) = x.same y := by
  rw [float, float, if_pos hx, if_pos hy, equal, WireNumber.same]

/-- The fields of a record from its slots; a slot without a value is left out. -/
def present : List (String × Option Document) → List (String × Document)
  | [] => []
  | (key, some value) :: slots => (key, value) :: present slots
  | (_, none) :: slots => present slots

@[simp] theorem present_nil : present [] = [] := rfl

@[simp] theorem present_cons_some (key : String) (value : Document)
    (slots : List (String × Option Document)) :
    present ((key, some value) :: slots) = (key, value) :: present slots := rfl

@[simp] theorem present_cons_none (key : String) (slots : List (String × Option Document)) :
    present ((key, none) :: slots) = present slots := rfl

@[simp] theorem present_cons_map {α : Type} (key : String) (write : α → Document)
    (o : Option α) (slots : List (String × Option Document)) :
    present ((key, o.map write) :: slots) = parameter key write o ++ present slots := by
  cases o <;> rfl

theorem parameter_bind_some {α β : Type} (key : String) (write : β → Document) (f : α → β)
    (o : Option α) :
    parameter key write (o.bind fun a => some (f a)) = parameter key (fun a => write (f a)) o := by
  cases o <;> rfl

/-- The value of a bucket's slot. -/
def listed : List Document → Option Document
  | [] => none
  | ds => some (.list ds)

@[simp] theorem present_cons_listed (key : String) (ds : List Document)
    (slots : List (String × Option Document)) :
    present ((key, listed ds) :: slots) = bucket key ds ++ present slots := by
  cases ds <;> rfl

theorem sameOption_equal_listed (ds es : List Document) :
    sameOption equal (listed ds) (listed es) = sameList equal ds es := by
  cases ds with
  | nil => cases es <;> rfl
  | cons d ds =>
      cases es with
      | nil => rfl
      | cons e es => exact equal_list (d :: ds) (e :: es)

theorem keys_present_sublist (slots : List (String × Option Document)) :
    ((present slots).map Prod.fst).Sublist (slots.map Prod.fst) := by
  induction slots with
  | nil => exact List.Sublist.slnil
  | cons slot slots ih =>
      obtain ⟨key, value⟩ := slot
      cases value with
      | none => exact ih.cons key
      | some value => exact ih.cons_cons key

theorem lookup_eq_none_of_not_mem {key : String} {fields : List (String × Document)}
    (h : key ∉ fields.map Prod.fst) : fields.lookup key = none := by
  rw [List.lookup_eq_none_iff]
  intro field hfield
  rw [bne_iff_ne]
  rintro rfl
  exact h (List.mem_map_of_mem hfield)

/-- A field of the other record is of no use where its key is not asked for. -/
theorem equalFields_cons_of_not_mem {key : String} {fields : List (String × Document)}
    (h : key ∉ fields.map Prod.fst) (value : Document) (others : List (String × Document)) :
    equalFields fields ((key, value) :: others) = equalFields fields others := by
  induction fields with
  | nil => rfl
  | cons field fields ih =>
      obtain ⟨name, d⟩ := field
      rw [List.map_cons, List.mem_cons, not_or] at h
      have hne : (name == key) = false := beq_false_of_ne (Ne.symm h.1)
      rw [equalFields, equalFields, ih h.2, List.lookup_cons, hne]

theorem length_le_of_equalFields {fields others : List (String × Document)}
    (hnodup : (fields.map Prod.fst).Nodup) (h : equalFields fields others = true) :
    fields.length ≤ others.length := by
  have hsubset : fields.map Prod.fst ⊆ others.map Prod.fst := by
    clear hnodup
    induction fields with
    | nil => exact List.nil_subset _
    | cons field fields ih =>
        obtain ⟨key, value⟩ := field
        rw [equalFields, Bool.and_eq_true] at h
        refine List.cons_subset.mpr ⟨?_, ih h.2⟩
        by_contra hmissing
        rw [lookup_eq_none_of_not_mem hmissing] at h
        exact absurd h.1 Bool.false_ne_true
  simpa using (hnodup.subperm hsubset).length_le

/-- Records over the same distinct keys are equal exactly when they are slot by slot. -/
theorem equal_present (slots : List (String × Option Document × Option Document))
    (hnodup : (slots.map Prod.fst).Nodup) :
    equal (.record (present (slots.map fun s => (s.1, s.2.1))))
        (.record (present (slots.map fun s => (s.1, s.2.2)))) =
      slots.all fun s => sameOption equal s.2.1 s.2.2 := by
  induction slots with
  | nil => rfl
  | cons slot slots ih =>
      obtain ⟨key, left, right⟩ := slot
      rw [List.map_cons, List.nodup_cons] at hnodup
      obtain ⟨hfresh, hnodup⟩ := hnodup
      have ih := ih hnodup
      set ls := slots.map fun s => (s.1, s.2.1) with hls
      set rs := slots.map fun s => (s.1, s.2.2) with hrs
      have hlKeys : ((present ls).map Prod.fst).Sublist (slots.map Prod.fst) := by
        simpa [hls, Function.comp_def] using keys_present_sublist ls
      have hrKeys : ((present rs).map Prod.fst).Sublist (slots.map Prod.fst) := by
        simpa [hrs, Function.comp_def] using keys_present_sublist rs
      have hlFresh : key ∉ (present ls).map Prod.fst := fun h => hfresh (hlKeys.subset h)
      have hrFresh : key ∉ (present rs).map Prod.fst := fun h => hfresh (hrKeys.subset h)
      rw [List.map_cons, List.map_cons, List.all_cons, ← hls, ← hrs, ← ih, equal_record]
      cases left with
      | none =>
          cases right with
          | none => rfl
          | some e =>
              -- the right record has one field more than the left one can ask for
              have hdiffer : sameOption equal none (some e) = false := rfl
              rw [present, present, equalFields_cons_of_not_mem hlFresh, List.length_cons,
                hdiffer, Bool.false_and, Bool.and_eq_false_iff, beq_eq_false_iff_ne]
              by_contra h
              rw [not_or, not_not, Bool.not_eq_false] at h
              have hle := length_le_of_equalFields (hlKeys.nodup hnodup) h.2
              omega
      | some d =>
          cases right with
          | none =>
              have hlookup := lookup_eq_none_of_not_mem hrFresh
              simp [present, equalFields, hlookup, sameOption]
          | some e =>
              rw [present, present, equalFields, List.lookup_cons_self,
                equalFields_cons_of_not_mem hlFresh, List.length_cons, List.length_cons,
                sameOption_some, equal_record, Bool.and_left_comm]
              simp

/-- `equal_present` for records that are given otherwise. -/
theorem equal_record_of_slots {fields others : List (String × Document)}
    (slots : List (String × Option Document × Option Document))
    (hnodup : (slots.map Prod.fst).Nodup)
    (hfields : present (slots.map fun s => (s.1, s.2.1)) = fields)
    (hothers : present (slots.map fun s => (s.1, s.2.2)) = others) :
    equal (.record fields) (.record others) =
      slots.all fun s => sameOption equal s.2.1 s.2.2 := by
  rw [← hfields, ← hothers, equal_present slots hnodup]

/-- A slot whose values are written one to one. -/
theorem sameOption_equal_map {α : Type} [BEq α] {write : α → Document}
    (h : ∀ a b, equal (write a) (write b) = (a == b)) (o p : Option α) :
    sameOption equal (o.map write) (p.map write) = (o == p) :=
  (sameOption_map fun a _ b _ => h a b).trans (sameOption_beq o p)

theorem sameOption_equal_boost {o p : Option Binary64} (ho : ∀ b ∈ o, isBoost b = true)
    (hp : ∀ b ∈ p, isBoost b = true) :
    sameOption equal (o.map float) (p.map float) = sameOption Binary64.same o p := by
  have hfinite : ∀ {b : Binary64}, isBoost b = true → b.isFinite = true := by
    intro b hb
    rw [isBoost, Bool.and_eq_true] at hb
    exact hb.1
  exact sameOption_map fun a ha b hb => equal_float (hfinite (ho a ha)) (hfinite (hp b hb))

end Document

end QueryAlgebra
