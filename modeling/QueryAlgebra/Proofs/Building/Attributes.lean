import Mathlib.Tactic.Common
import QueryAlgebra.Proofs.Building.Conditions

/-!
# Conditions on attributes, fault by fault

A condition on a well-known attribute is checked twice: the attribute has to hold the value, and
then the condition is created like any other. `Attribute.Holds` says in terms of the value alone
what an attribute holds. What it holds passes the second check as well, so the only fault there is
says what the attribute expects.
-/

namespace QueryAlgebra

namespace Attribute

/-- The attribute holds the value. -/
inductive Holds : Attribute → Value → Prop
  | text {a : Attribute} (s : String) : a.kind = .text → Holds a (.text s)
  | timestamp {a : Attribute} (t : Timestamp) : a.kind = .timestamp → Holds a (.timestamp t)
  | active : Holds .state (.text "ACTIVE")
  | deleted : Holds .state (.text "DELETED")

theorem kind_eq_lifecycle_iff (a : Attribute) : a.kind = .lifecycle ↔ a = .state := by
  cases a <;> simp [kind]

/-- Every attribute has a field with a name. -/
theorem isBlank_field (a : Attribute) : Text.isBlank a.field = false := by
  cases a <;> rfl

theorem holds_state_iff (v : Value) :
    Holds .state v ↔ v = .text "ACTIVE" ∨ v = .text "DELETED" := by
  constructor
  · intro h
    cases h with
    | text _ hkind => exact nomatch hkind
    | timestamp _ hkind => exact nomatch hkind
    | active => exact Or.inl rfl
    | deleted => exact Or.inr rfl
  · rintro (rfl | rfl)
    · exact .active
    · exact .deleted

theorem isSome_ofName?_iff (s : String) :
    (Lifecycle.ofName? s).isSome = true ↔ s = "ACTIVE" ∨ s = "DELETED" := by
  rw [Option.isSome_iff_exists]
  constructor
  · rintro ⟨stage, h⟩
    rw [Lifecycle.ofName?_eq_some_iff] at h
    cases stage with
    | active => exact Or.inl h
    | deleted => exact Or.inr h
  · rintro (rfl | rfl)
    · exact ⟨.active, rfl⟩
    · exact ⟨.deleted, rfl⟩

theorem admits_iff_holds (a : Attribute) (v : Value) : a.admits v = true ↔ a.Holds v := by
  unfold admits
  constructor
  · intro h
    split at h
    · next s hkind => exact .text s hkind
    · next t hkind => exact .timestamp t hkind
    · next s hkind =>
      obtain rfl := (kind_eq_lifecycle_iff a).mp hkind
      rcases (isSome_ofName?_iff s).mp h with rfl | rfl
      · exact .active
      · exact .deleted
    · exact nomatch h
  · intro h
    cases h with
    | text s hkind => simp only [hkind]
    | timestamp t hkind => simp only [hkind]
    | active => rfl
    | deleted => rfl

theorem isFinite_of_holds {a : Attribute} {v : Value} (h : a.Holds v) : v.isFinite = true := by
  cases h <;> rfl

theorem check_of_holds {a : Attribute} {v : Value} (h : a.Holds v) : a.check v = .ok () := by
  rw [check, if_pos ((admits_iff_holds a v).mpr h)]

theorem check_of_not_holds {a : Attribute} {v : Value} (h : ¬a.Holds v) :
    a.check v = .error (.unfit a) := by
  rw [check, if_neg (mt (admits_iff_holds a v).mp h)]

end Attribute

open Attribute

section Term

variable {a : Attribute} {v : Value}

/-- The second check never fails. -/
theorem Term.create_of_holds (h : a.Holds v) :
    Term.create a.field v = .ok { field := a.field, value := v } :=
  (create_eq_ok_iff _ _ _).mpr ⟨a.isBlank_field, isFinite_of_holds h, rfl⟩

theorem Term.onAttribute_of_holds (h : a.Holds v) :
    Term.onAttribute a v = Term.create a.field v := by
  rw [onAttribute, check_of_holds h]
  rfl

theorem Term.onAttribute_of_not_holds (h : ¬a.Holds v) :
    Term.onAttribute a v = .error (.unfit a) := by
  rw [onAttribute, check_of_not_holds h]
  rfl

theorem Term.onAttribute_eq_ok_iff (t : Term) :
    Term.onAttribute a v = .ok t ↔ a.Holds v ∧ Term.create a.field v = .ok t := by
  by_cases h : a.Holds v
  · rw [onAttribute_of_holds h, and_iff_right h]
  · simp [onAttribute_of_not_holds h, h]

theorem Term.exists_onAttribute_eq_ok_iff :
    (∃ t, Term.onAttribute a v = .ok t) ↔ a.Holds v := by
  constructor
  · rintro ⟨t, ht⟩
    exact ((onAttribute_eq_ok_iff t).mp ht).1
  · intro h
    exact ⟨_, (onAttribute_eq_ok_iff _).mpr ⟨h, create_of_holds h⟩⟩

theorem Term.onAttribute_eq_error_iff (f : Fault) :
    Term.onAttribute a v = .error f ↔ ¬a.Holds v ∧ f = .unfit a := by
  by_cases h : a.Holds v
  · simp [onAttribute_of_holds h, create_of_holds h, h]
  · simp [onAttribute_of_not_holds h, h, eq_comm]

end Term

section StartsWith

variable {a : Attribute} {s : String}

theorem StartsWith.create_field (a : Attribute) (s : String) :
    StartsWith.create a.field s = .ok { field := a.field, value := s } :=
  (create_eq_ok_iff _ _ _).mpr ⟨a.isBlank_field, rfl⟩

theorem StartsWith.onAttribute_of_holds (h : a.Holds (.text s)) :
    StartsWith.onAttribute a s = StartsWith.create a.field s := by
  rw [onAttribute, check_of_holds h]
  rfl

theorem StartsWith.onAttribute_of_not_holds (h : ¬a.Holds (.text s)) :
    StartsWith.onAttribute a s = .error (.unfit a) := by
  rw [onAttribute, check_of_not_holds h]
  rfl

theorem StartsWith.onAttribute_eq_ok_iff (p : StartsWith) :
    StartsWith.onAttribute a s = .ok p ↔
      (∃ t, Term.onAttribute a (.text s) = .ok t) ∧ StartsWith.create a.field s = .ok p := by
  rw [Term.exists_onAttribute_eq_ok_iff]
  by_cases h : a.Holds (.text s)
  · rw [onAttribute_of_holds h, and_iff_right h]
  · simp [onAttribute_of_not_holds h, h]

theorem StartsWith.onAttribute_eq_error_iff (f : Fault) :
    StartsWith.onAttribute a s = .error f ↔ Term.onAttribute a (.text s) = .error f := by
  rw [Term.onAttribute_eq_error_iff]
  by_cases h : a.Holds (.text s)
  · simp [onAttribute_of_holds h, create_field, h]
  · simp [onAttribute_of_not_holds h, h, eq_comm]

end StartsWith

namespace Attribute

/-- What conditions on an attribute come to. A comparison is built exactly when the attribute holds
the value, as the comparison with its field, and fails with the one fault that says what the
attribute expects. A text is accepted at the start exactly when it is accepted as a whole, and any
attribute can be asked for. -/
theorem conditions_of_holds (a : Attribute) :
    (∀ v t, Term.onAttribute a v = .ok t ↔ a.Holds v ∧ Term.create a.field v = .ok t) ∧
      (∀ v, a.Holds v →
        Term.create a.field v = .ok { field := a.field, value := v, tuning := {} }) ∧
      (∀ v f, Term.onAttribute a v = .error f ↔ ¬a.Holds v ∧ f = .unfit a) ∧
      (Fault.unfit a).message? =
        some ("attribute '" ++ a.field ++ "' expects a " ++ a.kind.name ++ " value") ∧
      (∀ s p, StartsWith.onAttribute a s = .ok p ↔
        (∃ t, Term.onAttribute a (.text s) = .ok t) ∧ StartsWith.create a.field s = .ok p) ∧
      (∀ s, StartsWith.create a.field s = .ok { field := a.field, value := s, tuning := {} }) ∧
      (∀ s f, StartsWith.onAttribute a s = .error f ↔
        Term.onAttribute a (.text s) = .error f) ∧
      Presence.onAttribute a = .ok { field := a.field } := by
  refine ⟨fun v => Term.onAttribute_eq_ok_iff, fun v => Term.create_of_holds,
    fun v => Term.onAttribute_eq_error_iff, ?_, fun s => StartsWith.onAttribute_eq_ok_iff,
    StartsWith.create_field a, fun s => StartsWith.onAttribute_eq_error_iff, ?_⟩
  · rfl
  · exact (Presence.create_eq_ok_iff _ _).mpr ⟨a.isBlank_field, rfl⟩

/-- A stage in the life of an entity, and a name that is none. -/
theorem conditions_of_holds_state :
    Holds .state (.text "DELETED") ∧
      Term.create (field .state) (.text "DELETED") =
        .ok { field := "__state", value := .text "DELETED", tuning := {} } ∧
      Term.onAttribute .state (.text "DELETED") =
        .ok { field := "__state", value := .text "DELETED", tuning := {} } ∧
      Term.onAttribute .state (.text "deleted") = .error (.unfit .state) ∧
      StartsWith.onAttribute .state "deleted" = .error (.unfit .state) ∧
      Term.onAttribute .createTime (.number (.float .notANumber)) =
        .error (.unfit .createTime) := by
  obtain ⟨hok, hcreate, herror, -, -, -, hstart, -⟩ := conditions_of_holds .state
  have hdeleted := hcreate _ .deleted
  have hnot : ¬Holds .state (.text "deleted") := mt (holds_state_iff _).mp (by decide)
  have hnumber : ¬Holds .createTime (.number (.float .notANumber)) := by
    rintro ⟨⟩
  have hterm := (herror _ _).mpr ⟨hnot, rfl⟩
  exact ⟨.deleted, hdeleted, (hok _ _).mpr ⟨.deleted, hdeleted⟩, hterm, (hstart _ _).mpr hterm,
    ((conditions_of_holds .createTime).2.2.1 _ _).mpr ⟨hnumber, rfl⟩⟩

end Attribute

end QueryAlgebra
