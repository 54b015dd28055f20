import Mathlib.Tactic.Common
import QueryAlgebra.Proofs.Building.Conditions

/-!
# Comparison with several values, fault by fault

Several things can be wrong with a field and the values that it is compared with, and one of them
is named. `Terms.Outcome` says which, in terms of the field's characters and of the values alone:
the field comes before the values, every single value before their number, and their number before
their kinds. Of kinds that differ, the fault names that of the first value and the first other one
after it.
-/

namespace QueryAlgebra

/-- A float that is infinite or not a number. -/
def Value.NotFinite (v : Value) : Prop :=
  v = .number (.float .notANumber) ∨ ∃ negative, v = .number (.float (.infinite negative))

theorem Value.isFinite_eq_false_iff (v : Value) : v.isFinite = false ↔ v.NotFinite := by
  cases v with
  | number n =>
      cases n with
      | float x => cases x <;> simp [isFinite, Numeric.isFinite, Binary64.isFinite, NotFinite]
      | _ => simp [isFinite, Numeric.isFinite, NotFinite]
  | _ => simp [isFinite, NotFinite]

theorem Value.isFinite_iff (v : Value) : v.isFinite = true ↔ ¬v.NotFinite := by
  rw [← isFinite_eq_false_iff, Bool.not_eq_false]

namespace Terms

/-- What comes of comparing a field with several values. -/
inductive Outcome (field : String) (values : List Value) : Except Fault Terms → Prop
  | blankField :
      (∀ c ∈ field.toList, Text.isWhiteSpace c = true) →
      Outcome field values (.error (.blankField .terms))
  | reservedField :
      (∃ c ∈ field.toList, Text.isWhiteSpace c = false) → field = "boost" →
      Outcome field values (.error (.reservedField field))
  | notFinite :
      (∃ c ∈ field.toList, Text.isWhiteSpace c = false) → field ≠ "boost" →
      (∃ v ∈ values, v.NotFinite) →
      Outcome field values (.error (.notFinite .terms field))
  | noTerms :
      (∃ c ∈ field.toList, Text.isWhiteSpace c = false) → field ≠ "boost" →
      values = [] →
      Outcome field values (.error (.noTerms field))
  | mixedTerms {first other : Value} {alike rest : List Value} :
      (∃ c ∈ field.toList, Text.isWhiteSpace c = false) → field ≠ "boost" →
      (∀ v ∈ values, ¬v.NotFinite) → values = first :: (alike ++ other :: rest) →
      (∀ v ∈ alike, v.kind = first.kind) → other.kind ≠ first.kind →
      Outcome field values (.error (.mixedTerms field first.kind other.kind))
  | accepted :
      (∃ c ∈ field.toList, Text.isWhiteSpace c = false) → field ≠ "boost" →
      (∀ v ∈ values, ¬v.NotFinite) → values ≠ [] →
      (∀ v ∈ values, ∀ w ∈ values, v.kind = w.kind) →
      Outcome field values (.ok { field, values, boost := none })

variable {field : String} {values : List Value}

theorem not_isBlank (h : ∃ c ∈ field.toList, Text.isWhiteSpace c = false) :
    ¬Text.isBlank field = true := by
  rw [Bool.not_eq_true, Text.isBlank_eq_false_iff]
  exact h

theorem all_isFinite (h : ∀ v ∈ values, ¬v.NotFinite) : values.all Value.isFinite = true :=
  List.all_eq_true.mpr fun v hv => (Value.isFinite_iff v).mpr (h v hv)

/-- Every outcome is what the constructor gives. -/
theorem create_eq_of_outcome {r : Except Fault Terms} (h : Outcome field values r) :
    create field values = r := by
  cases h with
  | blankField hblank =>
      have hblank' : Text.isBlank field = true := List.all_eq_true.mpr hblank
      rw [create.eq_def, if_pos hblank']
  | reservedField hfield hreserved =>
      rw [create.eq_def, if_neg (not_isBlank hfield), reserved, if_pos hreserved]
  | notFinite hfield hreserved hvalue =>
      obtain ⟨v, hv, hnot⟩ := hvalue
      have hfinite : ¬values.all Value.isFinite = true := by
        intro hall
        exact (Value.isFinite_iff v).mp (List.all_eq_true.mp hall v hv) hnot
      rw [create.eq_def, if_neg (not_isBlank hfield), reserved, if_neg hreserved, if_neg hfinite]
  | noTerms hfield hreserved hnil =>
      subst hnil
      rw [create.eq_def, if_neg (not_isBlank hfield), reserved, if_neg hreserved]
      rfl
  | @mixedTerms first other alike rest hfield hreserved hall hvalues halike hother =>
      subst hvalues
      have hfind : (alike ++ other :: rest).find? (fun v => v.kind ≠ first.kind) = some other :=
        List.find?_eq_some_iff_append.mpr
          ⟨by simpa using hother, alike, rest, rfl, by simpa using halike⟩
      rw [create.eq_def, if_neg (not_isBlank hfield), reserved, if_neg hreserved,
        if_pos (all_isFinite hall)]
      simp only [hfind]
  | accepted hfield hreserved hall hne hkinds =>
      obtain ⟨first, rest, rfl⟩ := List.exists_cons_of_ne_nil hne
      have hfind := (find?_kind_eq_none_iff first rest).mpr hkinds
      rw [create.eq_def, if_neg (not_isBlank hfield), reserved, if_neg hreserved,
        if_pos (all_isFinite hall)]
      simp only [hfind]

/-- The outcomes leave nothing open. -/
theorem exists_outcome (field : String) (values : List Value) : ∃ r, Outcome field values r := by
  by_cases hblank : ∀ c ∈ field.toList, Text.isWhiteSpace c = true
  · exact ⟨_, .blankField hblank⟩
  have hfield : ∃ c ∈ field.toList, Text.isWhiteSpace c = false := by simpa using hblank
  by_cases hreserved : field = "boost"
  · exact ⟨_, .reservedField hfield hreserved⟩
  by_cases hvalue : ∃ v ∈ values, v.NotFinite
  · exact ⟨_, .notFinite hfield hreserved hvalue⟩
  have hall : ∀ v ∈ values, ¬v.NotFinite := fun v hv hnot => hvalue ⟨v, hv, hnot⟩
  cases hvalues : values with
  | nil => exact ⟨_, .noTerms hfield hreserved rfl⟩
  | cons first rest =>
      rw [hvalues] at hall
      cases hfind : rest.find? fun v => v.kind ≠ first.kind with
      | none =>
          have hkinds := (find?_kind_eq_none_iff first rest).mp hfind
          exact ⟨_, .accepted hfield hreserved hall (List.cons_ne_nil first rest) hkinds⟩
      | some other =>
          obtain ⟨hother, alike, others, rfl, halike⟩ := List.find?_eq_some_iff_append.mp hfind
          exact ⟨_, .mixedTerms hfield hreserved hall rfl (by simpa using halike)
            (by simpa using hother)⟩

theorem create_eq_iff_outcome (r : Except Fault Terms) :
    create field values = r ↔ Outcome field values r := by
  constructor
  · rintro rfl
    obtain ⟨r, h⟩ := exists_outcome field values
    rwa [create_eq_of_outcome h]
  · exact create_eq_of_outcome

/-- Numbers are of one kind, whatever their forms. -/
theorem create_numbers_ne_mixedTerms (field : String) (ns : List Numeric) (g : String)
    (k l : ValueKind) :
    create field (ns.map Value.number) ≠ .error (.mixedTerms g k l) := by
  intro h
  cases (create_eq_iff_outcome _).mp h with
  | @mixedTerms first other alike rest _ _ _ hvalues _ hother =>
      have hkind : ∀ v ∈ ns.map Value.number, v.kind = .number := by
        simp [Value.kind]
      rw [hvalues] at hkind
      exact hother ((hkind other (by simp)).trans (hkind first (by simp)).symm)

/-- A timestamp is no number. -/
theorem create_timestamp_number (hfield : ∃ c ∈ field.toList, Text.isWhiteSpace c = false)
    (hreserved : field ≠ "boost") (hall : ∀ v ∈ values, ¬v.NotFinite) {t : Timestamp}
    {n : Numeric} (ht : .timestamp t ∈ values) (hn : .number n ∈ values) :
    ∃ k l, create field values = .error (.mixedTerms field k l) := by
  obtain ⟨r, h⟩ := exists_outcome field values
  rw [create_eq_of_outcome h]
  cases h with
  | blankField hblank =>
      obtain ⟨c, hc, hwhite⟩ := hfield
      exact absurd (hblank c hc) (by simp [hwhite])
  | reservedField _ hboost => exact absurd hboost hreserved
  | notFinite _ _ hvalue =>
      obtain ⟨v, hv, hnot⟩ := hvalue
      exact absurd hnot (hall v hv)
  | noTerms _ _ hnil => exact absurd ht (by simp [hnil])
  | mixedTerms => exact ⟨_, _, rfl⟩
  | accepted _ _ _ _ hkinds => exact nomatch hkinds _ ht _ hn

/-- The constructor gives the one outcome that there is. Numbers are of one kind, in whatever form
each of them is, and a timestamp is of another one. -/
theorem create_decides (field : String) (values : List Value) :
    (∀ r, create field values = r ↔ Outcome field values r) ∧
      (∀ ns : List Numeric, values = ns.map Value.number →
        ∀ g k l, create field values ≠ .error (.mixedTerms g k l)) ∧
      ((∃ c ∈ field.toList, Text.isWhiteSpace c = false) → field ≠ "boost" →
        (∀ v ∈ values, ¬v.NotFinite) → ∀ t n, .timestamp t ∈ values → .number n ∈ values →
          ∃ k l, create field values = .error (.mixedTerms field k l)) := by
  refine ⟨create_eq_iff_outcome, ?_, ?_⟩
  · rintro ns rfl
    exact create_numbers_ne_mixedTerms field ns
  · intro hfield hreserved hall t n
    exact create_timestamp_number hfield hreserved hall

/-- Numbers in two forms before a timestamp, and a float that is not a number behind values of
two kinds. -/
theorem create_decides_two_forms :
    (∃ c ∈ "boost ".toList, Text.isWhiteSpace c = false) ∧ "boost " ≠ "boost" ∧
      (∀ v ∈ [Value.number (.signed 1), .number (.unsigned 2), .timestamp ⟨3⟩, .text "4"],
        ¬v.NotFinite) ∧
      (∃ k l, create "boost "
          [.number (.signed 1), .number (.unsigned 2), .timestamp ⟨3⟩, .text "4"] =
        .error (.mixedTerms "boost " k l)) ∧
      create "boost " [.number (.signed 1), .number (.unsigned 2), .timestamp ⟨3⟩, .text "4"] =
        .error (.mixedTerms "boost " .number .timestamp) ∧
      create "size" [.text "a", .bool true, .number (.float .notANumber)] =
        .error (.notFinite .terms "size") := by
  have hfield : ∃ c ∈ "boost ".toList, Text.isWhiteSpace c = false := ⟨'b', by simp, rfl⟩
  have hsize : ∃ c ∈ "size".toList, Text.isWhiteSpace c = false := ⟨'s', by simp, rfl⟩
  have hall : ∀ v ∈ [Value.number (.signed 1), .number (.unsigned 2), .timestamp ⟨3⟩, .text "4"],
      ¬v.NotFinite := by
    simp [Value.NotFinite]
  have hmixed : Outcome "boost "
      [.number (.signed 1), .number (.unsigned 2), .timestamp ⟨3⟩, .text "4"]
      (.error (.mixedTerms "boost " .number .timestamp)) :=
    @Outcome.mixedTerms _ _ (.number (.signed 1)) (.timestamp ⟨3⟩) [.number (.unsigned 2)] _
      hfield (by decide) hall rfl (by simp [Value.kind]) (by decide)
  have hnot : Outcome "size" [.text "a", .bool true, .number (.float .notANumber)]
      (.error (.notFinite .terms "size")) :=
    .notFinite hsize (by decide) ⟨.number (.float .notANumber), by simp, Or.inl rfl⟩
  exact ⟨hfield, by decide, hall,
    (create_decides _ _).2.2 hfield (by decide) hall ⟨3⟩ (.signed 1) (by simp) (by simp),
    ((create_decides _ _).1 _).mpr hmixed, ((create_decides _ _).1 _).mpr hnot⟩

end Terms

end QueryAlgebra
