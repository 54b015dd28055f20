import QueryAlgebra.Attribute.Condition

/-!
# Conditions that are built

A condition comes out of a constructor, `Condition.Created`, and is then changed by setters,
`Condition.Adjusts`, as far as they accept what they are given. `Condition.Valid` is what the
checks of both add up to: a field with a name, finite values, an allowed boost, and for several
values that there is one and that all are of one kind. Whatever is created is valid, and what
is adjusted stays so.
-/

namespace QueryAlgebra

section Checks

variable {ε α β : Type}

theorem map_eq_ok_iff (f : α → β) (x : Except ε α) (b : β) :
    x.map f = .ok b ↔ ∃ a, x = .ok a ∧ f a = b := by
  cases x <;> simp [Except.map]

theorem bind_eq_ok_iff (x : Except ε α) (f : α → Except ε β) (b : β) :
    x.bind f = .ok b ↔ ∃ a, x = .ok a ∧ f a = .ok b := by
  cases x <;> simp [Except.bind]

theorem ite_error_eq_ok_iff (p : Prop) [Decidable p] (e : ε) (x : Except ε α) (a : α) :
    (if p then .error e else x) = .ok a ↔ ¬p ∧ x = .ok a := by
  split <;> simp [*]

theorem map_checkBoost_eq_ok_iff (f : Binary64 → α) (b : Binary64) (a : α) :
    (checkBoost b).map f = .ok a ↔ isBoost b = true ∧ f b = a := by
  simp [map_eq_ok_iff, checkBoost_eq_ok_iff, and_assoc]

theorem map_checkValue_eq_ok_iff (kind : ConditionKind) (field : String) (f : Value → α)
    (v : Value) (a : α) :
    (checkValue kind field v).map f = .ok a ↔ v.isFinite = true ∧ f v = a := by
  simp [map_eq_ok_iff, checkValue_eq_ok_iff, and_assoc]

end Checks

theorem Term.create_eq_ok_iff (field : String) (value : Value) (t : Term) :
    Term.create field value = .ok t ↔
      Text.isBlank field = false ∧ value.isFinite = true ∧ { field, value } = t := by
  rw [Term.create, ite_error_eq_ok_iff, map_checkValue_eq_ok_iff, Bool.not_eq_true]

theorem StartsWith.create_eq_ok_iff (field value : String) (t : StartsWith) :
    StartsWith.create field value = .ok t ↔
      Text.isBlank field = false ∧ { field, value } = t := by
  rw [StartsWith.create, ite_error_eq_ok_iff, Bool.not_eq_true, Except.ok.injEq]

theorem Range.create_eq_ok_iff (field : String) (r : Range) :
    Range.create field = .ok r ↔ Text.isBlank field = false ∧ { field } = r := by
  rw [Range.create, ite_error_eq_ok_iff, Bool.not_eq_true, Except.ok.injEq]

theorem Presence.create_eq_ok_iff (field : String) (p : Presence) :
    Presence.create field = .ok p ↔ Text.isBlank field = false ∧ { field } = p := by
  rw [Presence.create, ite_error_eq_ok_iff, Bool.not_eq_true, Except.ok.injEq]

theorem Terms.find?_kind_eq_none_iff (first : Value) (rest : List Value) :
    (rest.find? fun v => v.kind ≠ first.kind) = none ↔
      ∀ v ∈ first :: rest, ∀ w ∈ first :: rest, v.kind = w.kind := by
  rw [List.find?_eq_none]
  constructor
  · intro h
    have hfirst : ∀ v ∈ first :: rest, v.kind = first.kind :=
      List.forall_mem_cons.mpr ⟨rfl, by simpa using h⟩
    intro v hv w hw
    rw [hfirst v hv, hfirst w hw]
  · intro h v hv
    simpa using h v (List.mem_cons_of_mem _ hv) first List.mem_cons_self

theorem Terms.create_eq_ok_iff (field : String) (values : List Value) (t : Terms) :
    Terms.create field values = .ok t ↔
      Text.isBlank field = false ∧ field ≠ reserved ∧ (∀ v ∈ values, v.isFinite = true) ∧
        values ≠ [] ∧ (∀ v ∈ values, ∀ w ∈ values, v.kind = w.kind) ∧
        { field, values } = t := by
  rw [Terms.create.eq_def, ite_error_eq_ok_iff, ite_error_eq_ok_iff, Bool.not_eq_true]
  refine and_congr_right fun _ => and_congr_right fun _ => ?_
  rw [← List.all_eq_true]
  split
  · next hfinite =>
    rw [hfinite]
    cases values with
    | nil => simp
    | cons first rest =>
        rw [← find?_kind_eq_none_iff]
        dsimp only
        cases rest.find? fun v => v.kind ≠ first.kind with
        | none => simp
        | some other => simp
  · next hfinite => simp [hfinite]

namespace Condition

/-- The boost of the condition, if it has one. -/
def boost : Condition → Option Binary64
  | term t => t.tuning.boost
  | startsWith t => t.tuning.boost
  | terms t => t.boost
  | range r => r.boost
  | presence _ => none

/-- The values that the field is compared with. -/
def values : Condition → List Value
  | term t => [t.value]
  | startsWith _ => []
  | terms t => t.values
  | range r => r.above.toList ++ r.atLeast.toList ++ r.below.toList ++ r.atMost.toList
  | presence _ => []

/-- What the checks of the constructors and the setters add up to. -/
structure Valid (c : Condition) : Prop where
  field : ∃ a ∈ c.field.toList, Text.isWhiteSpace a = false
  values : ∀ v ∈ c.values, v.isFinite = true
  boost : ∀ b ∈ c.boost, isBoost b = true
  terms : ∀ t, c = .terms t → t.values ≠ [] ∧ t.field ≠ Terms.reserved ∧
    ∀ v ∈ t.values, ∀ w ∈ t.values, v.kind = w.kind

/-- A constructor gives the condition. -/
inductive Created : Condition → Prop
  | term {field : String} {value : Value} {t : Term} :
      Term.create field value = .ok t → Created (.term t)
  | termOnAttribute {a : Attribute} {value : Value} {t : Term} :
      Term.onAttribute a value = .ok t → Created (.term t)
  | startsWith {field value : String} {t : StartsWith} :
      StartsWith.create field value = .ok t → Created (.startsWith t)
  | startsWithOnAttribute {a : Attribute} {value : String} {t : StartsWith} :
      StartsWith.onAttribute a value = .ok t → Created (.startsWith t)
  | terms {field : String} {values : List Value} {t : Terms} :
      Terms.create field values = .ok t → Created (.terms t)
  | range {field : String} {r : Range} :
      Range.create field = .ok r → Created (.range r)
  | presence {field : String} {p : Presence} :
      Presence.create field = .ok p → Created (.presence p)
  | presenceOnAttribute {a : Attribute} {p : Presence} :
      Presence.onAttribute a = .ok p → Created (.presence p)

/-- A setter of the first condition is called and gives the second one. -/
inductive Adjusts : Condition → Condition → Prop
  | term {t u : Term} {s : Tuning.Setting} :
      t.set s = .ok u → Adjusts (.term t) (.term u)
  | startsWith {t u : StartsWith} {s : Tuning.Setting} :
      t.set s = .ok u → Adjusts (.startsWith t) (.startsWith u)
  | terms {t u : Terms} {b : Binary64} :
      t.setBoost b = .ok u → Adjusts (.terms t) (.terms u)
  | range {r u : Range} {s : Range.Setting} :
      r.set s = .ok u → Adjusts (.range r) (.range u)

theorem valid_term_iff (t : Term) :
    Valid (.term t) ↔ Text.isBlank t.field = false ∧ t.value.isFinite = true ∧
      ∀ b ∈ t.tuning.boost, isBoost b = true := by
  rw [Text.isBlank_eq_false_iff]
  constructor
  · intro h
    exact ⟨h.field, h.values t.value List.mem_cons_self, h.boost⟩
  · rintro ⟨hfield, hvalue, hboost⟩
    exact ⟨hfield, List.forall_mem_singleton.mpr hvalue, hboost, fun _ h => nomatch h⟩

theorem valid_startsWith_iff (t : StartsWith) :
    Valid (.startsWith t) ↔ Text.isBlank t.field = false ∧
      ∀ b ∈ t.tuning.boost, isBoost b = true := by
  rw [Text.isBlank_eq_false_iff]
  constructor
  · intro h
    exact ⟨h.field, h.boost⟩
  · rintro ⟨hfield, hboost⟩
    exact ⟨hfield, List.forall_mem_nil _, hboost, fun _ h => nomatch h⟩

theorem valid_terms_iff (t : Terms) :
    Valid (.terms t) ↔ Text.isBlank t.field = false ∧ t.field ≠ Terms.reserved ∧
      (∀ v ∈ t.values, v.isFinite = true) ∧ t.values ≠ [] ∧
      (∀ v ∈ t.values, ∀ w ∈ t.values, v.kind = w.kind) ∧
      ∀ b ∈ t.boost, isBoost b = true := by
  rw [Text.isBlank_eq_false_iff]
  constructor
  · intro h
    obtain ⟨hne, hreserved, hkinds⟩ := h.terms t rfl
    exact ⟨h.field, hreserved, h.values, hne, hkinds, h.boost⟩
  · rintro ⟨hfield, hreserved, hvalues, hne, hkinds, hboost⟩
    refine ⟨hfield, hvalues, hboost, ?_⟩
    rintro _ ⟨⟩
    exact ⟨hne, hreserved, hkinds⟩

theorem valid_range_iff (r : Range) :
    Valid (.range r) ↔ Text.isBlank r.field = false ∧
      (∀ v ∈ r.above, v.isFinite = true) ∧ (∀ v ∈ r.atLeast, v.isFinite = true) ∧
      (∀ v ∈ r.below, v.isFinite = true) ∧ (∀ v ∈ r.atMost, v.isFinite = true) ∧
      ∀ b ∈ r.boost, isBoost b = true := by
  have hvalues : (∀ v ∈ (Condition.range r).values, v.isFinite = true) ↔
      (∀ v ∈ r.above, v.isFinite = true) ∧ (∀ v ∈ r.atLeast, v.isFinite = true) ∧
        (∀ v ∈ r.below, v.isFinite = true) ∧ ∀ v ∈ r.atMost, v.isFinite = true := by
    simp only [Condition.values, List.forall_mem_append, Option.mem_toList, Option.mem_def,
      and_assoc]
  rw [Text.isBlank_eq_false_iff]
  constructor
  · intro h
    obtain ⟨habove, hatLeast, hbelow, hatMost⟩ := hvalues.mp h.values
    exact ⟨h.field, habove, hatLeast, hbelow, hatMost, h.boost⟩
  · rintro ⟨hfield, habove, hatLeast, hbelow, hatMost, hboost⟩
    exact ⟨hfield, hvalues.mpr ⟨habove, hatLeast, hbelow, hatMost⟩, hboost,
      fun _ h => nomatch h⟩

theorem valid_presence_iff (p : Presence) :
    Valid (.presence p) ↔ Text.isBlank p.field = false := by
  rw [Text.isBlank_eq_false_iff]
  constructor
  · exact Valid.field
  · intro hfield
    exact ⟨hfield, List.forall_mem_nil _, by simp [Condition.boost], fun _ h => nomatch h⟩

end Condition

section Create

variable {field : String}

theorem Term.valid_of_create {value : Value} {t : Term} (h : Term.create field value = .ok t) :
    Condition.Valid (.term t) := by
  obtain ⟨hfield, hvalue, rfl⟩ := (Term.create_eq_ok_iff _ _ _).mp h
  exact (Condition.valid_term_iff _).mpr ⟨hfield, hvalue, by simp⟩

theorem StartsWith.valid_of_create {value : String} {t : StartsWith}
    (h : StartsWith.create field value = .ok t) : Condition.Valid (.startsWith t) := by
  obtain ⟨hfield, rfl⟩ := (StartsWith.create_eq_ok_iff _ _ _).mp h
  exact (Condition.valid_startsWith_iff _).mpr ⟨hfield, by simp⟩

theorem Terms.valid_of_create {values : List Value} {t : Terms}
    (h : Terms.create field values = .ok t) : Condition.Valid (.terms t) := by
  obtain ⟨hfield, hreserved, hfinite, hne, hkinds, rfl⟩ := (Terms.create_eq_ok_iff _ _ _).mp h
  exact (Condition.valid_terms_iff _).mpr
    ⟨hfield, hreserved, hfinite, hne, hkinds, by simp⟩

theorem Range.valid_of_create {r : Range} (h : Range.create field = .ok r) :
    Condition.Valid (.range r) := by
  obtain ⟨hfield, rfl⟩ := (Range.create_eq_ok_iff _ _).mp h
  exact (Condition.valid_range_iff _).mpr ⟨hfield, by simp⟩

theorem Presence.valid_of_create {p : Presence} (h : Presence.create field = .ok p) :
    Condition.Valid (.presence p) := by
  obtain ⟨hfield, rfl⟩ := (Presence.create_eq_ok_iff _ _).mp h
  exact (Condition.valid_presence_iff _).mpr hfield

end Create

/-- A boost that is there after an accepted setting is an allowed one. -/
theorem Tuning.isBoost_of_set {t u : Tuning} {s : Tuning.Setting} (h : t.set s = .ok u)
    (ht : ∀ b ∈ t.boost, isBoost b = true) : ∀ b ∈ u.boost, isBoost b = true := by
  cases s with
  | boost b =>
      obtain ⟨hb, rfl⟩ := (map_checkBoost_eq_ok_iff _ _ _).mp h
      simpa using hb
  | caseInsensitive b =>
      obtain rfl := Except.ok.inj h
      exact ht

theorem Range.valid_of_set {r u : Range} {s : Range.Setting} (h : r.set s = .ok u)
    (hr : Condition.Valid (.range r)) : Condition.Valid (.range u) := by
  obtain ⟨hfield, habove, hatLeast, hbelow, hatMost, hboost⟩ :=
    (Condition.valid_range_iff r).mp hr
  rw [Condition.valid_range_iff]
  cases s with
  | above v =>
      obtain ⟨hv, rfl⟩ := (map_checkValue_eq_ok_iff _ _ _ _ _).mp h
      exact ⟨hfield, by simpa using hv, hatLeast, hbelow, hatMost, hboost⟩
  | atLeast v =>
      obtain ⟨hv, rfl⟩ := (map_checkValue_eq_ok_iff _ _ _ _ _).mp h
      exact ⟨hfield, habove, by simpa using hv, hbelow, hatMost, hboost⟩
  | below v =>
      obtain ⟨hv, rfl⟩ := (map_checkValue_eq_ok_iff _ _ _ _ _).mp h
      exact ⟨hfield, habove, hatLeast, by simpa using hv, hatMost, hboost⟩
  | atMost v =>
      obtain ⟨hv, rfl⟩ := (map_checkValue_eq_ok_iff _ _ _ _ _).mp h
      exact ⟨hfield, habove, hatLeast, hbelow, by simpa using hv, hboost⟩
  | boost b =>
      obtain ⟨hb, rfl⟩ := (map_checkBoost_eq_ok_iff _ _ _).mp h
      exact ⟨hfield, habove, hatLeast, hbelow, hatMost, by simpa using hb⟩
  | format | relation | timeZone =>
      obtain rfl := Except.ok.inj h
      exact ⟨hfield, habove, hatLeast, hbelow, hatMost, hboost⟩

namespace Condition

theorem valid_of_created {c : Condition} (h : Created c) : c.Valid := by
  cases h with
  | term ht => exact Term.valid_of_create ht
  | termOnAttribute ht =>
      obtain ⟨-, -, ht⟩ := (bind_eq_ok_iff _ _ _).mp ht
      exact Term.valid_of_create ht
  | startsWith ht => exact StartsWith.valid_of_create ht
  | startsWithOnAttribute ht =>
      obtain ⟨-, -, ht⟩ := (bind_eq_ok_iff _ _ _).mp ht
      exact StartsWith.valid_of_create ht
  | terms ht => exact Terms.valid_of_create ht
  | range hr => exact Range.valid_of_create hr
  | presence hp => exact Presence.valid_of_create hp
  | presenceOnAttribute hp => exact Presence.valid_of_create hp

theorem valid_of_adjusts {c d : Condition} (h : Adjusts c d) (hc : c.Valid) : d.Valid := by
  cases h with
  | @term t _ _ h =>
      obtain ⟨hfield, hvalue, hboost⟩ := (valid_term_iff t).mp hc
      obtain ⟨tuning, ht, rfl⟩ := (map_eq_ok_iff _ _ _).mp h
      exact (valid_term_iff _).mpr ⟨hfield, hvalue, Tuning.isBoost_of_set ht hboost⟩
  | @startsWith t _ _ h =>
      obtain ⟨hfield, hboost⟩ := (valid_startsWith_iff t).mp hc
      obtain ⟨tuning, ht, rfl⟩ := (map_eq_ok_iff _ _ _).mp h
      exact (valid_startsWith_iff _).mpr ⟨hfield, Tuning.isBoost_of_set ht hboost⟩
  | @terms t _ _ h =>
      obtain ⟨hfield, hreserved, hvalues, hne, hkinds, -⟩ := (valid_terms_iff t).mp hc
      obtain ⟨hb, rfl⟩ := (map_checkBoost_eq_ok_iff _ _ _).mp h
      exact (valid_terms_iff _).mpr ⟨hfield, hreserved, hvalues, hne, hkinds, by simpa using hb⟩
  | range h => exact Range.valid_of_set h hc

end Condition

end QueryAlgebra
