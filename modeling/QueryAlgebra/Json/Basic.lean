/-!
# JSON trees

`Json ν σ` is the tree that a JSON text stands for, with numbers in `ν` and texts in `σ`.
Both are parameters because writing and reading see different things: what is written has
numbers and plain strings, what is read has the literal of each number and strings that
may be ill-formed. The fields of a record keep their order, and a key may occur twice.
-/

namespace QueryAlgebra

/-- A JSON tree over numbers `ν` and texts `σ`. -/
inductive Json (ν σ : Type) where
  | null
  | bool (b : Bool)
  | number (n : ν)
  | text (s : σ)
  | list (items : List (Json ν σ))
  | record (fields : List (σ × Json ν σ))

namespace Json

variable {ν σ ν' σ' : Type}

mutual

/-- Induction on trees: a property of lists and records may use that it holds of their parts. -/
@[induction_eliminator, elab_as_elim]
theorem induction {motive : Json ν σ → Prop} (null : motive null) (bool : ∀ b, motive (bool b))
    (number : ∀ n, motive (number n)) (text : ∀ s, motive (text s))
    (list : ∀ items : List (Json ν σ), (∀ item ∈ items, motive item) → motive (list items))
    (record : ∀ fields : List (σ × Json ν σ), (∀ field ∈ fields, motive field.2) →
      motive (record fields)) :
    ∀ j, motive j
  | .null => null
  | .bool b => bool b
  | .number n => number n
  | .text s => text s
  | .list items => list items (induction_items null bool number text list record items)
  | .record fields => record fields (induction_fields null bool number text list record fields)

private theorem induction_items {motive : Json ν σ → Prop} (null : motive .null)
    (bool : ∀ b, motive (.bool b)) (number : ∀ n, motive (.number n))
    (text : ∀ s, motive (.text s))
    (list : ∀ items : List (Json ν σ), (∀ item ∈ items, motive item) → motive (.list items))
    (record : ∀ fields : List (σ × Json ν σ), (∀ field ∈ fields, motive field.2) →
      motive (.record fields)) :
    ∀ items : List (Json ν σ), ∀ item ∈ items, motive item
  | [] => fun _ h => absurd h List.not_mem_nil
  | item :: items => List.forall_mem_cons.mpr
    ⟨induction null bool number text list record item,
      induction_items null bool number text list record items⟩

private theorem induction_fields {motive : Json ν σ → Prop} (null : motive .null)
    (bool : ∀ b, motive (.bool b)) (number : ∀ n, motive (.number n))
    (text : ∀ s, motive (.text s))
    (list : ∀ items : List (Json ν σ), (∀ item ∈ items, motive item) → motive (.list items))
    (record : ∀ fields : List (σ × Json ν σ), (∀ field ∈ fields, motive field.2) →
      motive (.record fields)) :
    ∀ fields : List (σ × Json ν σ), ∀ field ∈ fields, motive field.2
  | [] => fun _ h => absurd h List.not_mem_nil
  | (_, value) :: fields => List.forall_mem_cons.mpr
    ⟨induction null bool number text list record value,
      induction_fields null bool number text list record fields⟩

end

mutual

/-- The tree with every number and every text, keys included, replaced. -/
def map (f : ν → ν') (g : σ → σ') : Json ν σ → Json ν' σ'
  | null => null
  | bool b => bool b
  | number n => number (f n)
  | text s => text (g s)
  | list items => list (mapItems f g items)
  | record fields => record (mapFields f g fields)

/-- `map` on each item of a list. -/
def mapItems (f : ν → ν') (g : σ → σ') : List (Json ν σ) → List (Json ν' σ')
  | [] => []
  | item :: items => map f g item :: mapItems f g items

/-- `map` on each field of a record, its key included. -/
def mapFields (f : ν → ν') (g : σ → σ') : List (σ × Json ν σ) → List (σ' × Json ν' σ')
  | [] => []
  | (key, value) :: fields => (g key, map f g value) :: mapFields f g fields

end

theorem mapItems_eq_map (f : ν → ν') (g : σ → σ') (items : List (Json ν σ)) :
    mapItems f g items = items.map (map f g) := by
  induction items with
  | nil => rfl
  | cons item items ih => rw [mapItems, ih, List.map_cons]

theorem mapFields_eq_map (f : ν → ν') (g : σ → σ') (fields : List (σ × Json ν σ)) :
    mapFields f g fields = fields.map fun (key, value) => (g key, map f g value) := by
  induction fields with
  | nil => rfl
  | cons field fields ih => rw [mapFields, ih, List.map_cons]

theorem map_list (f : ν → ν') (g : σ → σ') (items : List (Json ν σ)) :
    map f g (list items) = list (items.map (map f g)) := by
  rw [map, mapItems_eq_map]

theorem map_record (f : ν → ν') (g : σ → σ') (fields : List (σ × Json ν σ)) :
    map f g (record fields) = record (fields.map fun (key, value) => (g key, map f g value)) := by
  rw [map, mapFields_eq_map]

end Json

end QueryAlgebra
