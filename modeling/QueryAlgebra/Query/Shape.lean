import QueryAlgebra.Query.Basic

/-!
# The shape of a query

`depth` is the nesting of groups, `leaves` lists the conditions that occur, and `Regular`
says of every group that occurs that it has a clause and asks for one optional clause at
most, and not for one where it has none.
-/

namespace QueryAlgebra

namespace Group

/-- The group has a clause, and any one of its optional clauses is enough for a threshold
that is not out of reach. -/
def Regular {α : Type} (g : Group α) : Prop :=
  g.isEmpty = false ∧ g.threshold ≤ 1 ∧ g.threshold ≤ g.should.length

theorem regular_map {α β : Type} (f : α → β) (g : Group α) :
    (g.map f).Regular ↔ g.Regular := by
  have h : (g.map f).should.length = g.should.length := List.length_map f
  rw [Regular, isEmpty_map, threshold_map, h, Regular]

end Group

namespace Query

/-- How deep groups are nested: zero without a group, and one for a group of no clauses. -/
def depth : Query → Nat :=
  fold (fun _ => 0) 0 (fun _ => 0) (fun g => g.clauses.foldr max 0 + 1)

/-- The conditions that occur, in the order in which they are sent. -/
def leaves : Query → List Condition :=
  fold (fun _ => []) [] (fun c => [c]) (fun g => g.clauses.flatten)

/-- Every group that occurs is regular. -/
def Regular : Query → Prop :=
  fold (fun _ => True) True (fun _ => True) (fun g => g.Regular ∧ ∀ p ∈ g.clauses, p)

@[simp] theorem depth_matchAll (boost : Option Binary64) : depth (matchAll boost) = 0 := rfl

@[simp] theorem depth_matchNone : depth matchNone = 0 := rfl

@[simp] theorem depth_leaf (c : Condition) : depth (leaf c) = 0 := rfl

theorem depth_group (g : Group Query) :
    depth (group g) = (g.clauses.map depth).foldr max 0 + 1 := by
  rw [← Group.clauses_map]
  exact fold_group _ _ _ _ g

@[simp] theorem leaves_matchAll (boost : Option Binary64) : leaves (matchAll boost) = [] := rfl

@[simp] theorem leaves_matchNone : leaves matchNone = [] := rfl

@[simp] theorem leaves_leaf (c : Condition) : leaves (leaf c) = [c] := rfl

theorem leaves_group (g : Group Query) : leaves (group g) = g.clauses.flatMap leaves := by
  rw [List.flatMap, ← Group.clauses_map]
  exact fold_group _ _ _ _ g

@[simp] theorem regular_matchAll (boost : Option Binary64) : Regular (matchAll boost) :=
  trivial

@[simp] theorem regular_matchNone : Regular matchNone := trivial

@[simp] theorem regular_leaf (c : Condition) : Regular (leaf c) := trivial

theorem regular_group_iff (g : Group Query) :
    Regular (group g) ↔ g.Regular ∧ ∀ q ∈ g.clauses, Regular q := by
  have h : Regular (group g) =
      ((g.map Regular).Regular ∧ ∀ p ∈ (g.map Regular).clauses, p) :=
    fold_group _ _ _ _ g
  rw [h, Group.regular_map, Group.clauses_map, List.forall_mem_map]

end Query

end QueryAlgebra
