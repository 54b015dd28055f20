import QueryAlgebra.Query.Basic

/-!
# Matching

A record decides every condition on its fields, and with them every query. `Query.holds`
takes these decisions as a function on conditions, so it says what a query means without
saying what a record is. A group is decided by `Group.verdict` from the decisions on its
clauses; `holds_group_iff` puts it in terms of the clauses themselves.
-/

namespace QueryAlgebra

/-- A group of decided clauses holds: all mandatory clauses do, no excluded clause does,
and enough of the optional ones do. -/
def Group.verdict (g : Group Bool) : Bool :=
  g.must.all id && g.filter.all id && g.mustNot.all not && g.threshold ≤ g.should.count true

namespace Query

/-- The query matches a record for which `v` decides the conditions. -/
def holds (v : Condition → Bool) : Query → Bool :=
  fold (fun _ => true) false v Group.verdict

@[simp] theorem holds_matchAll (v : Condition → Bool) (boost : Option Binary64) :
    holds v (matchAll boost) = true := rfl

@[simp] theorem holds_matchNone (v : Condition → Bool) : holds v matchNone = false := rfl

@[simp] theorem holds_leaf (v : Condition → Bool) (c : Condition) :
    holds v (leaf c) = v c := rfl

theorem holds_group (v : Condition → Bool) (g : Group Query) :
    holds v (group g) = (g.map (holds v)).verdict :=
  fold_group _ _ _ _ g

theorem holds_group_iff (v : Condition → Bool) (g : Group Query) :
    holds v (group g) = true ↔
      (∀ q ∈ g.must, holds v q = true) ∧ (∀ q ∈ g.filter, holds v q = true) ∧
        (∀ q ∈ g.mustNot, holds v q = false) ∧
        g.threshold ≤ g.should.countP (holds v) := by
  have hcount : (g.should.map (holds v)).count true = g.should.countP (holds v) := by
    rw [List.count, List.countP_map]
    exact List.countP_congr fun q _ => by simp
  rw [holds_group]
  simp [Group.verdict, Group.map, ← hcount, Group.threshold, and_assoc]

end Query

end QueryAlgebra
