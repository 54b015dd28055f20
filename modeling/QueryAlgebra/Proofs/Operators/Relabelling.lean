import QueryAlgebra.Proofs.Operators.Complement
import QueryAlgebra.Proofs.Operators.Disjunction

/-!
# Operators do not look at conditions

`Query.relabel` puts other conditions and other boosts in the place of those that occur, and
leaves everything else as it is. What the operators decide they decide by the kinds of queries
and by the shape and the minimums of groups, none of which a relabelling changes. So an operator
may as well be applied after a relabelling as before it.
-/

namespace QueryAlgebra

/-- Other boosts and other conditions in the same places. -/
def Query.relabel (boost : Binary64 → Binary64) (condition : Condition → Condition) :
    Query → Query :=
  fold (fun b => matchAll (b.map boost)) matchNone (fun c => leaf (condition c))
    fun g => group { g with boost := g.boost.map boost }

/-- The group with every clause relabelled, and its boost. -/
def Group.relabel (boost : Binary64 → Binary64) (condition : Condition → Condition)
    (g : Group Query) : Group Query :=
  { g.map (Query.relabel boost condition) with boost := g.boost.map boost }

variable (boost : Binary64 → Binary64) (condition : Condition → Condition)

namespace Query

@[simp] theorem relabel_matchAll (b : Option Binary64) :
    (matchAll b).relabel boost condition = matchAll (b.map boost) := rfl

@[simp] theorem relabel_matchNone : matchNone.relabel boost condition = matchNone := rfl

@[simp] theorem relabel_leaf (c : Condition) :
    (leaf c).relabel boost condition = leaf (condition c) := rfl

@[simp] theorem relabel_group (g : Group Query) :
    (group g).relabel boost condition = group (g.relabel boost condition) :=
  fold_group _ _ _ _ g

end Query

namespace Group

theorem length_should_relabel (g : Group Query) :
    (g.relabel boost condition).should.length = g.should.length :=
  List.length_map _

theorem isEmpty_should_relabel (g : Group Query) :
    (g.relabel boost condition).should.isEmpty = g.should.isEmpty :=
  List.isEmpty_map

theorem threshold_relabel (g : Group Query) :
    (g.relabel boost condition).threshold = g.threshold :=
  threshold_map _ g

theorem isOptional_relabel (g : Group Query) :
    (g.relabel boost condition).isOptional = g.isOptional := by
  simp [isOptional, relabel, map]

theorem pinned_relabel (g : Group Query) :
    (g.relabel boost condition).pinned = g.pinned := by
  simp [pinned, relabel, map]

theorem relabel_adopt (g operand : Group Query) :
    (g.adopt operand).relabel boost condition =
      (g.relabel boost condition).adopt (operand.relabel boost condition) := by
  unfold adopt
  rw [length_should_relabel, threshold_relabel, isEmpty_should_relabel, threshold_relabel]
  split
  · simp [relabel, map]
  · split
    · rfl
    · split
      · simp [relabel, map]
      · simp [relabel, map]

theorem relabel_and (g h : Group Query) :
    (g.and h).relabel boost condition =
      (g.relabel boost condition).and (h.relabel boost condition) := by
  unfold Group.and
  rw [relabel_adopt, relabel_adopt]
  simp [relabel, map]

theorem relabel_andClause (g : Group Query) (q : Query) :
    (g.andClause q).relabel boost condition =
      (g.relabel boost condition).andClause (q.relabel boost condition) := by
  unfold andClause
  rw [pinned_relabel]
  simp [relabel, map]

theorem relabel_append (g h : Group Query) :
    (g.append h).relabel boost condition =
      (g.relabel boost condition).append (h.relabel boost condition) := by
  simp [append, relabel, map]

theorem relabel_addClause (g : Group Query) (q : Query) :
    (g.addClause q).relabel boost condition =
      (g.relabel boost condition).addClause (q.relabel boost condition) := by
  simp [addClause, relabel, map]

end Group

namespace Query

theorem alternatives_relabel (q : Query) :
    (q.relabel boost condition).alternatives =
      q.alternatives.map (relabel boost condition) := by
  cases q with
  | group g =>
      rw [relabel_group, alternatives, alternatives, Group.isOptional_relabel]
      split
      · rfl
      · simp
  | _ => rfl

end Query

namespace Group

theorem relabel_absorb (g : Group Query) (q : Query) :
    (g.absorb q).relabel boost condition =
      (g.relabel boost condition).absorb (q.relabel boost condition) := by
  rw [absorb_eq_alternatives, absorb_eq_alternatives, Query.alternatives_relabel]
  simp [relabel, map]

theorem relabel_or (g : Group Query) (q : Query) :
    (g.or q).relabel boost condition =
      (g.relabel boost condition).or (q.relabel boost condition) := by
  have hpair : ∀ p r : Query, Group.relabel boost condition { should := [p, r] } =
      { should := [p.relabel boost condition, r.relabel boost condition] } := fun _ _ => rfl
  rw [Group.or.eq_def, Group.or.eq_def, isOptional_relabel]
  split
  · exact relabel_absorb boost condition g q
  · cases q with
    | group h =>
        simp only [Query.relabel_group, isOptional_relabel]
        split
        · rw [relabel_absorb, Query.relabel_group]
        · rw [hpair, Query.relabel_group, Query.relabel_group]
    | _ => simp [hpair]

/-- The ways in which the relabelled group can fail. -/
theorem map_relabel_failures (g : Group Query) (must filter : List Query) :
    (g.failures must filter).map (Query.relabel boost condition) =
      (g.relabel boost condition).failures (must.map (Query.relabel boost condition))
        (filter.map (Query.relabel boost condition)) := by
  have hexclusion : (Query.group { mustNot := g.should }).relabel boost condition =
      .group { mustNot := (g.relabel boost condition).should } :=
    Query.relabel_group boost condition { mustNot := g.should }
  rw [failures, failures, isEmpty_should_relabel, threshold_relabel, ← hexclusion]
  simp [relabel, map, apply_ite (List.map (Query.relabel boost condition))]

end Group

namespace Query

theorem relabel_and (a b : Query) :
    (a.and b).relabel boost condition =
      (a.relabel boost condition).and (b.relabel boost condition) := by
  cases a with
  | group g =>
      cases b with
      | group h => simp only [and, relabel_group, Group.relabel_and]
      | leaf d => simp only [and, relabel_group, Group.relabel_andClause, relabel_leaf]
      | _ => simp [and]
  | leaf c =>
      cases b with
      | group h => simp only [and, relabel_group, Group.relabel_andClause, relabel_leaf]
      | _ => rfl
  | _ => rfl

theorem relabel_or (a b : Query) :
    (a.or b).relabel boost condition =
      (a.relabel boost condition).or (b.relabel boost condition) := by
  cases a with
  | group g => cases b <;> simp [or, Group.relabel_or]
  | leaf c =>
      cases b with
      | group h => simp only [or, relabel_group, Group.relabel_or, relabel_leaf]
      | _ => rfl
  | _ => rfl

theorem relabel_add (a b : Query) :
    (a.add b).relabel boost condition =
      (a.relabel boost condition).add (b.relabel boost condition) := by
  cases a with
  | group g =>
      cases b with
      | group h => simp only [add, relabel_group, Group.relabel_append]
      | leaf d => simp only [add, relabel_group, Group.relabel_addClause, relabel_leaf]
      | _ => simp [add]
  | leaf c =>
      cases b with
      | group h => simp only [add, relabel_group, Group.relabel_addClause, relabel_leaf]
      | _ => rfl
  | _ => rfl

theorem relabel_oneOf (qs : List Query) :
    (oneOf qs).relabel boost condition = oneOf (qs.map (relabel boost condition)) := by
  match qs with
  | [] => rfl
  | [q] => rfl
  | q :: r :: qs => exact relabel_group boost condition { should := q :: r :: qs }

theorem relabel_negate (q : Query) :
    q.negate.relabel boost condition = (q.relabel boost condition).negate := by
  induction q with
  | matchAll b => rfl
  | matchNone => rfl
  | leaf c => rfl
  | group g hmust _ _ hfilter =>
      have hmust' : (g.must.map negate).map (relabel boost condition) =
          (g.must.map (relabel boost condition)).map negate := by simpa using hmust
      have hfilter' : (g.filter.map negate).map (relabel boost condition) =
          (g.filter.map (relabel boost condition)).map negate := by simpa using hfilter
      rw [relabel_group, negate_group_eq_oneOf, negate_group_eq_oneOf, relabel_oneOf,
        Group.map_relabel_failures, hmust', hfilter']
      rfl

end Query

end QueryAlgebra
