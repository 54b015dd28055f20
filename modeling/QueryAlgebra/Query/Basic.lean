import QueryAlgebra.Condition.Basic

/-!
# Queries

A `Query` is one of two constants, a condition on a field, or a `Group` of clauses in four
buckets. In a group every clause of `must` and `filter` has to match, no clause of
`mustNot` may match, and of the optional clauses in `should` at least `Group.threshold`
have to match. The threshold may be given; otherwise it follows from the buckets.
-/

namespace QueryAlgebra

/-- Clauses in four buckets, with a boost and a least number of matching optional
clauses. -/
structure Group (α : Type) where
  must : List α := []
  should : List α := []
  mustNot : List α := []
  filter : List α := []
  boost : Option Binary64 := none
  minimum : Option Nat := none

/-- A search condition. -/
inductive Query where
  | matchAll (boost : Option Binary64)
  | matchNone
  | leaf (c : Condition)
  | group (g : Group Query)

/-- The kinds of queries. -/
inductive QueryKind where
  | matchAll
  | matchNone
  | leaf (kind : ConditionKind)
  | group
  deriving DecidableEq

/-- The name of the kind on the wire. -/
def QueryKind.name : QueryKind → String
  | matchAll => "match_all"
  | matchNone => "match_none"
  | leaf kind => kind.name
  | group => "bool"

theorem QueryKind.name_injective : Function.Injective QueryKind.name := by
  intro k l h
  cases k with
  | leaf c =>
    cases l with
    | leaf d => exact congrArg leaf (ConditionKind.name_injective h)
    | _ => cases c <;> simp [name, ConditionKind.name] at h
  | _ =>
    cases l with
    | leaf d => cases d <;> simp [name, ConditionKind.name] at h
    | _ => first | rfl | simp [name] at h

namespace Group

variable {α : Type}

/-- The number of optional clauses that have to match. A given minimum decides. Without
one, optional clauses count only where nothing else is mandatory, and then one of them has
to match. -/
def threshold (g : Group α) : Nat :=
  match g.minimum with
  | some n => n
  | none => if g.should.isEmpty || !g.must.isEmpty || !g.filter.isEmpty then 0 else 1

/-- No clause in any bucket. -/
def isEmpty (g : Group α) : Bool :=
  g.must.isEmpty && g.should.isEmpty && g.mustNot.isEmpty && g.filter.isEmpty

/-- Optional clauses at most, and no minimum given. -/
def isOptional (g : Group α) : Bool :=
  g.must.isEmpty && g.mustNot.isEmpty && g.filter.isEmpty && g.minimum.isNone

/-- The clauses of all buckets, in the order in which they are sent. -/
def clauses (g : Group α) : List α := g.must ++ g.should ++ g.mustNot ++ g.filter

/-- Something else in the place of every clause. -/
def map {β : Type} (f : α → β) (g : Group α) : Group β where
  must := g.must.map f
  should := g.should.map f
  mustNot := g.mustNot.map f
  filter := g.filter.map f
  boost := g.boost
  minimum := g.minimum

/-- What can be added to a group. A bucket grows with every setting for it; boost and
minimum hold the last value given. -/
inductive Setting (α : Type) where
  | must (clauses : List α)
  | should (clauses : List α)
  | mustNot (clauses : List α)
  | filter (clauses : List α)
  | boost (b : Binary64)
  | minimum (n : Nat)

def set (g : Group α) : Setting α → Except Fault (Group α)
  | .must clauses => .ok { g with must := g.must ++ clauses }
  | .should clauses => .ok { g with should := g.should ++ clauses }
  | .mustNot clauses => .ok { g with mustNot := g.mustNot ++ clauses }
  | .filter clauses => .ok { g with filter := g.filter ++ clauses }
  | .boost b => (checkBoost b).map fun b => { g with boost := some b }
  | .minimum n => .ok { g with minimum := some n }

def configure (g : Group α) (settings : List (Setting α)) : Except Fault (Group α) :=
  settings.foldlM set g

theorem clauses_map {β : Type} (f : α → β) (g : Group α) :
    (g.map f).clauses = g.clauses.map f := by
  simp [clauses, map]

@[simp] theorem threshold_map {β : Type} (f : α → β) (g : Group α) :
    (g.map f).threshold = g.threshold := by
  simp [threshold, map]

@[simp] theorem isEmpty_map {β : Type} (f : α → β) (g : Group α) :
    (g.map f).isEmpty = g.isEmpty := by
  simp [isEmpty, map]

theorem isEmpty_iff (g : Group α) : g.isEmpty = true ↔ g.clauses = [] := by
  simp [isEmpty, clauses, and_assoc]

theorem threshold_of_minimum {g : Group α} {n : Nat} (h : g.minimum = some n) :
    g.threshold = n := by
  simp [threshold, h]

theorem threshold_of_isOptional {g : Group α} (h : g.isOptional = true) :
    g.threshold = if g.should.isEmpty then 0 else 1 := by
  simp only [isOptional, Bool.and_eq_true, Option.isNone_iff_eq_none] at h
  obtain ⟨⟨⟨hm, _⟩, hf⟩, hn⟩ := h
  simp [threshold, hn, hm, hf]

end Group

namespace Query

mutual

/-- Induction on queries: a property of groups may use that it holds of the clauses. -/
@[induction_eliminator, elab_as_elim]
theorem induction {motive : Query → Prop}
    (matchAll : ∀ boost, motive (matchAll boost)) (matchNone : motive matchNone)
    (leaf : ∀ c, motive (leaf c))
    (group : ∀ g : Group Query, (∀ q ∈ g.must, motive q) → (∀ q ∈ g.should, motive q) →
      (∀ q ∈ g.mustNot, motive q) → (∀ q ∈ g.filter, motive q) → motive (group g)) :
    ∀ q, motive q
  | .matchAll boost => matchAll boost
  | .matchNone => matchNone
  | .leaf c => leaf c
  | .group ⟨must, should, mustNot, filter, boost, minimum⟩ =>
    group ⟨must, should, mustNot, filter, boost, minimum⟩
      (induction_clauses matchAll matchNone leaf group must)
      (induction_clauses matchAll matchNone leaf group should)
      (induction_clauses matchAll matchNone leaf group mustNot)
      (induction_clauses matchAll matchNone leaf group filter)

private theorem induction_clauses {motive : Query → Prop}
    (matchAll : ∀ boost, motive (.matchAll boost)) (matchNone : motive .matchNone)
    (leaf : ∀ c, motive (.leaf c))
    (group : ∀ g : Group Query, (∀ q ∈ g.must, motive q) → (∀ q ∈ g.should, motive q) →
      (∀ q ∈ g.mustNot, motive q) → (∀ q ∈ g.filter, motive q) → motive (.group g)) :
    ∀ qs : List Query, ∀ q ∈ qs, motive q
  | [] => fun _ h => absurd h List.not_mem_nil
  | q :: qs => List.forall_mem_cons.mpr
    ⟨induction matchAll matchNone leaf group q,
      induction_clauses matchAll matchNone leaf group qs⟩

end

mutual

/-- A value for a query from values for the constants, the conditions and the groups, each
group being given the values of its clauses. -/
def fold {β : Type} (all : Option Binary64 → β) (nothing : β) (condition : Condition → β)
    (join : Group β → β) : Query → β
  | matchAll boost => all boost
  | matchNone => nothing
  | leaf c => condition c
  | group ⟨must, should, mustNot, filter, boost, minimum⟩ =>
    join ⟨foldEach all nothing condition join must,
      foldEach all nothing condition join should,
      foldEach all nothing condition join mustNot,
      foldEach all nothing condition join filter, boost, minimum⟩

/-- `fold`, clause by clause. -/
def foldEach {β : Type} (all : Option Binary64 → β) (nothing : β) (condition : Condition → β)
    (join : Group β → β) : List Query → List β
  | [] => []
  | q :: qs => fold all nothing condition join q :: foldEach all nothing condition join qs

end

/-- A query that matches everything, with its boost changed. -/
def boosted (boost : Binary64) : Except Fault Query :=
  (checkBoost boost).map fun boost => matchAll (some boost)

def kind : Query → QueryKind
  | matchAll _ => .matchAll
  | matchNone => .matchNone
  | leaf c => .leaf c.kind
  | group _ => .group

/-- A condition on a field. -/
def isLeaf : Query → Bool
  | leaf _ => true
  | _ => false

/-- A query that either matches everything or matches nothing, whatever is searched. -/
def isConstant : Query → Bool
  | matchAll _ | matchNone => true
  | _ => false

mutual

/-- Equality of structure, with floats compared as numbers. -/
def same : Query → Query → Bool
  | matchAll b, matchAll c => sameOption Binary64.same b c
  | matchNone, matchNone => true
  | leaf c, leaf d => c.same d
  | group ⟨must, should, mustNot, filter, boost, minimum⟩, group g =>
    sameClauses must g.must && sameClauses should g.should &&
      sameClauses mustNot g.mustNot && sameClauses filter g.filter &&
      sameOption Binary64.same boost g.boost && minimum == g.minimum
  | _, _ => false

/-- `same`, clause by clause. -/
def sameClauses : List Query → List Query → Bool
  | [], [] => true
  | q :: qs, r :: rs => same q r && sameClauses qs rs
  | _, _ => false

end

theorem foldEach_eq_map {β : Type} (all : Option Binary64 → β) (nothing : β)
    (condition : Condition → β) (join : Group β → β) (qs : List Query) :
    foldEach all nothing condition join qs = qs.map (fold all nothing condition join) := by
  induction qs with
  | nil => rfl
  | cons q qs ih => rw [foldEach, ih, List.map_cons]

theorem fold_group {β : Type} (all : Option Binary64 → β) (nothing : β)
    (condition : Condition → β) (join : Group β → β) (g : Group Query) :
    fold all nothing condition join (group g) =
      join (g.map (fold all nothing condition join)) := by
  rw [fold]
  simp only [foldEach_eq_map, Group.map]

theorem sameClauses_eq_sameList (qs rs : List Query) :
    sameClauses qs rs = sameList same qs rs := by
  induction qs generalizing rs with
  | nil => cases rs <;> rfl
  | cons q qs ih => cases rs <;> simp [sameClauses, sameList, ih]

end Query

end QueryAlgebra
