import QueryAlgebra.Query.Basic

/-!
# The operators on queries

`and`, `or`, `add` and `negate` build a query from queries. The constants are resolved
first: `matchAll` is neutral for `and` and `add` and absorbs `or`, `matchNone` the other
way round. Then a group, on either side, takes the other operand in, so that a chain of
one operator stays one group. Only two conditions on fields make a new group.

`and` keeps the threshold of each operand: optional clauses that all have to match become
mandatory, the first others are taken over with their threshold written out, and where that
is no longer possible they become a group of their own. `add` concatenates the
buckets and leaves the thresholds to what they then are. `negate` turns the negation of
"all of these" into "one of their negations".
-/

namespace QueryAlgebra

namespace Group

/-- A minimum that is written out where a mandatory clause is about to make the optional
clauses count no longer. -/
def pinned (g : Group Query) : Option Nat :=
  if g.must.isEmpty && g.filter.isEmpty && !g.should.isEmpty then g.minimum <|> some 1
  else g.minimum

/-- Takes over the optional clauses of another group together with their threshold. -/
def adopt (g operand : Group Query) : Group Query :=
  if operand.should.length ≤ operand.threshold then
    { g with must := g.must ++ operand.should }
  else if g.should.isEmpty then
    { g with should := operand.should, minimum := some operand.threshold }
  else if g.threshold = 0 ∧ operand.threshold = 0 then
    { g with should := g.should ++ operand.should }
  else
    { g with must := g.must ++
        [.group { should := operand.should, minimum := some operand.threshold }] }

/-- Both groups hold. -/
def and (g h : Group Query) : Group Query :=
  let mandatory : Group Query :=
    { must := g.must ++ h.must
      mustNot := g.mustNot ++ h.mustNot
      filter := g.filter ++ h.filter
      boost := g.boost }
  (mandatory.adopt g).adopt h

/-- The group holds, and so does a query that is no group. -/
def andClause (g : Group Query) (q : Query) : Group Query :=
  { g with must := g.must ++ [q], minimum := g.pinned }

/-- One more optional alternative; the alternatives of an optional group are taken in one
by one. -/
def absorb (g : Group Query) : Query → Group Query
  | .group h =>
    if h.isOptional then { g with should := g.should ++ h.should }
    else { g with should := g.should ++ [.group h] }
  | q => { g with should := g.should ++ [q] }

/-- The group or the query holds. -/
def or (g : Group Query) (q : Query) : Group Query :=
  if g.isOptional then g.absorb q
  else match q with
    | .group h =>
      if h.isOptional then h.absorb (.group g) else { should := [.group g, q] }
    | q => { should := [.group g, q] }

/-- The buckets of both, one after the other. -/
def append (g h : Group Query) : Group Query :=
  { g with
    must := g.must ++ h.must
    should := g.should ++ h.should
    mustNot := g.mustNot ++ h.mustNot
    filter := g.filter ++ h.filter }

/-- One more mandatory clause. -/
def addClause (g : Group Query) (q : Query) : Group Query :=
  { g with must := g.must ++ [q] }

/-- The negation of a group, from the negations of its `must` and `filter` clauses: one of
these holds, or an excluded clause does, or too few optional clauses do. A group that
nothing can fail has no such alternative. -/
def negation (g : Group Query) (must filter : List Query) : Query :=
  let optional : List Query :=
    if !g.should.isEmpty && 0 < g.threshold then [.group { mustNot := g.should }] else []
  match must ++ filter ++ g.mustNot ++ optional with
  | [] => .matchNone
  | [q] => q
  | alternatives => .group { should := alternatives }

end Group

namespace Query

/-- Both queries hold. -/
def and : Query → Query → Query
  | matchAll _, r => r
  | matchNone, _ => matchNone
  | q, matchAll _ => q
  | _, matchNone => matchNone
  | group g, group h => group (g.and h)
  | group g, r => group (g.andClause r)
  | q, group h => group (h.andClause q)
  | q, r => group { must := [q, r] }

/-- At least one of the queries holds. -/
def or : Query → Query → Query
  | matchAll b, _ => matchAll b
  | matchNone, r => r
  | _, matchAll b => matchAll b
  | q, matchNone => q
  | group g, r => group (g.or r)
  | q, group h => group (h.or q)
  | q, r => group { should := [q, r] }

/-- The second query becomes mandatory in the first. Groups are concatenated bucket by
bucket, without regard to what that does to the threshold. -/
def add : Query → Query → Query
  | matchAll _, r => r
  | matchNone, _ => matchNone
  | q, matchAll _ => q
  | _, matchNone => matchNone
  | group g, group h => group (g.append h)
  | group g, r => group (g.addClause r)
  | q, group h => group (h.addClause q)
  | q, r => group { must := [q, r] }

mutual

/-- The query does not hold. -/
def negate : Query → Query
  | matchAll _ => matchNone
  | matchNone => matchAll none
  | leaf c => group { mustNot := [leaf c] }
  | group ⟨must, should, mustNot, filter, boost, minimum⟩ =>
    Group.negation ⟨must, should, mustNot, filter, boost, minimum⟩
      (negateEach must) (negateEach filter)

/-- `negate`, clause by clause. -/
def negateEach : List Query → List Query
  | [] => []
  | q :: qs => negate q :: negateEach qs

end

/-- All queries hold. -/
def all (qs : List Query) : Query := qs.foldl and (matchAll none)

/-- At least one of the queries holds. -/
def any (qs : List Query) : Query := qs.foldl or matchNone

theorem negateEach_eq_map (qs : List Query) : negateEach qs = qs.map negate := by
  induction qs with
  | nil => rfl
  | cons q qs ih => rw [negateEach, ih, List.map_cons]

theorem negate_group (g : Group Query) :
    negate (group g) = g.negation (g.must.map negate) (g.filter.map negate) := by
  rw [negate, negateEach_eq_map, negateEach_eq_map]

theorem all_nil : all [] = matchAll none := rfl

theorem any_nil : any [] = matchNone := rfl

theorem all_concat (qs : List Query) (q : Query) : all (qs ++ [q]) = (all qs).and q := by
  simp [all]

theorem any_concat (qs : List Query) (q : Query) : any (qs ++ [q]) = (any qs).or q := by
  simp [any]

end Query

end QueryAlgebra
