import QueryAlgebra.Proofs.Operators.Clauses
import QueryAlgebra.Query.Document

/-!
# Reading query documents

A backend knows a query by its document alone. `Document.selects` is how it reads one: the
constants and the groups by their keys, and every other document as a condition that the
record at hand decides. In a group a missing bucket has no clauses. A minimum counts as
written; where none is written it is one for optional clauses that stand alone and zero
otherwise.

The threshold of a group is written only where it was given. `selects_document` says that
nothing is lost by this: the document of a query is read as the query is meant.
-/

namespace QueryAlgebra

namespace Document

/-- The number of optional clauses that have to match, from the minimum as it is written
and from the decisions on the clauses. -/
def required (written : Option Document) (must should filter : List Bool) : Nat :=
  match written with
  | some (.number (.integer n)) => n.toNat
  | _ => if should = [] ∨ must ≠ [] ∨ filter ≠ [] then 0 else 1

/-- The decisions on the clauses under a key; a bucket that is missing has none. -/
def under (key : String) (buckets : List (String × List Bool)) : List Bool :=
  (buckets.lookup key).getD []

/-- The decision on the fields of a group whose buckets are decided already. -/
def joined (fields : List (String × Document)) (buckets : List (String × List Bool)) : Bool :=
  (under "must" buckets).all id && (under "filter" buckets).all id &&
    (under "must_not" buckets).all not &&
    required (fields.lookup "minimum_should_match") (under "must" buckets)
      (under "should" buckets) (under "filter" buckets) ≤ (under "should" buckets).count true

mutual

/-- The document matches a record that decides the documents of conditions by `v`. -/
def selects (v : Document → Bool) : Document → Bool
  | .record [("match_all", _)] => true
  | .record [("match_none", _)] => false
  | .record [("bool", .record fields)] => joined fields (decideBuckets v fields)
  | d => v d

/-- The decisions on the clauses of every bucket. -/
def decideBuckets (v : Document → Bool) : List (String × Document) → List (String × List Bool)
  | [] => []
  | (key, .list clauses) :: fields => (key, decideEach v clauses) :: decideBuckets v fields
  | _ :: fields => decideBuckets v fields

/-- `selects`, clause by clause. -/
def decideEach (v : Document → Bool) : List Document → List Bool
  | [] => []
  | d :: ds => selects v d :: decideEach v ds

end

variable {v : Document → Bool}

theorem decideEach_eq_map (ds : List Document) : decideEach v ds = ds.map (selects v) := by
  induction ds with
  | nil => rfl
  | cons d ds ih => rw [decideEach, ih, List.map_cons]

theorem decideBuckets_append (fields others : List (String × Document)) :
    decideBuckets v (fields ++ others) = decideBuckets v fields ++ decideBuckets v others := by
  induction fields with
  | nil => rfl
  | cons field fields ih =>
      obtain ⟨key, value⟩ := field
      cases value with
      | list clauses =>
          rw [List.cons_append, decideBuckets, decideBuckets, ih, List.cons_append]
      | _ => simpa [decideBuckets] using ih

theorem decideBuckets_parameter {α : Type} (key : String) {write : α → Document}
    (h : ∀ a clauses, write a ≠ .list clauses) (o : Option α) :
    decideBuckets v (parameter key write o) = [] := by
  cases o with
  | none => rfl
  | some a =>
      rw [parameter_some]
      cases hvalue : write a with
      | list clauses => exact absurd hvalue (h a clauses)
      | _ => rfl

theorem lookup_pair {β : Type} (key other : String) (b : β) :
    [(key, b)].lookup other = if other = key then some b else none := by
  by_cases h : other = key
  · simp [h]
  · have hbeq : (other == key) = false := beq_false_of_ne h
    simp [List.lookup_cons, hbeq, h]

theorem lookup_decideBuckets_bucket (key other : String) (ds : List Document) :
    (decideBuckets v (bucket key ds)).lookup other =
      if other = key ∧ ds ≠ [] then some (ds.map (selects v)) else none := by
  cases ds with
  | nil => simp [bucket, decideBuckets]
  | cons d ds => simp [bucket, decideBuckets, decideEach_eq_map, lookup_pair]

theorem lookup_bucket_of_ne {key other : String} (h : other ≠ key) (ds : List Document) :
    (bucket key ds).lookup other = none := by
  cases ds with
  | nil => rfl
  | cons d ds => simp [bucket, lookup_pair, h]

theorem lookup_parameter {α : Type} (key other : String) (write : α → Document)
    (o : Option α) :
    (parameter key write o).lookup other = if other = key then o.map write else none := by
  cases o with
  | none => simp
  | some a => rw [parameter_some, lookup_pair, Option.map_some]

theorem float_ne_list (x : Binary64) (ds : List Document) : float x ≠ .list ds := by
  unfold float
  split <;> simp

theorem decideBuckets_fields (g : Group Document) :
    decideBuckets v g.fields =
      decideBuckets v (bucket "must" g.must) ++ decideBuckets v (bucket "should" g.should) ++
        decideBuckets v (bucket "must_not" g.mustNot) ++
        decideBuckets v (bucket "filter" g.filter) := by
  rw [Group.fields, decideBuckets_append, decideBuckets_append, decideBuckets_append,
    decideBuckets_append, decideBuckets_append, decideBuckets_parameter _ float_ne_list,
    decideBuckets_parameter _ (by simp [integer]), List.append_nil, List.append_nil]

theorem lookup_minimum_fields (g : Group Document) :
    g.fields.lookup "minimum_should_match" = g.minimum.map fun n : Nat => integer n := by
  cases hmin : g.minimum <;>
    simp [Group.fields, List.lookup_append, lookup_bucket_of_ne, lookup_parameter, hmin]

/-- A backend asks for the threshold, whether it is written or not. -/
theorem required_minimum (g : Group Bool) :
    required (g.minimum.map fun n : Nat => integer n) g.must g.should g.filter =
      g.threshold := by
  cases hmin : g.minimum with
  | none =>
      rw [Group.threshold_of_minimum_eq_none hmin]
      rfl
  | some n =>
      rw [Group.threshold_of_minimum hmin]
      rfl

theorem under_fields (g : Group Document) :
    under "must" (decideBuckets v g.fields) = g.must.map (selects v) ∧
      under "should" (decideBuckets v g.fields) = g.should.map (selects v) ∧
      under "must_not" (decideBuckets v g.fields) = g.mustNot.map (selects v) ∧
      under "filter" (decideBuckets v g.fields) = g.filter.map (selects v) := by
  have hbucket : ∀ ds : List Document,
      (if ds = [] then none else some (ds.map (selects v))).getD [] = ds.map (selects v) := by
    intro ds
    by_cases h : ds = []
    · simp [h]
    · simp [h]
  rw [decideBuckets_fields]
  simp [under, List.lookup_append, lookup_decideBuckets_bucket, hbucket]

theorem joined_fields (g : Group Document) :
    joined g.fields (decideBuckets v g.fields) = (g.map (selects v)).verdict := by
  obtain ⟨hmust, hshould, hmustNot, hfilter⟩ := under_fields (v := v) g
  have hrequired : required (g.minimum.map fun n : Nat => integer n)
      (g.must.map (selects v)) (g.should.map (selects v)) (g.filter.map (selects v)) =
      (g.map (selects v)).threshold := required_minimum (g.map (selects v))
  rw [joined, hmust, hshould, hmustNot, hfilter, lookup_minimum_fields, hrequired]
  rfl

theorem selects_single_bool (fields : List (String × Document)) :
    selects v (single "bool" (.record fields)) = joined fields (decideBuckets v fields) := by
  rw [single, selects]

end Document

namespace Query

theorem selects_condition (v : Document → Bool) (c : Condition) :
    Document.selects v c.document = v c.document := by
  cases c <;> rfl

/-- The document of a query is read as the query is meant. -/
theorem selects_document (v : Document → Bool) (q : Query) :
    Document.selects v q.document = holds (fun c => v c.document) q := by
  induction q with
  | matchAll boost => rfl
  | matchNone => rfl
  | leaf c => exact selects_condition v c
  | group g hmust hshould hmustNot hfilter =>
      have hmap : (g.map document).map (Document.selects v) =
          g.map (holds fun c => v c.document) := by
        simp only [Group.map, List.map_map, Group.mk.injEq, and_true]
        refine ⟨?_, ?_, ?_, ?_⟩
        · exact List.map_congr_left hmust
        · exact List.map_congr_left hshould
        · exact List.map_congr_left hmustNot
        · exact List.map_congr_left hfilter
      rw [document_group, Document.selects_single_bool, Document.joined_fields, hmap,
        holds_group]

end Query

end QueryAlgebra
