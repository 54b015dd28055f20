import QueryAlgebra.Defaults.Basic
import QueryAlgebra.Query.Document

/-!
# Envelopes

An `Envelope` carries a query, a filter for its results, or both, with the page to return
and the sort keys. It is made from a `Draft`: a starting point, settings in any order, and
`build`, which fails exactly when there is nothing to search for.
-/

namespace QueryAlgebra

/-- What is searched for, and which part of the results is returned in which order. -/
structure Envelope where
  offset : Nat := 0
  limit : Nat := Defaults.standardPageSize
  postFilter : Option Query := none
  query : Option Query := none
  sort : List SortKey := []

/-- An envelope that is being put together. The sort keys of the defaults are kept apart,
because a single sort key of its own replaces them all. -/
structure Draft where
  offset : Nat := 0
  limit : Nat := Defaults.standardPageSize
  postFilter : Option Query := none
  query : Option Query := none
  sort : List SortKey := []
  fallbackSort : List SortKey := []

namespace Draft

/-- What can be said about an envelope. Sort keys accumulate; otherwise the last setting
counts. -/
inductive Setting where
  | query (q : Query)
  | postFilter (q : Query)
  | offset (n : Nat)
  | limit (n : Nat)
  | sort (k : SortKey)

/-- The draft that takes its page size and sort keys from defaults. -/
def ofDefaults (d : Defaults) : Draft :=
  { limit := d.pageSize, fallbackSort := d.sort }

def set (d : Draft) : Setting → Draft
  | .query q => { d with query := some q }
  | .postFilter q => { d with postFilter := some q }
  | .offset n => { d with offset := n }
  | .limit n => { d with limit := n }
  | .sort k => { d with sort := d.sort ++ [k] }

def configure (d : Draft) (settings : List Setting) : Draft := settings.foldl set d

/-- The envelope, unless there is neither a query nor a filter. -/
def build (d : Draft) : Except Fault Envelope :=
  if d.query.isNone && d.postFilter.isNone then .error .nothingToSearch
  else .ok
    { offset := d.offset
      limit := d.limit
      postFilter := d.postFilter
      query := d.query
      sort := if d.sort.isEmpty then d.fallbackSort else d.sort }

@[simp] theorem configure_nil (d : Draft) : d.configure [] = d := rfl

theorem build_eq_error_iff (d : Draft) (f : Fault) :
    d.build = .error f ↔ d.query = none ∧ d.postFilter = none ∧ f = .nothingToSearch := by
  unfold build
  split
  case isTrue h =>
    simp only [Bool.and_eq_true, Option.isNone_iff_eq_none] at h
    constructor
    · intro hf
      exact ⟨h.1, h.2, (Except.error.inj hf).symm⟩
    · rintro ⟨_, _, rfl⟩
      rfl
  case isFalse h =>
    constructor
    · intro hf
      exact nomatch hf
    · rintro ⟨hq, hp, _⟩
      exact absurd (by rw [hq, hp]; rfl) h

end Draft

namespace Envelope

/-- The first page of the results of a query. -/
def ofQuery (q : Query) : Envelope := { query := some q }

def same (d e : Envelope) : Bool :=
  d.offset == e.offset && d.limit == e.limit &&
    sameOption Query.same d.postFilter e.postFilter &&
    sameOption Query.same d.query e.query && d.sort == e.sort

/-- The envelope as it is sent; what is absent is left out. -/
def document (e : Envelope) : Document :=
  .record
    (("from", Document.integer e.offset) :: ("size", Document.integer e.limit) ::
      (Document.parameter "post_filter" Query.document e.postFilter ++
        Document.parameter "query" Query.document e.query ++
        Document.bucket "sort" (e.sort.map SortKey.document)))

end Envelope

end QueryAlgebra
