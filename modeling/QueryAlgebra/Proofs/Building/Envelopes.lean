import Mathlib.Data.List.Induction
import QueryAlgebra.Proofs.Building.Settings
import QueryAlgebra.Request

/-!
# Envelopes that are built

An envelope is put together from a starting point and settings in any order. `Draft.outcome` is the
envelope that comes out, read off the settings: the last one of each kind counts, except that sort
keys accumulate and take the place of the configured ones as soon as there is one. What is built is
this outcome unless nothing is searched for, `build_configure_eq_ok_iff`, so that an order of the
settings that `Reordered` allows makes no difference.
-/

namespace QueryAlgebra

namespace Draft

/-- What a setting is for. -/
inductive Subject where
  | query
  | postFilter
  | offset
  | limit
  | sort
  deriving DecidableEq

namespace Setting

def subject : Setting → Subject
  | query _ => .query
  | postFilter _ => .postFilter
  | offset _ => .offset
  | limit _ => .limit
  | sort _ => .sort

def query? : Setting → Option Query
  | query q => some q
  | _ => none

def postFilter? : Setting → Option Query
  | postFilter q => some q
  | _ => none

def offset? : Setting → Option Nat
  | offset n => some n
  | _ => none

def limit? : Setting → Option Nat
  | limit n => some n
  | _ => none

def sort? : Setting → Option SortKey
  | sort k => some k
  | _ => none

end Setting

/-- The draft that settings are added to, with or without defaults. -/
def start : Option Defaults → Draft
  | none => {}
  | some d => ofDefaults d

/-- The envelope that settings ask for. -/
def outcome (defaults : Option Defaults) (ss : List Setting) : Envelope where
  offset := (lastOf Setting.offset? ss).getD 0
  limit := (lastOf Setting.limit? ss).getD ((defaults.map Defaults.pageSize).getD 100)
  postFilter := lastOf Setting.postFilter? ss
  query := lastOf Setting.query? ss
  sort :=
    match ss.filterMap Setting.sort? with
    | [] => (defaults.map Defaults.sort).getD []
    | keys => keys

theorem configure_concat (d : Draft) (ss : List Setting) (s : Setting) :
    d.configure (ss ++ [s]) = (d.configure ss).set s := by
  rw [configure, List.foldl_append]
  rfl

/-- A setting changes the one part that it is for, and the last one stays. -/
theorem configure_eq (d : Draft) (ss : List Setting) :
    d.configure ss =
      { offset := (lastOf Setting.offset? ss).getD d.offset
        limit := (lastOf Setting.limit? ss).getD d.limit
        postFilter := (lastOf Setting.postFilter? ss).or d.postFilter
        query := (lastOf Setting.query? ss).or d.query
        sort := d.sort ++ ss.filterMap Setting.sort?
        fallbackSort := d.fallbackSort } := by
  induction ss using List.reverseRecOn with
  | nil => simp
  | append_singleton ss s ih =>
      rw [configure_concat, ih]
      cases s <;>
        simp [set, lastOf_concat, Setting.offset?, Setting.limit?, Setting.postFilter?,
          Setting.query?, Setting.sort?]

theorem configure_start (defaults : Option Defaults) (ss : List Setting) :
    (start defaults).configure ss =
      { offset := (lastOf Setting.offset? ss).getD 0
        limit := (lastOf Setting.limit? ss).getD ((defaults.map Defaults.pageSize).getD 100)
        postFilter := lastOf Setting.postFilter? ss
        query := lastOf Setting.query? ss
        sort := ss.filterMap Setting.sort?
        fallbackSort := (defaults.map Defaults.sort).getD [] } := by
  rw [configure_eq]
  cases defaults <;> simp [start, ofDefaults, Defaults.standardPageSize]

theorem build_configure_start (defaults : Option Defaults) (ss : List Setting) :
    ((start defaults).configure ss).build =
      if lastOf Setting.query? ss = none ∧ lastOf Setting.postFilter? ss = none then
        .error .nothingToSearch
      else .ok (outcome defaults ss) := by
  rw [configure_start, build, outcome]
  simp only [Bool.and_eq_true, Option.isNone_iff_eq_none]
  cases ss.filterMap Setting.sort? <;> rfl

theorem lastOf_query?_eq_none_iff (ss : List Setting) :
    lastOf Setting.query? ss = none ↔ ∀ q, .query q ∉ ss :=
  lastOf_eq_none_iff_not_mem fun s q => by cases s <;> simp [Setting.query?]

theorem lastOf_postFilter?_eq_none_iff (ss : List Setting) :
    lastOf Setting.postFilter? ss = none ↔ ∀ q, .postFilter q ∉ ss :=
  lastOf_eq_none_iff_not_mem fun s q => by cases s <;> simp [Setting.postFilter?]

section Build

variable {defaults : Option Defaults} {ss ts : List Setting}

theorem build_configure_eq_error_iff (f : Fault) :
    ((start defaults).configure ss).build = .error f ↔
      f = .nothingToSearch ∧ (∀ q, .query q ∉ ss) ∧ ∀ q, .postFilter q ∉ ss := by
  rw [build_eq_error_iff, configure_start, lastOf_query?_eq_none_iff,
    lastOf_postFilter?_eq_none_iff]
  tauto

theorem build_configure_eq_ok_iff (e : Envelope) :
    ((start defaults).configure ss).build = .ok e ↔
      (∃ q, .query q ∈ ss ∨ .postFilter q ∈ ss) ∧ e = outcome defaults ss := by
  have hnothing : (lastOf Setting.query? ss = none ∧ lastOf Setting.postFilter? ss = none) ↔
      ¬∃ q, .query q ∈ ss ∨ .postFilter q ∈ ss := by
    rw [lastOf_query?_eq_none_iff, lastOf_postFilter?_eq_none_iff, not_exists, ← forall_and]
    exact forall_congr' fun q => not_or.symm
  rw [build_configure_start]
  split
  · next h => simp [hnothing.mp h]
  · next h =>
    rw [hnothing, not_not] at h
    rw [Except.ok.injEq, eq_comm]
    exact (and_iff_right h).symm

theorem set_comm (d : Draft) (s t : Setting) (h : s.subject ≠ t.subject) :
    (d.set s).set t = (d.set t).set s := by
  cases s <;> cases t <;> first | rfl | exact absurd rfl h

/-- Settings for different things do not get in each other's way. -/
theorem configure_of_reordered (h : Reordered Setting.subject ss ts) (d : Draft) :
    d.configure ss = d.configure ts :=
  h.foldl_eq set_comm d

end Build

end Draft

/-- What is absent is left out of an envelope that is sent, and so are sort keys where there is
none. -/
theorem Envelope.document_eq (e : Envelope) :
    e.document = .record
      (("from", Document.integer e.offset) :: ("size", Document.integer e.limit) ::
        ((e.postFilter.map fun q => ("post_filter", q.document)).toList ++
          (e.query.map fun q => ("query", q.document)).toList ++
          if e.sort = [] then [] else [("sort", .list (e.sort.map SortKey.document))])) := by
  obtain ⟨offset, limit, postFilter, query, sort⟩ := e
  cases postFilter <;> cases query <;> cases sort <;> rfl

namespace Draft

/-- What settings make of an envelope, whatever it starts from. It is built exactly when a query or
a filter is among them, and then as `Draft.outcome` says; another order of settings for different
things changes nothing. So the envelope of a query alone is what the setting for it gives, and the
request for a query with defaults is always built. -/
theorem envelope_of_settings (defaults : Option Defaults) (ss : List Setting) :
    (∀ f, ((start defaults).configure ss).build = .error f ↔
      f = .nothingToSearch ∧ (∀ q, .query q ∉ ss) ∧ ∀ q, .postFilter q ∉ ss) ∧
    (∀ e, ((start defaults).configure ss).build = .ok e ↔
      (∃ q, .query q ∈ ss ∨ .postFilter q ∈ ss) ∧ e = outcome defaults ss) ∧
    (∀ e, ((start defaults).configure ss).build = .ok e → e.document = .record
      (("from", Document.integer e.offset) :: ("size", Document.integer e.limit) ::
        ((e.postFilter.map fun q => ("post_filter", q.document)).toList ++
          (e.query.map fun q => ("query", q.document)).toList ++
          if e.sort = [] then [] else [("sort", .list (e.sort.map SortKey.document))]))) ∧
    (∀ ts, Reordered Setting.subject ss ts →
      ((start defaults).configure ss).build = ((start defaults).configure ts).build) ∧
    (∀ q, ((start none).configure [.query q]).build = .ok (.ofQuery q)) ∧
    ∀ q d, ∃ e, ((start (some d)).configure [.query q]).build = .ok e ∧
      Request.ofDefaults q d = .ok { envelope := e, attributes := d.attributes } := by
  refine ⟨build_configure_eq_error_iff, build_configure_eq_ok_iff, ?_, ?_, ?_, ?_⟩
  · intro e _
    exact e.document_eq
  · intro ts h
    rw [configure_of_reordered h]
  · intro q
    rfl
  · intro q d
    exact ⟨_, rfl, rfl⟩

/-- The settings for sort keys, pages and queries mixed with each other, and the same ones sorted
by what they are for. -/
theorem envelope_of_settings_reordered :
    Reordered Setting.subject
        [.sort ⟨"b", .descending⟩, .limit 10, .query .matchNone, .sort ⟨"c", .ascending⟩,
          .query (.matchAll none), .limit 20]
        [.query .matchNone, .query (.matchAll none), .limit 10, .limit 20,
          .sort ⟨"b", .descending⟩, .sort ⟨"c", .ascending⟩] ∧
      ((start (some { pageSize := 5, sort := [⟨"a", .ascending⟩] })).configure
          [.query .matchNone, .query (.matchAll none), .limit 10, .limit 20,
            .sort ⟨"b", .descending⟩, .sort ⟨"c", .ascending⟩]).build =
        .ok { limit := 20, query := some (.matchAll none),
              sort := [⟨"b", .descending⟩, ⟨"c", .ascending⟩] } ∧
      Envelope.document { limit := 20, query := some (.matchAll none),
                          sort := [⟨"b", .descending⟩, ⟨"c", .ascending⟩] } = .record
        [("from", Document.integer 0), ("size", Document.integer 20),
          ("query", Document.single "match_all" (.record [])),
          ("sort", .list [Document.single "b" (Document.single "order" (.text "desc")),
            Document.single "c" (Document.single "order" (.text "asc"))])] := by
  have hreordered : Reordered Setting.subject
      [.sort ⟨"b", .descending⟩, .limit 10, .query .matchNone, .sort ⟨"c", .ascending⟩,
        .query (.matchAll none), .limit 20]
      [.query .matchNone, .query (.matchAll none), .limit 10, .limit 20,
        .sort ⟨"b", .descending⟩, .sort ⟨"c", .ascending⟩] := by
    intro k
    cases k <;> rfl
  obtain ⟨-, hok, hdocument, hsame, -⟩ := envelope_of_settings
    (some { pageSize := 5, sort := [⟨"a", .ascending⟩] })
    [.sort ⟨"b", .descending⟩, .limit 10, .query .matchNone, .sort ⟨"c", .ascending⟩,
      .query (.matchAll none), .limit 20]
  have hbuild := (hok _).mpr ⟨⟨.matchNone, by simp⟩, rfl⟩
  refine ⟨hreordered, ?_, hdocument _ hbuild⟩
  rw [← hsame _ hreordered, hbuild]
  rfl

end Draft

end QueryAlgebra
