import QueryAlgebra.Proofs.Building.Settings
import QueryAlgebra.Proofs.Sameness.Congruence

/-!
# Parameters in any order

A range and a group get their parameters by settings. Every setting is for one key of the document,
is checked on its own, and writes nothing but the parameter under its key; so settings for different
keys commute. In the document of what comes out every key holds what the settings for it gave, and
the keys stand in an order of their own, whatever the order of the settings.
-/

namespace QueryAlgebra

open Document

/-! ## Ranges -/

namespace Range

namespace Setting

/-- The key of the parameter that the setting is for. -/
def key : Setting → String
  | above _ => "gt"
  | atLeast _ => "gte"
  | below _ => "lt"
  | atMost _ => "lte"
  | boost _ => "boost"
  | format _ => "format"
  | relation _ => "relation"
  | timeZone _ => "time_zone"

/-- The value as it is sent. -/
def document : Setting → Document
  | above v | atLeast v | below v | atMost v => v.document
  | boost b => .float b
  | format s | timeZone s => .text s
  | relation r => .text r.name

/-- Bounds have to be finite and a boost has to be allowed. -/
def isAccepted : Setting → Bool
  | above v | atLeast v | below v | atMost v => v.isFinite
  | boost b => isBoost b
  | format _ | relation _ | timeZone _ => true

/-- What the setting gives to the parameter with the key. -/
def given? (key : String) (s : Setting) : Option Document :=
  if s.key = key then some s.document else none

end Setting

/-- The range with a parameter set, whether it is accepted or not. -/
def put (r : Range) : Setting → Range
  | .above v => { r with above := some v }
  | .atLeast v => { r with atLeast := some v }
  | .below v => { r with below := some v }
  | .atMost v => { r with atMost := some v }
  | .boost b => { r with boost := some b }
  | .format s => { r with format := some s }
  | .relation relation => { r with relation := some relation }
  | .timeZone s => { r with timeZone := some s }

/-- The keys of a range, in the order in which they are sent. -/
def keys : List String :=
  ["gt", "gte", "lt", "lte", "boost", "format", "relation", "time_zone"]

theorem set_eq_ok_iff (r : Range) (s : Setting) (u : Range) :
    r.set s = .ok u ↔ s.isAccepted = true ∧ r.put s = u := by
  cases s with
  | above | atLeast | below | atMost => exact map_checkValue_eq_ok_iff _ _ _ _ _
  | boost => exact map_checkBoost_eq_ok_iff _ _ _
  | format | relation | timeZone => simp [set, put, Setting.isAccepted]

theorem put_comm (r : Range) (s t : Setting) (h : s.key ≠ t.key) :
    (r.put s).put t = (r.put t).put s := by
  -- settings of two kinds write different parameters, and those of one kind have one key
  cases s <;> cases t <;> first | rfl | exact absurd rfl h

/-- A setting changes the parameter under its key and nothing else. -/
theorem lookup_fields_put (key : String) (r : Range) (s : Setting) :
    (r.put s).fields.lookup key = (s.given? key).or (r.fields.lookup key) := by
  simp only [fields, List.lookup_append, lookup_parameter]
  by_cases hkey : s.key = key
  · subst hkey
    cases s <;> simp [put, Setting.given?, Setting.key, Setting.document]
  · have hne : key ≠ s.key := Ne.symm hkey
    rw [Setting.given?, if_neg hkey, Option.none_or]
    cases s <;> simp only [Setting.key] at hne <;> simp only [put, if_neg hne]

theorem lookup_fields_foldl_put (key : String) (r : Range) (ss : List Setting) :
    (ss.foldl put r).fields.lookup key =
      (lastOf (Setting.given? key) ss).or (r.fields.lookup key) :=
  read_foldl_eq (fun r => r.fields.lookup key) (lookup_fields_put key) r ss

/-- The fields stand in one order, and a key without a value is left out. -/
theorem fields_eq_present (r : Range) :
    r.fields = present (keys.map fun key => (key, r.fields.lookup key)) := by
  simp [keys, fields, List.lookup_append, lookup_parameter]

theorem field_foldl_put (r : Range) (ss : List Setting) : (ss.foldl put r).field = r.field := by
  induction ss generalizing r with
  | nil => rfl
  | cons s ss ih =>
      rw [List.foldl_cons, ih]
      cases s <;> rfl

section Configure

variable {r u : Range} {ss ts : List Setting}

theorem configure_eq_ok_iff :
    r.configure ss = .ok u ↔ (∀ s ∈ ss, s.isAccepted = true) ∧ ss.foldl put r = u :=
  foldlM_eq_ok_iff set_eq_ok_iff r u

theorem exists_configure_eq_ok_iff :
    (∃ u, r.configure ss = .ok u) ↔ ∀ s ∈ ss, s.isAccepted = true :=
  exists_foldlM_eq_ok_iff set_eq_ok_iff r

theorem configure_congr (h : Reordered Setting.key ss ts) (r : Range) :
    ((∃ f, r.configure ss = .error f) ↔ ∃ f, r.configure ts = .error f) ∧
      ∀ u, r.configure ss = .ok u ↔ r.configure ts = .ok u :=
  h.foldlM_congr set_eq_ok_iff put_comm r

/-- Every parameter holds the last value given to it, or the one that it had. -/
theorem document_of_configure (h : r.configure ss = .ok u) :
    u.document = .single "range" (.single r.field (.record (present
      (keys.map fun key => (key, (lastOf (Setting.given? key) ss).or (r.fields.lookup key)))))) := by
  obtain ⟨-, rfl⟩ := configure_eq_ok_iff.mp h
  rw [document, field_foldl_put, fields_eq_present]
  simp only [lookup_fields_foldl_put]

theorem valid_of_configure (h : r.configure ss = .ok u) (hr : Condition.Valid (.range r)) :
    Condition.Valid (.range u) :=
  invariant_of_foldlM (fun r => Condition.Valid (.range r)) (fun _ _ _ _ => valid_of_set) h hr

end Configure

end Range

/-! ## Groups -/

namespace Group

variable {α : Type}

namespace Setting

/-- The key of the bucket or parameter that the setting is for. -/
def key : Setting α → String
  | must _ => "must"
  | should _ => "should"
  | mustNot _ => "must_not"
  | filter _ => "filter"
  | boost _ => "boost"
  | minimum _ => "minimum_should_match"

/-- The clauses that the setting brings into the bucket with the key. -/
def clausesFor (key : String) (s : Setting α) : List α :=
  if s.key = key then s.clauses else []

def boost? : Setting α → Option Binary64
  | boost b => some b
  | _ => none

def minimum? : Setting α → Option Nat
  | minimum n => some n
  | _ => none

/-- Only a boost has to be allowed. -/
def isAccepted : Setting α → Bool
  | boost b => isBoost b
  | _ => true

end Setting

/-- The group with a setting made, whether it is accepted or not. -/
def put (g : Group α) : Setting α → Group α
  | .must clauses => { g with must := g.must ++ clauses }
  | .should clauses => { g with should := g.should ++ clauses }
  | .mustNot clauses => { g with mustNot := g.mustNot ++ clauses }
  | .filter clauses => { g with filter := g.filter ++ clauses }
  | .boost b => { g with boost := some b }
  | .minimum n => { g with minimum := some n }

theorem set_eq_ok_iff (g : Group α) (s : Setting α) (k : Group α) :
    g.set s = .ok k ↔ s.isAccepted = true ∧ g.put s = k := by
  cases s with
  | boost => exact map_checkBoost_eq_ok_iff _ _ _
  | _ => simp [set, put, Setting.isAccepted]

theorem put_comm (g : Group α) (s t : Setting α) (h : s.key ≠ t.key) :
    (g.put s).put t = (g.put t).put s := by
  cases s <;> cases t <;> first | rfl | exact absurd rfl h

/-- The buckets hold the clauses of all settings for them in their order, and boost and minimum the
last value given. -/
theorem foldl_put_eq (g : Group α) (ss : List (Setting α)) :
    ss.foldl put g =
      { must := g.must ++ ss.flatMap (Setting.clausesFor "must")
        should := g.should ++ ss.flatMap (Setting.clausesFor "should")
        mustNot := g.mustNot ++ ss.flatMap (Setting.clausesFor "must_not")
        filter := g.filter ++ ss.flatMap (Setting.clausesFor "filter")
        boost := (lastOf Setting.boost? ss).or g.boost
        minimum := (lastOf Setting.minimum? ss).or g.minimum } := by
  induction ss using List.reverseRecOn with
  | nil => simp
  | append_singleton ss s ih =>
      rw [List.foldl_append, List.foldl_cons, List.foldl_nil, ih]
      cases s <;>
        simp [put, lastOf_concat, Setting.clausesFor, Setting.key, Setting.clauses,
          Setting.boost?, Setting.minimum?]

section Configure

variable {g u : Group α} {ss ts : List (Setting α)}

theorem configure_eq_ok_iff :
    g.configure ss = .ok u ↔ (∀ s ∈ ss, s.isAccepted = true) ∧ ss.foldl put g = u :=
  foldlM_eq_ok_iff set_eq_ok_iff g u

theorem exists_configure_eq_ok_iff :
    (∃ u, g.configure ss = .ok u) ↔ ∀ s ∈ ss, s.isAccepted = true :=
  exists_foldlM_eq_ok_iff set_eq_ok_iff g

theorem configure_congr (h : Reordered Setting.key ss ts) (g : Group α) :
    ((∃ f, g.configure ss = .error f) ↔ ∃ f, g.configure ts = .error f) ∧
      ∀ u, g.configure ss = .ok u ↔ g.configure ts = .ok u :=
  h.foldlM_congr set_eq_ok_iff put_comm g

end Configure

/-- The fields stand in one order, whatever the order of the settings was. -/
theorem fields_eq_present (g : Group Document) :
    g.fields = present
      [("must", listed g.must), ("should", listed g.should), ("must_not", listed g.mustNot),
        ("filter", listed g.filter), ("boost", g.boost.map Document.float),
        ("minimum_should_match", g.minimum.map fun n : Nat => Document.integer n)] := by
  simp [fields, parameter_bind_some]

/-- Every bucket holds its clauses and those given to it, and every parameter the last value given
to it, or the one that it had. -/
theorem document_of_configure {g u : Group Query} {ss : List (Setting Query)}
    (h : g.configure ss = .ok u) :
    (Query.group u).document = .single "bool" (.record (present
      [("must", listed ((g.must ++ ss.flatMap (Setting.clausesFor "must")).map Query.document)),
        ("should",
          listed ((g.should ++ ss.flatMap (Setting.clausesFor "should")).map Query.document)),
        ("must_not",
          listed ((g.mustNot ++ ss.flatMap (Setting.clausesFor "must_not")).map Query.document)),
        ("filter",
          listed ((g.filter ++ ss.flatMap (Setting.clausesFor "filter")).map Query.document)),
        ("boost", ((lastOf Setting.boost? ss).or g.boost).map Document.float),
        ("minimum_should_match",
          ((lastOf Setting.minimum? ss).or g.minimum).map fun n : Nat => Document.integer n)])) := by
  obtain ⟨-, rfl⟩ := configure_eq_ok_iff.mp h
  rw [Query.document_group, fields_eq_present, foldl_put_eq]
  rfl

/-- A group of checked clauses that gets more of them stays one. -/
theorem checked_of_configure {g u : Group Query} {ss : List (Setting Query)}
    (h : g.configure ss = .ok u) (hss : ∀ s ∈ ss, ∀ q ∈ s.clauses, Query.Everywhere Query.Checked q)
    (hg : Query.Everywhere Query.Checked (.group g)) :
    Query.Everywhere Query.Checked (.group u) :=
  invariant_of_foldlM (fun g => Query.Everywhere Query.Checked (.group g))
    (fun s hs _ _ hset hg => Query.checked_of_set hg (hss s hs) hset) h hg

end Group

/-! ## What settings come to -/

/-- What settings make of a range or a group. They are accepted when each of them is. In another
order that keeps the one for each key they are refused or accepted alike, and give the same, which
also compares equal where what they started from was checked. In its document every parameter holds
the last value given to it, or else the one that it had, and every bucket its clauses with those of
all settings for it behind them; and the keys stand in one order. -/
theorem parameters_of_settings :
    (∀ (r : Range) (ss : List Range.Setting),
      ((∃ u, r.configure ss = .ok u) ↔ ∀ s ∈ ss, s.isAccepted = true) ∧
      (∀ ts, Reordered Range.Setting.key ss ts →
        ((∃ f, r.configure ss = .error f) ↔ ∃ f, r.configure ts = .error f) ∧
          ∀ u, r.configure ss = .ok u ↔ r.configure ts = .ok u) ∧
      ∀ u, r.configure ss = .ok u →
        (Condition.Valid (.range r) → u.same u = true) ∧
        u.document = .single "range" (.single r.field (.record (present
          (["gt", "gte", "lt", "lte", "boost", "format", "relation", "time_zone"].map fun key =>
            (key, (lastOf (Range.Setting.given? key) ss).or (r.fields.lookup key))))))) ∧
    ∀ (g : Group Query) (ss : List (Group.Setting Query)),
      ((∃ u, g.configure ss = .ok u) ↔ ∀ s ∈ ss, s.isAccepted = true) ∧
      (∀ ts, Reordered Group.Setting.key ss ts →
        ((∃ f, g.configure ss = .error f) ↔ ∃ f, g.configure ts = .error f) ∧
          ∀ u, g.configure ss = .ok u ↔ g.configure ts = .ok u) ∧
      ∀ u, g.configure ss = .ok u →
        ((∀ s ∈ ss, ∀ q ∈ s.clauses, Query.Everywhere Query.Checked q) →
          Query.Everywhere Query.Checked (.group g) →
            (Query.group u).same (.group u) = true) ∧
        (Query.group u).document = .single "bool" (.record (present
          [("must",
              listed ((g.must ++ ss.flatMap (Group.Setting.clausesFor "must")).map
                Query.document)),
            ("should",
              listed ((g.should ++ ss.flatMap (Group.Setting.clausesFor "should")).map
                Query.document)),
            ("must_not",
              listed ((g.mustNot ++ ss.flatMap (Group.Setting.clausesFor "must_not")).map
                Query.document)),
            ("filter",
              listed ((g.filter ++ ss.flatMap (Group.Setting.clausesFor "filter")).map
                Query.document)),
            ("boost", ((lastOf Group.Setting.boost? ss).or g.boost).map Document.float),
            ("minimum_should_match",
              ((lastOf Group.Setting.minimum? ss).or g.minimum).map fun n : Nat =>
                Document.integer n)])) := by
  constructor
  · intro r ss
    refine ⟨Range.exists_configure_eq_ok_iff, fun ts h => Range.configure_congr h r, ?_⟩
    intro u hu
    refine ⟨?_, Range.document_of_configure hu⟩
    intro hr
    exact Condition.same_self (Range.valid_of_configure hu hr)
  · intro g ss
    refine ⟨Group.exists_configure_eq_ok_iff, fun ts h => Group.configure_congr h g, ?_⟩
    intro u hu
    refine ⟨?_, Group.document_of_configure hu⟩
    intro hss hg
    exact Query.same_self (Group.checked_of_configure hu hss hg)

/-- A boost before and between two upper bounds, of which the last one counts, and before and
between the clauses of one bucket. A group refuses a boost in both places alike. -/
theorem parameters_of_settings_between :
    (∃ u, Range.configure { field := "age" }
        [.boost (.finite false 1024 0), .below (.number (.signed 30)),
          .below (.number (.signed 40))] = .ok u ∧
      Range.configure { field := "age" }
        [.below (.number (.signed 30)), .boost (.finite false 1024 0),
          .below (.number (.signed 40))] = .ok u ∧
      u.same u = true ∧
      u.document = .single "range" (.single "age" (.record
        [("lt", Document.integer 40), ("boost", Document.float (.finite false 1024 0))]))) ∧
    (∃ u, Group.configure ({} : Group Query)
        [.must [.matchNone], .boost (.finite false 1024 0), .must [.matchNone]] = .ok u ∧
      (Query.group u).same (.group u) = true ∧
      (Query.group u).document = .single "bool" (.record
        [("must", .list [Query.matchNone.document, Query.matchNone.document]),
          ("boost", Document.float (.finite false 1024 0))])) ∧
    ∃ f, Group.configure ({} : Group Query)
      [.must [.matchNone], .boost (.infinite true), .must [.matchNone]] = .error f := by
  obtain ⟨hrange, hgroup⟩ := parameters_of_settings
  refine ⟨?_, ?_, ?_⟩
  · obtain ⟨-, horder, hok⟩ := hrange { field := "age" }
      [.boost (.finite false 1024 0), .below (.number (.signed 30)), .below (.number (.signed 40))]
    obtain ⟨hsame, hdocument⟩ := hok _ rfl
    have hbetween := ((horder _ (Reordered.swap (by decide) _)).2 _).mp rfl
    have hcreate : Range.create "age" = .ok { field := "age" } := rfl
    exact ⟨_, rfl, hbetween, hsame (Range.valid_of_create hcreate), hdocument⟩
  · obtain ⟨-, horder, hok⟩ := hgroup {}
      [.boost (.finite false 1024 0), .must [.matchNone], .must [.matchNone]]
    obtain ⟨hsame, hdocument⟩ := hok _ rfl
    have hbetween := ((horder _ (Reordered.swap (by decide) _)).2 _).mp rfl
    have hclauses : ∀ s ∈ [.boost (.finite false 1024 0), .must [.matchNone], .must [.matchNone]],
        ∀ q ∈ Group.Setting.clauses s, Query.Everywhere Query.Checked q := by
      simp [Group.Setting.clauses, Query.everywhere_matchNone_iff, Query.Checked]
    exact ⟨_, hbetween, hsame hclauses (Query.checked_of_created .group), hdocument⟩
  · obtain ⟨-, horder, -⟩ := hgroup {}
      [.boost (.infinite true), .must [.matchNone], .must [.matchNone]]
    exact (horder _ (Reordered.swap (by decide) _)).1.mp ⟨_, rfl⟩

end QueryAlgebra
