import QueryAlgebra.Proofs.Building.Queries
import QueryAlgebra.Request

/-!
# Documents without `null`

A float that is not finite has no JSON number and is written as `null`, so that a single
unchecked one spoils a request without any error. `Json.NullFree` says that there is no `null`
at any depth. It holds of the document of every query that is built, because everything that
could put one there was checked, and of envelopes and requests around such queries.
-/

namespace QueryAlgebra

namespace Json

variable {ν σ : Type}

mutual

/-- There is no `null` at any depth. -/
def NullFree : Json ν σ → Prop
  | null => False
  | list items => NullFreeItems items
  | record fields => NullFreeFields fields
  | _ => True

/-- `NullFree`, item by item. -/
def NullFreeItems : List (Json ν σ) → Prop
  | [] => True
  | item :: items => NullFree item ∧ NullFreeItems items

/-- `NullFree`, field by field. -/
def NullFreeFields : List (σ × Json ν σ) → Prop
  | [] => True
  | (_, value) :: fields => NullFree value ∧ NullFreeFields fields

end

theorem nullFree_list_iff (items : List (Json ν σ)) :
    NullFree (list items) ↔ ∀ d ∈ items, NullFree d := by
  rw [NullFree]
  induction items with
  | nil => simp [NullFreeItems]
  | cons item items ih => rw [NullFreeItems, ih, List.forall_mem_cons]

theorem nullFree_record_iff (fields : List (σ × Json ν σ)) :
    NullFree (record fields) ↔ ∀ f ∈ fields, NullFree f.2 := by
  rw [NullFree]
  induction fields with
  | nil => simp [NullFreeFields]
  | cons field fields ih => rw [NullFreeFields, ih, List.forall_mem_cons]

end Json

namespace Document

open Json

theorem nullFree_single_iff (key : String) (d : Document) :
    NullFree (single key d) ↔ NullFree d := by
  rw [single, nullFree_record_iff, List.forall_mem_singleton]

theorem nullFree_float_iff (x : Binary64) : NullFree (float x) ↔ x.isFinite = true := by
  rw [float]
  split <;> simp_all [NullFree]

theorem nullFree_integer (n : Int) : NullFree (integer n) := trivial

theorem forall_mem_parameter_iff {α : Type} (key : String) (write : α → Document)
    (o : Option α) :
    (∀ f ∈ parameter key write o, NullFree f.2) ↔ ∀ a ∈ o, NullFree (write a) := by
  cases o <;> simp

theorem forall_mem_bucket_iff (key : String) (ds : List Document) :
    (∀ f ∈ bucket key ds, NullFree f.2) ↔ ∀ d ∈ ds, NullFree d := by
  cases ds with
  | nil => simp [bucket]
  | cons d ds => rw [bucket, List.forall_mem_singleton, nullFree_list_iff]; simp

/-- An allowed boost is written as a number. -/
theorem forall_mem_boost {o : Option Binary64} (h : ∀ b ∈ o, isBoost b = true) :
    ∀ f ∈ parameter "boost" float o, NullFree f.2 := by
  rw [forall_mem_parameter_iff]
  intro b hb
  have hboost := h b hb
  rw [isBoost, Bool.and_eq_true] at hboost
  exact (nullFree_float_iff b).mpr hboost.1

end Document

open Document Json

theorem Value.nullFree_document {v : Value} (h : v.isFinite = true) : NullFree v.document := by
  cases v with
  | number n =>
      cases n with
      | float x => exact (nullFree_float_iff x).mpr h
      | _ => exact nullFree_integer _
  | _ => trivial

theorem Tuning.nullFree_fields {t : Tuning} (h : ∀ b ∈ t.boost, isBoost b = true) :
    ∀ f ∈ t.fields, NullFree f.2 := by
  rw [Tuning.fields, List.forall_mem_append]
  refine ⟨(forall_mem_parameter_iff _ _ _).mpr ?_, forall_mem_boost h⟩
  intro b _
  trivial

theorem Condition.nullFree_document {c : Condition} (h : c.Valid) : NullFree c.document := by
  cases c with
  | term t =>
      obtain ⟨-, hvalue, hboost⟩ := (valid_term_iff t).mp h
      rw [Condition.document, Term.document, nullFree_single_iff, nullFree_single_iff,
        nullFree_record_iff, List.forall_mem_cons]
      exact ⟨Value.nullFree_document hvalue, Tuning.nullFree_fields hboost⟩
  | startsWith t =>
      obtain ⟨-, hboost⟩ := (valid_startsWith_iff t).mp h
      rw [Condition.document, StartsWith.document, nullFree_single_iff, nullFree_single_iff,
        nullFree_record_iff, List.forall_mem_cons]
      exact ⟨trivial, Tuning.nullFree_fields hboost⟩
  | terms t =>
      obtain ⟨-, -, hvalues, -, -, hboost⟩ := (valid_terms_iff t).mp h
      rw [Condition.document, Terms.document, nullFree_single_iff, nullFree_record_iff,
        List.forall_mem_cons, nullFree_list_iff, List.forall_mem_map]
      exact ⟨fun v hv => Value.nullFree_document (hvalues v hv), forall_mem_boost hboost⟩
  | range r =>
      obtain ⟨-, habove, hatLeast, hbelow, hatMost, hboost⟩ := (valid_range_iff r).mp h
      have hbound : ∀ {key : String} {o : Option Value}, (∀ v ∈ o, v.isFinite = true) →
          ∀ f ∈ parameter key Value.document o, NullFree f.2 := by
        intro key o ho
        rw [forall_mem_parameter_iff]
        exact fun v hv => Value.nullFree_document (ho v hv)
      have htext : ∀ {α : Type} {key : String} {write : α → String} {o : Option α},
          ∀ f ∈ parameter key (fun a => .text (write a)) o, NullFree f.2 := by
        intro α key write o
        rw [forall_mem_parameter_iff]
        exact fun _ _ => trivial
      rw [Condition.document, Range.document, nullFree_single_iff, nullFree_single_iff,
        nullFree_record_iff, Range.fields]
      simp only [List.forall_mem_append]
      exact ⟨⟨⟨⟨⟨⟨⟨hbound habove, hbound hatLeast⟩, hbound hbelow⟩, hbound hatMost⟩,
        forall_mem_boost hboost⟩, htext⟩, htext⟩, htext⟩
  | presence p => exact (nullFree_single_iff _ _).mpr ((nullFree_single_iff _ _).mpr trivial)

theorem Query.nullFree_document {q : Query} (h : q.Everywhere Checked) :
    NullFree q.document := by
  induction q with
  | matchAll boost =>
      rw [document_matchAll, nullFree_single_iff, nullFree_record_iff]
      exact forall_mem_boost ((everywhere_matchAll_iff boost).mp h)
  | matchNone => exact (nullFree_single_iff _ _).mpr ((nullFree_record_iff _).mpr (by simp))
  | leaf c => exact Condition.nullFree_document ((everywhere_leaf_iff c).mp h)
  | group g hmust hshould hmustNot hfilter =>
      obtain ⟨hself, hclauses⟩ := (everywhere_group_iff g).mp h
      obtain ⟨hgMust, hgShould, hgMustNot, hgFilter⟩ :=
        (Group.forall_mem_clauses_iff g _).mp hclauses
      have hbucket : ∀ {key : String} {qs : List Query},
          (∀ q ∈ qs, q.Everywhere Checked → NullFree q.document) →
          (∀ q ∈ qs, q.Everywhere Checked) →
          ∀ f ∈ bucket key (qs.map document), NullFree f.2 := by
        intro key qs ih hqs
        rw [forall_mem_bucket_iff, List.forall_mem_map]
        exact fun q hq => ih q hq (hqs q hq)
      rw [document_group, nullFree_single_iff, nullFree_record_iff, Group.fields]
      simp only [List.forall_mem_append]
      refine ⟨⟨⟨⟨⟨hbucket hmust hgMust, hbucket hshould hgShould⟩,
        hbucket hmustNot hgMustNot⟩, hbucket hfilter hgFilter⟩, forall_mem_boost hself⟩, ?_⟩
      exact (forall_mem_parameter_iff _ _ _).mpr fun n _ => trivial

/-- The query and the filter of an envelope, as far as they are there. -/
def Envelope.queries (e : Envelope) : List Query := e.postFilter.toList ++ e.query.toList

theorem Envelope.nullFree_document {e : Envelope}
    (h : ∀ q ∈ e.queries, q.Everywhere Query.Checked) : NullFree e.document := by
  rw [Envelope.queries, List.forall_mem_append] at h
  simp only [Option.mem_toList] at h
  obtain ⟨hfilter, hquery⟩ := h
  have hsort : ∀ d ∈ e.sort.map SortKey.document, NullFree d := by
    rw [List.forall_mem_map]
    intro k _
    exact (nullFree_single_iff _ _).mpr ((nullFree_single_iff _ _).mpr trivial)
  rw [Envelope.document, nullFree_record_iff, List.forall_mem_cons, List.forall_mem_cons,
    List.forall_mem_append, List.forall_mem_append, forall_mem_parameter_iff,
    forall_mem_parameter_iff, forall_mem_bucket_iff]
  exact ⟨nullFree_integer _, nullFree_integer _,
    ⟨fun q hq => Query.nullFree_document (hfilter q hq),
      fun q hq => Query.nullFree_document (hquery q hq)⟩, hsort⟩

theorem Request.nullFree_document {r : Request}
    (h : ∀ q ∈ r.envelope.queries, q.Everywhere Query.Checked) : NullFree r.document := by
  have hattributes : NullFree (.list (r.attributes.map .text) : Document) := by
    rw [nullFree_list_iff, List.forall_mem_map]
    exact fun _ _ => trivial
  rw [Request.document, nullFree_record_iff, List.forall_mem_cons, List.forall_mem_singleton]
  exact ⟨Envelope.nullFree_document h, hattributes⟩

/-- However a query was built, everything in it has passed its check, and neither its document
nor that of an envelope or a request around such queries has a `null` anywhere. -/
theorem checked_and_nullFree_of_built :
    (∀ q : Query, q.Built → q.Everywhere Query.Checked ∧ NullFree q.document) ∧
      (∀ e : Envelope, (∀ q ∈ e.queries, q.Built) → NullFree e.document) ∧
      ∀ r : Request, (∀ q ∈ r.envelope.queries, q.Built) → NullFree r.document := by
  refine ⟨?_, ?_, ?_⟩
  · intro q hq
    have hchecked := Query.checked_of_built hq
    exact ⟨hchecked, Query.nullFree_document hchecked⟩
  · intro e he
    exact Envelope.nullFree_document fun q hq => Query.checked_of_built (he q hq)
  · intro r hr
    exact Request.nullFree_document fun q hq => Query.checked_of_built (hr q hq)

/-- A float is asked for in a group with a boost. -/
theorem checked_and_nullFree_of_built_boosted :
    Query.Built (.group
        { must := [.leaf (.term ⟨"size", .number (.float (.finite false 1023 0)), {}⟩)]
          boost := some (.finite false 1024 0) }) ∧
      NullFree (Request.document
        { envelope := .ofQuery (.group
            { must := [.leaf (.term ⟨"size", .number (.float (.finite false 1023 0)), {}⟩)]
              boost := some (.finite false 1024 0) })
          attributes := ["name"] }) := by
  have hhistory : Query.History Query.Created Query.Extends
      [.group { must := [.leaf (.term ⟨"size", .number (.float (.finite false 1023 0)), {}⟩)]
                boost := some (.finite false 1024 0) },
        .group { must := [.leaf (.term ⟨"size", .number (.float (.finite false 1023 0)), {}⟩)] },
        .group {},
        .leaf (.term ⟨"size", .number (.float (.finite false 1023 0)), {}⟩)] := by
    refine .step (.set (s := .boost (.finite false 1024 0)) List.mem_cons_self
      (List.nil_subset _) rfl) ?_
    refine .step (.set (s := .must [.leaf _]) List.mem_cons_self
      (List.subset_cons_self _ _) rfl) ?_
    exact .given .group
      (.given (.leaf (.term ((Term.create_eq_ok_iff _ _ _).mpr ⟨rfl, rfl, rfl⟩))) .nil)
  have hbuilt : Query.Built _ := ⟨_, hhistory⟩
  refine ⟨hbuilt, checked_and_nullFree_of_built.2.2 _ ?_⟩
  exact List.forall_mem_singleton.mpr hbuilt

end QueryAlgebra
