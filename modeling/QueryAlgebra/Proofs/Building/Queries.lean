import QueryAlgebra.Proofs.Building.Conditions
import QueryAlgebra.Proofs.Operators.Heredity

/-!
# Queries that are built

A query is built by a finite sequence of calls, each of which may use what the earlier ones
gave: constructors, setters that accept what they are given, and operators. The clauses of a
group may be taken out of it as well. `Query.Built` says that there is such a sequence.

Everything that is ever stored in a query passes a check on its way. `Query.Checked` is what
this means for a single query, and in a query that is built it holds everywhere.
-/

namespace QueryAlgebra

/-- The clauses that a setting brings into a group. -/
def Group.Setting.clauses {α : Type} : Group.Setting α → List α
  | .must qs | .should qs | .mustNot qs | .filter qs => qs
  | .boost _ | .minimum _ => []

namespace Query

/-- A constructor gives the query. -/
inductive Created : Query → Prop
  | matchAll : Created (matchAll none)
  | matchNone : Created matchNone
  | leaf {c : Condition} : c.Created → Created (leaf c)
  | group : Created (group {})

/-- One call on earlier queries. A call that fails gives nothing. -/
inductive Extends (earlier : List Query) : Query → Prop
  | boost {boost : Option Binary64} {b : Binary64} {q : Query} :
      matchAll boost ∈ earlier → boosted b = .ok q → Extends earlier q
  | adjust {c d : Condition} :
      leaf c ∈ earlier → c.Adjusts d → Extends earlier (leaf d)
  | set {g k : Group Query} {s : Group.Setting Query} :
      group g ∈ earlier → s.clauses ⊆ earlier → g.set s = .ok k → Extends earlier (group k)
  | clause {g : Group Query} {q : Query} :
      group g ∈ earlier → q ∈ g.clauses → Extends earlier q
  | combine {q : Query} : Combines earlier q → Extends earlier q

/-- The query is the outcome of a finite sequence of calls. -/
def Built (q : Query) : Prop := ∃ earlier, History Created Extends (q :: earlier)

/-- What the checks say of a query, its clauses left aside. -/
def Checked : Query → Prop
  | matchAll boost => ∀ b ∈ boost, isBoost b = true
  | matchNone => True
  | leaf c => c.Valid
  | group g => ∀ b ∈ g.boost, isBoost b = true

/-- Operators take boosts over or leave them out; they never make one. -/
theorem stable_checked : Stable Checked where
  matchAll := by simp [Checked]
  matchNone := trivial
  bare _ hboost _ := by simp [Checked, hboost]
  nested _ _ := by simp [Checked]
  and {g h} hg _ := by
    obtain ⟨-, -, hboost⟩ := Group.and_frame g h
    rw [Checked, hboost]
    exact hg
  andClause _ hg := hg
  absorb q _ hg := by
    rw [Group.absorb_eq_alternatives]
    exact hg
  append hg _ := hg
  addClause _ hg := hg

theorem checked_of_created {q : Query} (h : Created q) : Everywhere Checked q := by
  cases h with
  | matchAll => exact (everywhere_matchAll_iff none).mpr stable_checked.matchAll
  | matchNone => exact everywhere_matchNone_iff.mpr stable_checked.matchNone
  | leaf hc => exact (everywhere_leaf_iff _).mpr (Condition.valid_of_created hc)
  | group =>
      refine (everywhere_group_iff _).mpr ⟨by simp [Checked], ?_⟩
      simp [Group.clauses]

/-- A setting that is accepted brings checked clauses into a checked group. -/
theorem checked_of_set {g k : Group Query} {s : Group.Setting Query}
    (hg : Everywhere Checked (group g)) (hs : ∀ q ∈ s.clauses, Everywhere Checked q)
    (h : g.set s = .ok k) : Everywhere Checked (group k) := by
  obtain ⟨hself, hclauses⟩ := (everywhere_group_iff g).mp hg
  obtain ⟨hmust, hshould, hmustNot, hfilter⟩ := (Group.forall_mem_clauses_iff g _).mp hclauses
  rw [everywhere_group_iff, Group.forall_mem_clauses_iff]
  cases s with
  | must qs =>
      obtain rfl := Except.ok.inj h
      exact ⟨hself, List.forall_mem_append.mpr ⟨hmust, hs⟩, hshould, hmustNot, hfilter⟩
  | should qs =>
      obtain rfl := Except.ok.inj h
      exact ⟨hself, hmust, List.forall_mem_append.mpr ⟨hshould, hs⟩, hmustNot, hfilter⟩
  | mustNot qs =>
      obtain rfl := Except.ok.inj h
      exact ⟨hself, hmust, hshould, List.forall_mem_append.mpr ⟨hmustNot, hs⟩, hfilter⟩
  | filter qs =>
      obtain rfl := Except.ok.inj h
      exact ⟨hself, hmust, hshould, hmustNot, List.forall_mem_append.mpr ⟨hfilter, hs⟩⟩
  | boost b =>
      obtain ⟨hb, rfl⟩ := (map_checkBoost_eq_ok_iff _ _ _).mp h
      exact ⟨by simpa [Checked] using hb, hmust, hshould, hmustNot, hfilter⟩
  | minimum n =>
      obtain rfl := Except.ok.inj h
      exact ⟨hself, hmust, hshould, hmustNot, hfilter⟩

theorem checked_of_extends {earlier : List Query} {q : Query}
    (h : ∀ r ∈ earlier, Everywhere Checked r) (hq : Extends earlier q) :
    Everywhere Checked q := by
  cases hq with
  | boost _ hboosted =>
      obtain ⟨hb, rfl⟩ := (map_checkBoost_eq_ok_iff _ _ _).mp hboosted
      exact (everywhere_matchAll_iff _).mpr (by simpa [Checked] using hb)
  | adjust hc hadjusts =>
      have hvalid := (everywhere_leaf_iff _).mp (h _ hc)
      exact (everywhere_leaf_iff _).mpr (Condition.valid_of_adjusts hadjusts hvalid)
  | set hg hs hset => exact checked_of_set (h _ hg) (fun r hr => h r (hs hr)) hset
  | clause hg hq => exact ((everywhere_group_iff _).mp (h _ hg)).2 _ hq
  | combine hq => exact stable_checked.everywhere_of_combines h hq

theorem checked_of_built {q : Query} (h : Built q) : Everywhere Checked q := by
  obtain ⟨_, h⟩ := h
  exact h.forall_mem (fun _ => checked_of_created) (fun _ _ => checked_of_extends) q
    List.mem_cons_self

end Query

end QueryAlgebra
