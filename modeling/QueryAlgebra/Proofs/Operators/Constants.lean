import QueryAlgebra.Proofs.Operators.Chains

/-!
# Constants as operands

`matchNone` is neutral for `or` and absorbs `and` and `add`; `matchAll` is neutral for `and` and
`add` and absorbs `or`. The laws are equations between queries, and hold from either side: where
the other operand is what comes out, it comes out with its boost and everything else it has.

Two queries that match everything and have different boosts cannot both be neutral. Between them
the order decides: the second one comes out of `and` and `add`, the first one out of `or`.
-/

namespace QueryAlgebra

namespace Query

/-- The first query leaves the second one as it is, from either side. -/
def Neutral (op : Query → Query → Query) (e x : Query) : Prop := op e x = x ∧ op x e = x

/-- The first query comes out whatever the second one is, from either side. -/
def Absorbs (op : Query → Query → Query) (z x : Query) : Prop := op z x = z ∧ op x z = z

theorem neutral_or_matchNone (x : Query) : Neutral or matchNone x :=
  ⟨matchNone_or x, or_matchNone x⟩

theorem absorbs_and_matchNone (x : Query) : Absorbs and matchNone x :=
  ⟨rfl, and_matchNone x⟩

theorem absorbs_add_matchNone (x : Query) : Absorbs add matchNone x := by
  refine ⟨rfl, ?_⟩
  cases x <;> rfl

section MatchAll

variable {x : Query} (h : x.kind ≠ .matchAll) (b : Option Binary64)
include h

theorem neutral_and_matchAll : Neutral and (matchAll b) x :=
  ⟨rfl, and_eq_left_of_matchAll h rfl⟩

theorem neutral_add_matchAll : Neutral add (matchAll b) x := by
  refine ⟨rfl, ?_⟩
  cases x with
  | matchAll c => exact absurd rfl h
  | _ => rfl

theorem absorbs_or_matchAll : Absorbs or (matchAll b) x :=
  ⟨rfl, or_eq_right_of_matchAll h rfl⟩

end MatchAll

/-- No operator has every query that matches everything for a neutral one. -/
theorem exists_not_neutral_matchAll (op : Query → Query → Query) :
    ∃ b x, ¬Neutral op (matchAll b) x := by
  by_contra! h
  have hright : op (matchAll none) (matchAll (some (.finite false 0 0))) =
      matchAll (some (.finite false 0 0)) :=
    (h none (matchAll (some (.finite false 0 0)))).1
  have hleft : op (matchAll none) (matchAll (some (.finite false 0 0))) = matchAll none :=
    (h (some (.finite false 0 0)) (matchAll none)).2
  rw [hright] at hleft
  simp at hleft

/-- The laws of the constants. They hold beside every query, boosts included, except that of two
queries that match everything only one can come out. -/
theorem laws_of_constants (x : Query) (b : Option Binary64) :
    Neutral or matchNone x ∧ Absorbs and matchNone x ∧ Absorbs add matchNone x ∧
      ((matchAll b).and x = x ∧ (matchAll b).add x = x ∧ (matchAll b).or x = matchAll b) ∧
      (x.kind ≠ .matchAll →
        Neutral and (matchAll b) x ∧ Neutral add (matchAll b) x ∧ Absorbs or (matchAll b) x) ∧
      ∀ c, (matchAll c).and (matchAll b) = matchAll b ∧
        (matchAll c).add (matchAll b) = matchAll b ∧
        (matchAll c).or (matchAll b) = matchAll c := by
  refine ⟨neutral_or_matchNone x, absorbs_and_matchNone x, absorbs_add_matchNone x,
    ⟨rfl, rfl, rfl⟩, ?_, ?_⟩
  · intro h
    exact ⟨neutral_and_matchAll h b, neutral_add_matchAll h b, absorbs_or_matchAll h b⟩
  · intro c
    exact ⟨rfl, rfl, rfl⟩

/-- A group with a boost beside a boosted query that matches everything. -/
theorem laws_of_constants_boosted :
    (group { should := [matchNone], boost := some (.finite false 1023 0) }).kind ≠ .matchAll ∧
      (group { should := [matchNone], boost := some (.finite false 1023 0) }).and
          (matchAll (some (.finite false 1024 0))) =
        group { should := [matchNone], boost := some (.finite false 1023 0) } ∧
      (group { should := [matchNone], boost := some (.finite false 1023 0) }).or
          (matchAll (some (.finite false 1024 0))) =
        matchAll (some (.finite false 1024 0)) := by
  have h : (group { should := [matchNone], boost := some (.finite false 1023 0) }).kind ≠
      .matchAll := by
    decide
  obtain ⟨hand, -, hor⟩ := (laws_of_constants _ (some (.finite false 1024 0))).2.2.2.2.1 h
  exact ⟨h, hand.2, hor.2⟩

/-- A boost of two is lost beside a query that matches everything without a boost, and in a
disjunction it replaces that query. -/
theorem boost_lost_beside_matchAll :
    same ((matchAll (some (.finite false 1024 0))).and (matchAll none))
        (matchAll (some (.finite false 1024 0))) = false ∧
      same ((matchAll (some (.finite false 1024 0))).add (matchAll none))
        (matchAll (some (.finite false 1024 0))) = false ∧
      same ((matchAll (some (.finite false 1024 0))).or (matchAll none)) (matchAll none) =
        false := by
  decide

end Query

end QueryAlgebra
