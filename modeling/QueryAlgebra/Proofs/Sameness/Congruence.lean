import QueryAlgebra.Proofs.Operators.Relabelling
import QueryAlgebra.Proofs.Sameness.Reduction
import QueryAlgebra.Proofs.Wire.Faithful

/-!
# Sameness is a congruence

A query reduces to a query, `Query.reduced`, with every condition and every boost reduced. Two
queries that passed the checks are the same exactly when they reduce to one query,
`Query.same_iff_reduced`. This makes sameness an equivalence on them. It is a congruence for the
operators, since a reduction is a relabelling and operators do not look at conditions or boosts.

What is sent for two queries that are the same are equal documents: to forget the form of
integers keeps two values the same.
-/

namespace QueryAlgebra

section Map

variable {α β : Type} {s : β → β → Bool} {t : α → α → Bool} {f : α → β}

theorem sameOption_map_of_sameOption {o p : Option α}
    (hf : ∀ a b, t a b = true → s (f a) (f b) = true) (h : sameOption t o p = true) :
    sameOption s (o.map f) (p.map f) = true := by
  cases o with
  | none =>
      cases p with
      | none => rfl
      | some b => exact absurd h Bool.false_ne_true
  | some a =>
      cases p with
      | none => exact absurd h Bool.false_ne_true
      | some b => exact hf a b h

theorem sameList_map_of_sameList {as bs : List α}
    (hf : ∀ a ∈ as, ∀ b, t a b = true → s (f a) (f b) = true) (h : sameList t as bs = true) :
    sameList s (as.map f) (bs.map f) = true := by
  induction as generalizing bs with
  | nil =>
      cases bs with
      | nil => rfl
      | cons b bs => exact absurd h Bool.false_ne_true
  | cons a as ih =>
      obtain ⟨ha, has⟩ := List.forall_mem_cons.mp hf
      cases bs with
      | nil => exact absurd h Bool.false_ne_true
      | cons b bs =>
          rw [sameList_cons, Bool.and_eq_true] at h
          rw [List.map_cons, List.map_cons, sameList_cons, ha b h.1, ih has h.2]
          rfl

end Map

namespace Value

theorem integer?_eq_of_same {v w : Value} (h : v.same w = true) : v.integer? = w.integer? := by
  cases v with
  | number m =>
      cases w with
      | number n =>
          cases m <;> cases n <;> simp_all [same, Numeric.same, integer?, Numeric.integer?]
      | _ => exact absurd h Bool.false_ne_true
  | timestamp t =>
      cases w with
      | timestamp u => simp_all [same, integer?]
      | _ => exact absurd h Bool.false_ne_true
  | _ => cases w <;> first | rfl | exact absurd h Bool.false_ne_true

/-- Values that are the same hold one integer or none, so that its form can be forgotten. -/
theorem same_canonical {v w : Value} (h : v.same w = true) :
    v.canonical.same w.canonical = true := by
  have hinteger := integer?_eq_of_same h
  cases hv : v.integer? with
  | none =>
      rw [canonical_of_integer?_eq_none hv, canonical_of_integer?_eq_none (hinteger ▸ hv)]
      exact h
  | some n =>
      rw [same_canonical_of_integer? hv (hinteger ▸ hv)]
      exact beq_self_eq_true n

end Value

theorem Condition.same_canonical {c d : Condition} (h : c.same d = true) :
    c.canonical.same d.canonical = true := by
  have hbound : ∀ {o p : Option Value}, sameOption Value.same o p = true →
      sameOption Value.same (o.map Value.canonical) (p.map Value.canonical) = true :=
    fun ho => sameOption_map_of_sameOption (fun _ _ => Value.same_canonical) ho
  cases c with
  | term s =>
      cases d with
      | term t =>
          simp only [canonical, same, Term.same, Bool.and_eq_true] at h ⊢
          exact ⟨⟨h.1.1, Value.same_canonical h.1.2⟩, h.2⟩
      | _ => exact absurd h Bool.false_ne_true
  | startsWith s =>
      cases d with
      | startsWith t => exact h
      | _ => exact absurd h Bool.false_ne_true
  | terms s =>
      cases d with
      | terms t =>
          simp only [canonical, same, Terms.same, Bool.and_eq_true] at h ⊢
          obtain ⟨⟨hfield, hvalues⟩, hboost⟩ := h
          exact ⟨⟨hfield, sameList_map_of_sameList (fun _ _ _ => Value.same_canonical) hvalues⟩,
            hboost⟩
      | _ => exact absurd h Bool.false_ne_true
  | range r =>
      cases d with
      | range s =>
          simp only [canonical, same, Range.same, Bool.and_eq_true, and_assoc] at h ⊢
          obtain ⟨hfield, habove, hatLeast, hbelow, hatMost, hrest⟩ := h
          exact ⟨hfield, hbound habove, hbound hatLeast, hbound hbelow, hbound hatMost, hrest⟩
      | _ => exact absurd h Bool.false_ne_true
  | presence p =>
      cases d with
      | presence q => exact h
      | _ => exact absurd h Bool.false_ne_true

namespace Query

/-- The query without the sign of a zero in its values and its boosts. -/
def reduced : Query → Query := relabel Binary64.reduced Condition.reduced

@[simp] theorem reduced_matchAll (b : Option Binary64) :
    (matchAll b).reduced = matchAll (b.map Binary64.reduced) := rfl

@[simp] theorem reduced_matchNone : matchNone.reduced = matchNone := rfl

@[simp] theorem reduced_leaf (c : Condition) : (leaf c).reduced = leaf c.reduced := rfl

@[simp] theorem reduced_group (g : Group Query) :
    (group g).reduced = group (g.relabel Binary64.reduced Condition.reduced) :=
  relabel_group _ _ g

theorem comparesBy_reduced : ComparesBy same reduced := by
  intro p q
  induction p generalizing q with
  | matchAll b =>
      cases q with
      | matchAll c =>
          have h := Binary64.comparesBy_reduced.option b c
          simpa [same] using h
      | _ => simp [same]
  | matchNone => cases q <;> simp [same]
  | leaf c =>
      cases q with
      | leaf d =>
          have h := Condition.comparesBy_reduced c d
          simpa [same] using h
      | _ => simp [same]
  | group g hmust hshould hmustNot hfilter =>
      cases q with
      | group h =>
          have hboost := Binary64.comparesBy_reduced.option g.boost h.boost
          have hreduced : reduced (group g) = reduced (group h) ↔
              g.must.map reduced = h.must.map reduced ∧
                g.should.map reduced = h.should.map reduced ∧
                g.mustNot.map reduced = h.mustNot.map reduced ∧
                g.filter.map reduced = h.filter.map reduced ∧
                g.boost.map Binary64.reduced = h.boost.map Binary64.reduced ∧
                g.minimum = h.minimum := by
            simp [Group.relabel, Group.map, reduced]
          simp only [same_group, Bool.and_eq_true, beq_iff_eq]
          rw [hreduced, sameList_iff_of_forall hmust, sameList_iff_of_forall hshould,
            sameList_iff_of_forall hmustNot, sameList_iff_of_forall hfilter, hboost]
          tauto
      | _ => simp [same]

/-- What has passed the checks is the same as itself. -/
theorem same_self {q : Query} (h : q.Everywhere Checked) : q.same q = true := by
  induction q with
  | matchAll b =>
      exact Binary64.sameOption_self_of_isBoost ((everywhere_matchAll_iff b).mp h)
  | matchNone => rfl
  | leaf c => exact Condition.same_self ((everywhere_leaf_iff c).mp h)
  | group g hmust hshould hmustNot hfilter =>
      obtain ⟨hchecked, hclauses⟩ := (everywhere_group_iff g).mp h
      obtain ⟨hgMust, hgShould, hgMustNot, hgFilter⟩ :=
        (Group.forall_mem_clauses_iff g _).mp hclauses
      rw [same_group, sameList_self fun q hq => hmust q hq (hgMust q hq),
        sameList_self fun q hq => hshould q hq (hgShould q hq),
        sameList_self fun q hq => hmustNot q hq (hgMustNot q hq),
        sameList_self fun q hq => hfilter q hq (hgFilter q hq),
        Binary64.sameOption_self_of_isBoost hchecked, beq_self_eq_true]
      rfl

/-- Queries that passed the checks are the same when they reduce to one query. -/
theorem same_iff_reduced {p q : Query} (hp : p.Everywhere Checked)
    (hq : q.Everywhere Checked) : p.same q = true ↔ p.reduced = q.reduced := by
  rw [comparesBy_reduced p q]
  exact and_iff_right ⟨same_self hp, same_self hq⟩

theorem same_canonical {p q : Query} (h : p.same q = true) :
    p.canonical.same q.canonical = true := by
  induction p generalizing q with
  | matchAll b =>
      cases q with
      | matchAll c => exact h
      | _ => exact absurd h Bool.false_ne_true
  | matchNone =>
      cases q with
      | matchNone => rfl
      | _ => exact absurd h Bool.false_ne_true
  | leaf c =>
      cases q with
      | leaf d => exact Condition.same_canonical h
      | _ => exact absurd h Bool.false_ne_true
  | group g hmust hshould hmustNot hfilter =>
      cases q with
      | group k =>
          simp only [canonical_group, same_group, Bool.and_eq_true] at h ⊢
          obtain ⟨⟨⟨⟨⟨hgMust, hgShould⟩, hgMustNot⟩, hgFilter⟩, hboost⟩, hminimum⟩ := h
          exact ⟨⟨⟨⟨⟨sameList_map_of_sameList (fun q hq _ => hmust q hq) hgMust,
            sameList_map_of_sameList (fun q hq _ => hshould q hq) hgShould⟩,
            sameList_map_of_sameList (fun q hq _ => hmustNot q hq) hgMustNot⟩,
            sameList_map_of_sameList (fun q hq _ => hfilter q hq) hgFilter⟩, hboost⟩, hminimum⟩
      | _ => exact absurd h Bool.false_ne_true

/-- A group is the same as groups only, and these agree in what the operators look at. -/
theorem group_of_same {g : Group Query} {q : Query} (h : (group g).same q = true) :
    ∃ k : Group Query, q = group k ∧ g.threshold = k.threshold ∧
      g.isOptional = k.isOptional := by
  obtain ⟨-, hreduced⟩ := (comparesBy_reduced _ _).mp h
  cases q with
  | group k =>
      rw [reduced_group, reduced_group, group.injEq] at hreduced
      refine ⟨k, rfl, ?_, ?_⟩
      · rw [← Group.threshold_relabel, hreduced, Group.threshold_relabel]
      · rw [← Group.isOptional_relabel, hreduced, Group.isOptional_relabel]
  | _ => simp at hreduced

/-- An operator that commutes with the reduction, and that keeps to what passes the checks, gives
the same for operands that are the same. -/
theorem same_of_operands (op : Query → Query → Query)
    (hchecked : ∀ {a b : Query}, a.Everywhere Checked → b.Everywhere Checked →
      (op a b).Everywhere Checked)
    (hreduced : ∀ a b, (op a b).reduced = op a.reduced b.reduced) {a a' b b' : Query}
    (ha : a.Everywhere Checked) (ha' : a'.Everywhere Checked) (hb : b.Everywhere Checked)
    (hb' : b'.Everywhere Checked) (hsame : a.same a' = true) (hsame' : b.same b' = true) :
    (op a b).same (op a' b') = true := by
  have hleft := (same_iff_reduced ha ha').mp hsame
  have hright := (same_iff_reduced hb hb').mp hsame'
  rw [same_iff_reduced (hchecked ha hb) (hchecked ha' hb'), hreduced, hreduced, hleft, hright]

theorem equivalence_same :
    Equivalence fun p q : { q : Query // q.Built } => p.val.same q.val = true := by
  have h : ∀ p q : { q : Query // q.Built },
      p.val.same q.val = true ↔ p.val.reduced = q.val.reduced :=
    fun p q => same_iff_reduced (checked_of_built p.property) (checked_of_built q.property)
  constructor
  · exact fun p => (h p p).mpr rfl
  · exact fun hpq => (h _ _).mpr ((h _ _).mp hpq).symm
  · exact fun hpq hqr => (h _ _).mpr (((h _ _).mp hpq).trans ((h _ _).mp hqr))

/-- Sameness of the queries that are built is an equivalence, and nothing tells two of them that
are the same apart: neither the operators, nor the shape and the threshold of a group, nor what is
sent. -/
theorem congruence_of_sameness :
    (Equivalence fun p q : { q : Query // q.Built } => p.val.same q.val = true) ∧
      ∀ a a' b b' : Query, a.Built → a'.Built → b.Built → b'.Built →
        a.same a' = true → b.same b' = true →
          (a.and b).same (a'.and b') = true ∧ (a.or b).same (a'.or b') = true ∧
            (a.add b).same (a'.add b') = true ∧ a.negate.same a'.negate = true ∧
            (∀ g, a = group g → ∃ k : Group Query, a' = group k ∧ g.threshold = k.threshold ∧
              g.isOptional = k.isOptional) ∧
            Document.equal a.document a'.document = true := by
  refine ⟨equivalence_same, ?_⟩
  intro a a' b b' hbuiltA hbuiltA' hbuiltB hbuiltB' hsame hsame'
  have ha := checked_of_built hbuiltA
  have ha' := checked_of_built hbuiltA'
  have hb := checked_of_built hbuiltB
  have hb' := checked_of_built hbuiltB'
  refine ⟨?_, ?_, ?_, ?_, ?_, ?_⟩
  · exact same_of_operands and stable_checked.everywhere_and (relabel_and _ _) ha ha' hb hb' hsame
      hsame'
  · exact same_of_operands or stable_checked.everywhere_or (relabel_or _ _) ha ha' hb hb' hsame
      hsame'
  · exact same_of_operands add stable_checked.everywhere_add (relabel_add _ _) ha ha' hb hb' hsame
      hsame'
  · exact same_of_operands (fun a _ => a.negate)
      (fun ha _ => stable_checked.everywhere_negate ha) (fun a _ => relabel_negate _ _ a) ha ha' hb
      hb' hsame hsame'
  · rintro g rfl
    exact group_of_same hsame
  · rw [equal_document ha ha']
    exact same_canonical hsame

/-- Zero is equal to zero with either sign, in a query as among numbers. -/
theorem congruence_of_sameness_zeros :
    Built (negate (leaf (.term ⟨"price", .number (.float (.zero false)), {}⟩))) ∧
      Built (negate (leaf (.term ⟨"price", .number (.float (.zero true)), {}⟩))) ∧
      same (negate (leaf (.term ⟨"price", .number (.float (.zero false)), {}⟩)))
        (negate (leaf (.term ⟨"price", .number (.float (.zero true)), {}⟩))) = true ∧
      same (negate (negate (leaf (.term ⟨"price", .number (.float (.zero false)), {}⟩))))
        (negate (negate (leaf (.term ⟨"price", .number (.float (.zero true)), {}⟩)))) =
          true ∧
      Document.equal
        (negate (leaf (.term ⟨"price", .number (.float (.zero false)), {}⟩))).document
        (negate (leaf (.term ⟨"price", .number (.float (.zero true)), {}⟩))).document =
          true := by
  have hbuilt : ∀ negative : Bool,
      Built (negate (leaf (.term ⟨"price", .number (.float (.zero negative)), {}⟩))) := by
    intro negative
    have hprice : Term.create "price" (.number (.float (.zero negative))) =
        .ok ⟨"price", .number (.float (.zero negative)), {}⟩ :=
      (Term.create_eq_ok_iff _ _ _).mpr ⟨rfl, rfl, rfl⟩
    exact ⟨_, .step (.combine (.negate List.mem_cons_self))
      (.given (.leaf (.term hprice)) .nil)⟩
  have hp := hbuilt false
  have hq := hbuilt true
  have hsame : same (negate (leaf (.term ⟨"price", .number (.float (.zero false)), {}⟩)))
      (negate (leaf (.term ⟨"price", .number (.float (.zero true)), {}⟩))) = true := by
    decide
  obtain ⟨-, -, -, hnegate, -, hequal⟩ :=
    congruence_of_sameness.2 _ _ _ _ hp hq hp hq hsame hsame
  exact ⟨hp, hq, hsame, hnegate, hequal⟩

end Query

end QueryAlgebra
