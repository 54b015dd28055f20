import QueryAlgebra.Proofs.Building.Queries
import QueryAlgebra.Proofs.Wire.Integers

/-!
# Different queries, different documents

Field names are arbitrary texts and stand as keys next to fixed ones, and whatever is unset or
empty is left out of a document. Nothing is lost by it: two queries that are built are sent as
equal documents exactly when they are the same up to the form of integers, which
`Query.canonical` forgets.

The documents are compared from the inside out. Every record of parameters is compared slot by
slot, a condition by its kind and its record, and a query by induction.
-/

namespace QueryAlgebra

open Document

theorem Value.sameOption_equal_document {o p : Option Value}
    (ho : ∀ v ∈ o, v.isFinite = true) (hp : ∀ v ∈ p, v.isFinite = true) :
    sameOption equal (o.map document) (p.map document) =
      sameOption same (o.map canonical) (p.map canonical) :=
  sameOption_map_congr fun v hv w hw => equal_document (ho v hv) (hp w hw)

theorem Value.equal_list_document {vs ws : List Value} (hvs : ∀ v ∈ vs, v.isFinite = true)
    (hws : ∀ w ∈ ws, w.isFinite = true) :
    equal (.list (vs.map document)) (.list (ws.map document)) =
      sameList same (vs.map canonical) (ws.map canonical) := by
  rw [equal_list]
  exact sameList_map_congr fun v hv w hw => equal_document (hvs v hv) (hws w hw)

/-- The condition with every integer value reduced to what it is as an integer. -/
def Condition.canonical : Condition → Condition
  | term t => .term { t with value := t.value.canonical }
  | startsWith t => .startsWith t
  | terms t => .terms { t with values := t.values.map Value.canonical }
  | range r => .range
    { r with
      above := r.above.map Value.canonical
      atLeast := r.atLeast.map Value.canonical
      below := r.below.map Value.canonical
      atMost := r.atMost.map Value.canonical }
  | presence p => .presence p

theorem Tuning.equal_fields {s t : Tuning} (hs : ∀ b ∈ s.boost, isBoost b = true)
    (ht : ∀ b ∈ t.boost, isBoost b = true) (d e : Document) :
    equal (.record (("value", d) :: s.fields)) (.record (("value", e) :: t.fields)) =
      (equal d e && s.same t) := by
  rw [equal_record_of_slots
    [("value", some d, some e),
      ("case_insensitive", s.caseInsensitive.map .bool, t.caseInsensitive.map .bool),
      ("boost", s.boost.map float, t.boost.map float)]
    (by simp) (by simp [Tuning.fields]) (by simp [Tuning.fields])]
  simp only [List.all_cons, List.all_nil, sameOption_some, sameOption_equal_boost hs ht,
    sameOption_equal_map equal_bool, Tuning.same, Bool.and_true]
  rw [Bool.and_comm (sameOption _ _ _)]

theorem Range.equal_fields {r s : Range} (hr : Condition.Valid (.range r))
    (hs : Condition.Valid (.range s)) :
    (r.field == s.field && equal (.record r.fields) (.record s.fields)) =
      (Condition.range r).canonical.same (Condition.range s).canonical := by
  obtain ⟨-, hrAbove, hrAtLeast, hrBelow, hrAtMost, hrBoost⟩ :=
    (Condition.valid_range_iff r).mp hr
  obtain ⟨-, hsAbove, hsAtLeast, hsBelow, hsAtMost, hsBoost⟩ :=
    (Condition.valid_range_iff s).mp hs
  have hrelation : ∀ a b : Range.Relation, equal (.text a.name) (.text b.name) = (a == b) := by
    intro a b
    rw [equal_text, Bool.eq_iff_iff, beq_iff_eq, beq_iff_eq]
    exact Range.Relation.name_injective.eq_iff
  rw [equal_record_of_slots
    [("gt", r.above.map Value.document, s.above.map Value.document),
      ("gte", r.atLeast.map Value.document, s.atLeast.map Value.document),
      ("lt", r.below.map Value.document, s.below.map Value.document),
      ("lte", r.atMost.map Value.document, s.atMost.map Value.document),
      ("boost", r.boost.map float, s.boost.map float),
      ("format", r.format.map .text, s.format.map .text),
      ("relation", r.relation.map fun a => .text a.name, s.relation.map fun a => .text a.name),
      ("time_zone", r.timeZone.map .text, s.timeZone.map .text)]
    (by simp) (by simp [Range.fields]) (by simp [Range.fields])]
  simp only [List.all_cons, List.all_nil, Value.sameOption_equal_document hrAbove hsAbove,
    Value.sameOption_equal_document hrAtLeast hsAtLeast,
    Value.sameOption_equal_document hrBelow hsBelow,
    Value.sameOption_equal_document hrAtMost hsAtMost, sameOption_equal_boost hrBoost hsBoost,
    sameOption_equal_map equal_text, sameOption_equal_map hrelation, Condition.canonical,
    Condition.same, Range.same, Bool.and_true, Bool.and_assoc]

theorem Terms.equal_fields {s t : Terms} (hs : Condition.Valid (.terms s))
    (ht : Condition.Valid (.terms t)) :
    equal
        (.record ((s.field, .list (s.values.map Value.document)) ::
          parameter reserved float s.boost))
        (.record ((t.field, .list (t.values.map Value.document)) ::
          parameter reserved float t.boost)) =
      (Condition.terms s).canonical.same (Condition.terms t).canonical := by
  obtain ⟨-, hsReserved, hsValues, -, -, hsBoost⟩ := (Condition.valid_terms_iff s).mp hs
  obtain ⟨-, htReserved, htValues, -, -, htBoost⟩ := (Condition.valid_terms_iff t).mp ht
  rw [Condition.canonical, Condition.canonical, Condition.same, Terms.same]
  by_cases hfield : s.field = t.field
  · rw [equal_record_of_slots
      [(s.field, some (.list (s.values.map Value.document)),
          some (.list (t.values.map Value.document))),
        (reserved, s.boost.map float, t.boost.map float)]
      (by simp [hsReserved]) (by simp) (by simp [hfield])]
    simp [sameOption_equal_boost hsBoost htBoost, Value.equal_list_document hsValues htValues,
      hfield]
  · -- both fields are keys of their own then, and neither has a value on the other side
    rw [equal_record_of_slots
      [(s.field, some (.list (s.values.map Value.document)), none),
        (t.field, none, some (.list (t.values.map Value.document))),
        (reserved, s.boost.map float, t.boost.map float)]
      (by simp [hsReserved, htReserved, hfield]) (by simp) (by simp)]
    simp [hfield, sameOption]

theorem Group.equal_fields {g h : Group Document} (hg : ∀ b ∈ g.boost, isBoost b = true)
    (hh : ∀ b ∈ h.boost, isBoost b = true) :
    equal (.record g.fields) (.record h.fields) =
      (sameList equal g.must h.must && sameList equal g.should h.should &&
        sameList equal g.mustNot h.mustNot && sameList equal g.filter h.filter &&
        sameOption Binary64.same g.boost h.boost && g.minimum == h.minimum) := by
  have hcount : ∀ m n : Nat, equal (integer m) (integer n) = (m == n) := by
    intro m n
    rw [equal_integer, Bool.eq_iff_iff, beq_iff_eq, beq_iff_eq, Int.ofNat_inj]
  rw [equal_record_of_slots
    [("must", listed g.must, listed h.must), ("should", listed g.should, listed h.should),
      ("must_not", listed g.mustNot, listed h.mustNot),
      ("filter", listed g.filter, listed h.filter),
      ("boost", g.boost.map float, h.boost.map float),
      ("minimum_should_match", g.minimum.map fun n : Nat => .integer n,
        h.minimum.map fun n : Nat => .integer n)]
    (by simp) (by simp [Group.fields, parameter_bind_some])
    (by simp [Group.fields, parameter_bind_some])]
  simp only [List.all_cons, List.all_nil, sameOption_equal_listed,
    sameOption_equal_boost hg hh, sameOption_equal_map hcount, Bool.and_true, Bool.and_assoc]

theorem Condition.document_eq_single (c : Condition) :
    ∃ d, c.document = single c.kind.name d := by
  cases c <;> exact ⟨_, rfl⟩

theorem Query.document_eq_single (q : Query) : ∃ d, q.document = single q.kind.name d := by
  cases q with
  | leaf c => exact c.document_eq_single
  | group g => exact ⟨_, document_group g⟩
  | _ => exact ⟨_, rfl⟩

/-- Every kind has a name of its own on the wire. -/
theorem Query.equal_document_of_kind_ne {p q : Query} (h : p.kind ≠ q.kind) :
    equal p.document q.document = false := by
  obtain ⟨d, hp⟩ := p.document_eq_single
  obtain ⟨e, hq⟩ := q.document_eq_single
  have hname : p.kind.name ≠ q.kind.name := QueryKind.name_injective.ne h
  rw [hp, hq, equal_single, beq_false_of_ne hname, Bool.false_and]

theorem Condition.equal_document {c d : Condition} (hc : c.Valid) (hd : d.Valid) :
    equal c.document d.document = c.canonical.same d.canonical := by
  have hother : (Query.leaf c).kind ≠ (Query.leaf d).kind →
      equal c.document d.document = false := Query.equal_document_of_kind_ne
  cases c with
  | term s =>
      cases d with
      | term t =>
          obtain ⟨-, hsValue, hsBoost⟩ := (valid_term_iff s).mp hc
          obtain ⟨-, htValue, htBoost⟩ := (valid_term_iff t).mp hd
          rw [document, document, Term.document, Term.document, equal_single, equal_single,
            Tuning.equal_fields hsBoost htBoost, Value.equal_document hsValue htValue,
            beq_self_eq_true, Bool.true_and, ← Bool.and_assoc]
          rfl
      | _ => exact hother (by simp [Query.kind, kind])
  | startsWith s =>
      cases d with
      | startsWith t =>
          obtain ⟨-, hsBoost⟩ := (valid_startsWith_iff s).mp hc
          obtain ⟨-, htBoost⟩ := (valid_startsWith_iff t).mp hd
          rw [document, document, StartsWith.document, StartsWith.document, equal_single,
            equal_single, Tuning.equal_fields hsBoost htBoost, equal_text, beq_self_eq_true,
            Bool.true_and, ← Bool.and_assoc]
          rfl
      | _ => exact hother (by simp [Query.kind, kind])
  | terms s =>
      cases d with
      | terms t =>
          rw [document, document, Terms.document, Terms.document, equal_single,
            Terms.equal_fields hc hd, beq_self_eq_true, Bool.true_and]
      | _ => exact hother (by simp [Query.kind, kind])
  | range r =>
      cases d with
      | range s =>
          rw [document, document, Range.document, Range.document, equal_single, equal_single,
            Range.equal_fields hc hd, beq_self_eq_true, Bool.true_and]
      | _ => exact hother (by simp [Query.kind, kind])
  | presence p =>
      cases d with
      | presence q =>
          rw [document, document, Presence.document, Presence.document, equal_single,
            equal_single, equal_text, beq_self_eq_true, beq_self_eq_true, Bool.true_and,
            Bool.true_and, Bool.eq_iff_iff, beq_iff_eq]
          cases p
          cases q
          simp [canonical, same]
      | _ => exact hother (by simp [Query.kind, kind])

namespace Query

/-- The query with every integer value reduced to what it is as an integer. -/
def canonical : Query → Query := fold matchAll matchNone (fun c => leaf c.canonical) group

theorem canonical_group (g : Group Query) : canonical (group g) = group (g.map canonical) :=
  fold_group _ _ _ _ g

theorem same_group (g h : Group Query) :
    same (group g) (group h) =
      (sameList same g.must h.must && sameList same g.should h.should &&
        sameList same g.mustNot h.mustNot && sameList same g.filter h.filter &&
        sameOption Binary64.same g.boost h.boost && g.minimum == h.minimum) := by
  simp only [← sameClauses_eq_sameList]
  rw [same]

theorem equal_document {p q : Query} (hp : p.Everywhere Checked) (hq : q.Everywhere Checked) :
    equal p.document q.document = p.canonical.same q.canonical := by
  induction p generalizing q with
  | matchAll boost =>
      cases q with
      | matchAll other =>
          have hboost := (everywhere_matchAll_iff boost).mp hp
          have hother := (everywhere_matchAll_iff other).mp hq
          rw [document_matchAll, document_matchAll, equal_single, beq_self_eq_true,
            Bool.true_and, equal_record_of_slots
              [("boost", boost.map float, other.map float)] (by simp) (by simp) (by simp),
            List.all_cons, List.all_nil, Bool.and_true, sameOption_equal_boost hboost hother]
          rfl
      | _ => exact equal_document_of_kind_ne (by simp [kind])
  | matchNone =>
      cases q with
      | matchNone => rfl
      | _ => exact equal_document_of_kind_ne (by simp [kind])
  | leaf c =>
      cases q with
      | leaf d =>
          exact Condition.equal_document ((everywhere_leaf_iff c).mp hp)
            ((everywhere_leaf_iff d).mp hq)
      | _ => exact equal_document_of_kind_ne (by simp [kind])
  | group g hmust hshould hmustNot hfilter =>
      cases q with
      | group h =>
          obtain ⟨hgSelf, hgClauses⟩ := (everywhere_group_iff g).mp hp
          obtain ⟨hhSelf, hhClauses⟩ := (everywhere_group_iff h).mp hq
          obtain ⟨hgMust, hgShould, hgMustNot, hgFilter⟩ :=
            (Group.forall_mem_clauses_iff g _).mp hgClauses
          obtain ⟨hhMust, hhShould, hhMustNot, hhFilter⟩ :=
            (Group.forall_mem_clauses_iff h _).mp hhClauses
          rw [document_group, document_group, equal_single, beq_self_eq_true, Bool.true_and,
            Group.equal_fields (g := g.map document) (h := h.map document) hgSelf hhSelf,
            canonical_group, canonical_group, same_group]
          simp only [Group.map]
          rw [sameList_map_congr fun p hp q hq => hmust p hp (hgMust p hp) (hhMust q hq),
            sameList_map_congr fun p hp q hq => hshould p hp (hgShould p hp) (hhShould q hq),
            sameList_map_congr fun p hp q hq =>
              hmustNot p hp (hgMustNot p hp) (hhMustNot q hq),
            sameList_map_congr fun p hp q hq => hfilter p hp (hgFilter p hp) (hhFilter q hq)]
      | _ => exact equal_document_of_kind_ne (by simp [kind])

/-- Serialization is faithful: however two queries were built, their documents are equal exactly
when the queries are the same up to the form of integers. -/
theorem equal_document_iff_of_built {p q : Query} (hp : p.Built) (hq : q.Built) :
    equal p.document q.document = true ↔ p.canonical.same q.canonical = true := by
  rw [equal_document (checked_of_built hp) (checked_of_built hq)]

/-- A timestamp is sent as the number of its milliseconds. -/
theorem equal_document_iff_of_built_milliseconds :
    Built (negate (leaf (.term ⟨"created", .timestamp ⟨1000⟩, {}⟩))) ∧
      Built (negate (leaf (.term ⟨"created", .number (.unsigned 1000), {}⟩))) ∧
      equal (negate (leaf (.term ⟨"created", .timestamp ⟨1000⟩, {}⟩))).document
        (negate (leaf (.term ⟨"created", .number (.unsigned 1000), {}⟩))).document = true := by
  have hbuilt : ∀ v : Value, v.isFinite = true →
      Built (negate (leaf (.term ⟨"created", v, {}⟩))) := by
    intro v hv
    have hcreated : Term.create "created" v = .ok ⟨"created", v, {}⟩ :=
      (Term.create_eq_ok_iff _ _ _).mpr ⟨rfl, hv, rfl⟩
    exact ⟨_, .step (.combine (.negate List.mem_cons_self))
      (.given (.leaf (.term hcreated)) .nil)⟩
  have hp := hbuilt (.timestamp ⟨1000⟩) rfl
  have hq := hbuilt (.number (.unsigned 1000)) rfl
  exact ⟨hp, hq, (equal_document_iff_of_built hp hq).mpr (by decide)⟩

end Query

end QueryAlgebra
