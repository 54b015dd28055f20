import QueryAlgebra.Proofs.Operators.Regularity
import QueryAlgebra.Proofs.Wire.Reading

/-!
# Expressions and their documents

An `Expression` is built from regular queries with all operators, nested in any way.
`Expression.query` is what the operators make of it and `Expression.truth` what it says in
ordinary Boolean terms, so that a regular query counts as matching or not and an operator
as its connective. The document of the one is read as the other: no rewriting of the
operators is lost or misread on the wire.
-/

namespace QueryAlgebra

/-- An expression in the operators over regular queries, such as conditions and constants. -/
inductive Expression where
  | operand (q : Query) (regular : q.Regular)
  | and (a b : Expression)
  | or (a b : Expression)
  | negate (a : Expression)
  | all (es : List Expression)
  | any (es : List Expression)

namespace Expression

mutual

/-- The query that the operators make of the expression. -/
def query : Expression → Query
  | operand q _ => q
  | and a b => a.query.and b.query
  | or a b => a.query.or b.query
  | negate a => a.query.negate
  | all es => Query.all (queries es)
  | any es => Query.any (queries es)

/-- `query`, one by one. -/
def queries : List Expression → List Query
  | [] => []
  | e :: es => e.query :: queries es

end

mutual

/-- The value of the expression where `v` decides the conditions. -/
def truth (v : Condition → Bool) : Expression → Bool
  | operand q _ => q.holds v
  | and a b => a.truth v && b.truth v
  | or a b => a.truth v || b.truth v
  | negate a => !a.truth v
  | all es => (truths v es).all id
  | any es => (truths v es).any id

/-- `truth`, one by one. -/
def truths (v : Condition → Bool) : List Expression → List Bool
  | [] => []
  | e :: es => e.truth v :: truths v es

end

mutual

theorem regular_query : ∀ e : Expression, e.query.Regular
  | operand _ regular => regular
  | and a b => Query.regular_and (regular_query a) (regular_query b)
  | or a b => Query.regular_or (regular_query a) (regular_query b)
  | negate a => Query.regular_negate (regular_query a)
  | all es => Query.regular_all (regular_queries es)
  | any es => Query.regular_any (regular_queries es)

theorem regular_queries : ∀ es : List Expression, ∀ q ∈ queries es, q.Regular
  | [] => List.forall_mem_nil _
  | e :: es => List.forall_mem_cons.mpr ⟨regular_query e, regular_queries es⟩

end

variable {v : Condition → Bool}

mutual

theorem holds_query : ∀ e : Expression, e.query.holds v = e.truth v
  | operand _ _ => rfl
  | and a b => by
      rw [query, Query.holds_and_of_regular (regular_query a) (regular_query b),
        holds_query a, holds_query b, truth]
  | or a b => by
      rw [query, Query.holds_or_of_regular (regular_query a) (regular_query b),
        holds_query a, holds_query b, truth]
  | negate a => by
      rw [query, Query.holds_negate_of_regular (regular_query a), holds_query a, truth]
  | all es => by
      rw [query, Query.holds_all_of_regular (regular_queries es), truth, ← holds_queries es,
        List.all_map, Function.id_comp]
  | any es => by
      rw [query, Query.holds_any_of_regular (regular_queries es), truth, ← holds_queries es,
        List.any_map, Function.id_comp]

theorem holds_queries : ∀ es : List Expression, (queries es).map (Query.holds v) = truths v es
  | [] => rfl
  | e :: es => by
      rw [queries, truths, List.map_cons, holds_query e, holds_queries es]

end

/-- The document of an expression is read as its Boolean value, for every reading of the
documents of conditions. -/
theorem selects_document_query (v : Document → Bool) (e : Expression) :
    Document.selects v e.query.document = e.truth fun c => v c.document := by
  rw [Query.selects_document, holds_query]

end Expression

end QueryAlgebra
