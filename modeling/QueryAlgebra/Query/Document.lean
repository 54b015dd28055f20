import QueryAlgebra.Query.Basic

/-!
# Queries as documents

`Query.document` is what is sent for a query. A bucket without clauses and an unset
parameter are left out; a minimum is written exactly when it was given.
-/

namespace QueryAlgebra

/-- The field for a bucket of clauses that are documents already: none when it is empty. -/
def Document.bucket (key : String) : List Document → List (String × Document)
  | [] => []
  | clauses => [(key, .list clauses)]

/-- The fields of a group whose clauses are documents already. -/
def Group.fields (g : Group Document) : List (String × Document) :=
  Document.bucket "must" g.must ++
    Document.bucket "should" g.should ++
    Document.bucket "must_not" g.mustNot ++
    Document.bucket "filter" g.filter ++
    Document.parameter "boost" Document.float g.boost ++
    Document.parameter "minimum_should_match" (fun n => .integer (n : Int)) g.minimum

namespace Query

/-- The query as it is sent. -/
def document : Query → Document :=
  fold
    (fun boost =>
      .single "match_all" (.record (Document.parameter "boost" Document.float boost)))
    (.single "match_none" (.record []))
    Condition.document
    (fun g => .single "bool" (.record g.fields))

theorem document_matchAll (boost : Option Binary64) :
    document (matchAll boost) =
      .single "match_all" (.record (Document.parameter "boost" Document.float boost)) := rfl

theorem document_matchNone : document matchNone = .single "match_none" (.record []) := rfl

theorem document_leaf (c : Condition) : document (leaf c) = c.document := rfl

theorem document_group (g : Group Query) :
    document (group g) = .single "bool" (.record (g.map document).fields) :=
  fold_group _ _ _ _ g

end Query

end QueryAlgebra
