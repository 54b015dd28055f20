import QueryAlgebra.Envelope
import QueryAlgebra.Json.Writer

/-!
# Requests

A `Request` is an envelope with the attributes to return for each result. The body that is
sent is written without making the document of the request: only the envelope is made a tree.
-/

namespace QueryAlgebra

/-- An envelope with the attributes to return for each result. -/
structure Request where
  envelope : Envelope
  attributes : List String

namespace Request

/-- The request for a query that leaves everything else to defaults. -/
def ofDefaults (q : Query) (d : Defaults) : Except Fault Request :=
  ((Draft.ofDefaults d).set (.query q)).build.map fun envelope =>
    { envelope, attributes := d.attributes }

def same (r s : Request) : Bool :=
  r.envelope.same s.envelope && r.attributes == s.attributes

/-- The request as it is sent. -/
def document (r : Request) : Document :=
  .record
    [("dsl", r.envelope.document), ("attributes", .list (r.attributes.map .text))]

/-- The body of the request, written around the text of its envelope. -/
def body (r : Request) : String :=
  String.ofList (Json.writeRecord
    [("dsl", Json.compact r.envelope.document.literals),
      ("attributes", Json.writeList (r.attributes.map fun a => Json.quoted a.toList))])

end Request

end QueryAlgebra
