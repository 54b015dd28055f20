import QueryAlgebra.Binary64.Rounding
import QueryAlgebra.Decimal.Layout
import QueryAlgebra.Json.Token

/-!
# Wire documents

A `Document` is the JSON tree that a query, an envelope or a request is sent as. Its
numbers are integers or finite floats; a float that is not finite has no JSON number and
becomes `null`. `Document.render` gives the compact text.
-/

namespace QueryAlgebra

/-- A number of a document. -/
inductive WireNumber where
  | integer (n : Int)
  | float (x : Binary64)
  deriving DecidableEq

/-- A JSON tree to be sent. -/
abbrev Document := Json WireNumber String

namespace WireNumber

/-- In documents a float keeps a fraction part and is written with a point from `0.00001`
up to `1000000000000000.0`; of two equally near digit strings the even one is taken. -/
def layout : Decimal.Layout where
  positional e := -5 ≤ e && e ≤ 15
  wholeFraction := true
  tie := .toEven

/-- An integer in decimal digits. -/
def integerChars (n : Int) : List Char :=
  (if n < 0 then ['-'] else []) ++ Nat.toDigits 10 n.natAbs

/-- The literal that the number is written as. -/
def literal : WireNumber → String
  | integer n => String.ofList (integerChars n)
  | float x => String.ofList (x.chars layout)

/-- Equality as numbers: integers and floats are kept apart, and floats compare as such. -/
def same : WireNumber → WireNumber → Bool
  | integer m, integer n => m == n
  | float x, float y => x.same y
  | _, _ => false

end WireNumber

namespace Document

def integer (n : Int) : Document := .number (.integer n)

/-- A float, or `null` where it is not finite. -/
def float (x : Binary64) : Document :=
  if x.isFinite then .number (.float x) else .null

/-- A record with a single field. -/
def single (key : String) (value : Document) : Document := .record [(key, value)]

/-- The field for an optional parameter: none when it is unset. -/
def parameter {α : Type} (key : String) (write : α → Document) :
    Option α → List (String × Document)
  | none => []
  | some a => [(key, write a)]

/-- The tree with each number replaced by its literal. -/
def literals (d : Document) : Json String String := d.map WireNumber.literal id

/-- The compact text of the document. -/
def render (d : Document) : String := String.ofList (Json.compact d.literals)

@[simp] theorem parameter_none {α : Type} (key : String) (write : α → Document) :
    parameter key write none = [] := rfl

@[simp] theorem parameter_some {α : Type} (key : String) (write : α → Document) (a : α) :
    parameter key write (some a) = [(key, write a)] := rfl

end Document

end QueryAlgebra
