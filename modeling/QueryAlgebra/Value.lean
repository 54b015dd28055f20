import QueryAlgebra.Document
import QueryAlgebra.Timestamp

/-!
# Field values

A `Value` is what a condition compares a field with: a text, a number, a truth value or a
timestamp. A number keeps the form it was given in, because that decides how it is
compared and written. Values of different kinds, and numbers of different forms, are never
the same; floats are compared as numbers.
-/

namespace QueryAlgebra

/-- A number in one of three forms. -/
inductive Numeric where
  | signed (n : Int64)
  | unsigned (n : UInt64)
  | float (x : Binary64)
  deriving DecidableEq

/-- A value that a field is compared with. -/
inductive Value where
  | text (s : String)
  | number (n : Numeric)
  | bool (b : Bool)
  | timestamp (t : Timestamp)
  deriving DecidableEq

/-- The kinds of values. -/
inductive ValueKind where
  | text
  | number
  | bool
  | timestamp
  deriving DecidableEq

namespace Numeric

/-- The nearest float. -/
def toFloat : Numeric → Binary64
  | signed n => .ofInt n.toInt
  | unsigned n => .ofInt n.toNat
  | float x => x

/-- Only a float can fail to be finite. -/
def isFinite : Numeric → Bool
  | float x => x.isFinite
  | _ => true

/-- Equality within one form. -/
def same : Numeric → Numeric → Bool
  | signed m, signed n => m == n
  | unsigned m, unsigned n => m == n
  | float x, float y => x.same y
  | _, _ => false

/-- The number as it is sent. -/
def document : Numeric → Document
  | signed n => .integer n.toInt
  | unsigned n => .integer n.toNat
  | float x => .float x

end Numeric

/-- The name of a kind in error messages. -/
def ValueKind.name : ValueKind → String
  | text => "string"
  | number => "number"
  | bool => "bool"
  | timestamp => "timestamp"

namespace Value

def kind : Value → ValueKind
  | text _ => .text
  | number _ => .number
  | bool _ => .bool
  | timestamp _ => .timestamp

def text? : Value → Option String
  | text s => some s
  | _ => none

def number? : Value → Option Numeric
  | number n => some n
  | _ => none

def bool? : Value → Option Bool
  | bool b => some b
  | _ => none

def timestamp? : Value → Option Timestamp
  | timestamp t => some t
  | _ => none

/-- Anything but a float that is infinite or not a number. -/
def isFinite : Value → Bool
  | number n => n.isFinite
  | _ => true

/-- Equality within one kind. -/
def same : Value → Value → Bool
  | text s, text t => s == t
  | number m, number n => m.same n
  | bool a, bool b => a == b
  | timestamp s, timestamp t => s == t
  | _, _ => false

/-- The value as it is sent; a timestamp is sent as its milliseconds. -/
def document : Value → Document
  | text s => .text s
  | .number n => n.document
  | bool b => .bool b
  | timestamp t => .integer t.millis.toInt

end Value

end QueryAlgebra
