import QueryAlgebra.Attribute.Basic
import QueryAlgebra.Condition.Kind
import QueryAlgebra.Decimal.Layout

/-!
# Faults

A `Fault` says why a condition, an envelope or a set of defaults could not be built.
Combining, negating and writing what has been built never fails. `Fault.message?` is the
wording; a text that is not well formed has none, because which of its flaws is named is
not fixed.
-/

namespace QueryAlgebra

/-- Why defaults could not be taken from a text. -/
inductive DefaultsFault where
  /-- The text is not well formed, or does not have the shape of defaults. -/
  | malformed
  | zeroPageSize
  | blankSortField
  | unknownFormat (path : String)
  deriving DecidableEq

/-- Why a file could not be read. -/
inductive FileFault where
  | missing
  | directory
  | notUtf8
  deriving DecidableEq

/-- Why something could not be built. -/
inductive Fault where
  | blankField (kind : ConditionKind)
  | noTerms (field : String)
  | mixedTerms (field : String) (first other : ValueKind)
  | reservedField (field : String)
  | notFinite (kind : ConditionKind) (field : String)
  | badBoost (boost : Binary64)
  /-- The attribute cannot hold the value. -/
  | unfit (a : Attribute)
  /-- There is neither a query nor a filter. -/
  | nothingToSearch
  | defaults (fault : DefaultsFault)
  | file (fault : FileFault)
  /-- A JSON text is not well formed, or does not have the shape asked for. -/
  | json
  deriving DecidableEq

def DefaultsFault.message? : DefaultsFault → Option String
  | malformed => none
  | zeroPageSize => some "invalid configuration: page_size must be at least 1"
  | blankSortField => some "invalid configuration: sort items require a field"
  | unknownFormat path => some s!"invalid configuration: unsupported config format: {path}"

def FileFault.message : FileFault → String
  | missing => "No such file or directory (os error 2)"
  | directory => "Is a directory (os error 21)"
  | notUtf8 => "stream did not contain valid UTF-8"

namespace Fault

/-- In messages a float is written without an exponent, and without a fraction part when
it is whole; of two equally near digit strings the larger one is taken. -/
def layout : Decimal.Layout where
  positional _ := true
  wholeFraction := false
  tie := .up

/-- The wording of the fault, if it has one. -/
def message? : Fault → Option String
  | blankField kind => some s!"{kind.name} query requires a non-empty field name"
  | noTerms field => some s!"terms query on '{field}' requires at least one value"
  | mixedTerms field first other =>
    some s!"terms query on '{field}' mixes {first.name} and {other.name} values"
  | reservedField field => some s!"terms query cannot target the reserved field '{field}'"
  | notFinite kind field =>
    some s!"{kind.name} query on '{field}' has a non-finite number"
  | badBoost boost =>
    some ("invalid boost " ++ String.ofList (boost.chars layout) ++
      ": must be finite and >= 0")
  | unfit a =>
    some s!"attribute '{a.field}' expects a {a.kind.name} value"
  | nothingToSearch => some "search request requires a query or a post filter"
  | defaults fault => fault.message?
  | file fault => some fault.message
  | json => none

end Fault

end QueryAlgebra
