import QueryAlgebra.Attribute.Basic
import QueryAlgebra.Attribute.Condition
import QueryAlgebra.Binary64.Basic
import QueryAlgebra.Binary64.Rounding
import QueryAlgebra.Condition.Basic
import QueryAlgebra.Condition.Comparison
import QueryAlgebra.Condition.Kind
import QueryAlgebra.Condition.Range
import QueryAlgebra.Condition.Terms
import QueryAlgebra.Condition.Tuning
import QueryAlgebra.Decimal.Layout
import QueryAlgebra.Decimal.Shortest
import QueryAlgebra.Defaults.Basic
import QueryAlgebra.Defaults.File
import QueryAlgebra.Defaults.Json
import QueryAlgebra.Defaults.Reading
import QueryAlgebra.Defaults.Yaml
import QueryAlgebra.Document
import QueryAlgebra.Envelope
import QueryAlgebra.Fault
import QueryAlgebra.Json.Basic
import QueryAlgebra.Json.Lexer
import QueryAlgebra.Json.Reader
import QueryAlgebra.Json.Token
import QueryAlgebra.Json.Writer
import QueryAlgebra.Proofs.Building.Attributes
import QueryAlgebra.Proofs.Building.Conditions
import QueryAlgebra.Proofs.Building.Envelopes
import QueryAlgebra.Proofs.Building.Parameters
import QueryAlgebra.Proofs.Building.Queries
import QueryAlgebra.Proofs.Building.Settings
import QueryAlgebra.Proofs.Building.Terms
import QueryAlgebra.Proofs.Defaults.Agreement
import QueryAlgebra.Proofs.Defaults.Json
import QueryAlgebra.Proofs.Defaults.Loading
import QueryAlgebra.Proofs.Defaults.Reading
import QueryAlgebra.Proofs.Defaults.SortKeys
import QueryAlgebra.Proofs.Json.Grammar
import QueryAlgebra.Proofs.Json.Lexing
import QueryAlgebra.Proofs.Json.Numbers
import QueryAlgebra.Proofs.Json.Reading
import QueryAlgebra.Proofs.Json.Strings
import QueryAlgebra.Proofs.Json.Writing
import QueryAlgebra.Proofs.Operators.Addition
import QueryAlgebra.Proofs.Operators.Alternation
import QueryAlgebra.Proofs.Operators.Chains
import QueryAlgebra.Proofs.Operators.Clauses
import QueryAlgebra.Proofs.Operators.Complement
import QueryAlgebra.Proofs.Operators.Conjunction
import QueryAlgebra.Proofs.Operators.Conservation
import QueryAlgebra.Proofs.Operators.Constants
import QueryAlgebra.Proofs.Operators.Disjunction
import QueryAlgebra.Proofs.Operators.Flatness
import QueryAlgebra.Proofs.Operators.Heredity
import QueryAlgebra.Proofs.Operators.Regularity
import QueryAlgebra.Proofs.Operators.Relabelling
import QueryAlgebra.Proofs.Sameness.Congruence
import QueryAlgebra.Proofs.Sameness.Reduction
import QueryAlgebra.Proofs.Timestamps
import QueryAlgebra.Proofs.Wire.Body
import QueryAlgebra.Proofs.Wire.Equality
import QueryAlgebra.Proofs.Wire.Expression
import QueryAlgebra.Proofs.Wire.Faithful
import QueryAlgebra.Proofs.Wire.Integers
import QueryAlgebra.Proofs.Wire.Literals
import QueryAlgebra.Proofs.Wire.Nulls
import QueryAlgebra.Proofs.Wire.Reading
import QueryAlgebra.Proofs.Yaml.Flow
import QueryAlgebra.Proofs.Yaml.Scalars
import QueryAlgebra.Proofs.Yaml.Scanning
import QueryAlgebra.Query.Algebra
import QueryAlgebra.Query.Basic
import QueryAlgebra.Query.Document
import QueryAlgebra.Query.Matching
import QueryAlgebra.Query.Shape
import QueryAlgebra.Request
import QueryAlgebra.Sameness
import QueryAlgebra.SortKey
import QueryAlgebra.Text.Blank
import QueryAlgebra.Text.Hexadecimal
import QueryAlgebra.Timestamp
import QueryAlgebra.Value
import QueryAlgebra.Yaml.Block
import QueryAlgebra.Yaml.Characters
import QueryAlgebra.Yaml.Folding
import QueryAlgebra.Yaml.Frame
import QueryAlgebra.Yaml.Lexer
import QueryAlgebra.Yaml.Names
import QueryAlgebra.Yaml.Node
import QueryAlgebra.Yaml.Quoting
import QueryAlgebra.Yaml.Reader
import QueryAlgebra.Yaml.Token
