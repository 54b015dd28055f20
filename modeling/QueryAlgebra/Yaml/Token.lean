/-!
# YAML tokens

The tokens of a YAML text. The structure that a text shows by indentation and by colons
after keys is spelled out in them: `blockSequenceStart`, `blockMappingStart` and `blockEnd`
stand where a column is entered and left, and `key` stands before every key.
-/

namespace QueryAlgebra

namespace Yaml

/-- How a scalar was written. -/
inductive Style where
  | plain
  | quoted
  | literal
  | folded
  deriving DecidableEq

/-- A tag as it was written: a handle, which a directive may explain, and the rest. A text
is `none` where escaped octets do not make characters. -/
structure TagName where
  handle : String
  suffix : Option String
  deriving DecidableEq

/-- A token of a YAML text. -/
inductive Token where
  | version (major minor : Nat)
  | handle (handle : String) (expansion : Option String)
  | documentStart
  | documentEnd
  | blockSequenceStart
  | blockMappingStart
  | blockEnd
  | flowSequenceStart
  | flowSequenceEnd
  | flowMappingStart
  | flowMappingEnd
  | blockEntry
  | flowEntry
  | key
  | value
  | reference (name : String)
  | anchor (name : String)
  | tag (name : TagName)
  | scalar (style : Style) (text : String)
  | streamEnd
  deriving DecidableEq

end Yaml

end QueryAlgebra
