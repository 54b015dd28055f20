import QueryAlgebra.Yaml.Node

/-!
# Open YAML collections

A `Frame` is a collection that is still open, or a node of which only the anchor or tag has
been read, and knows what may come next in it. `Frame.move` says what a token does to the
innermost frame. A node may be left out after a hyphen, a key or a colon, so a token that
cannot start it is first taken to show that it is missing; this is what `Frame.settle`
does. A token may also end a frame to which it does not belong, and is then handed on to the
frame around it.
-/

namespace QueryAlgebra

namespace Yaml

/-- What stands before the content of a node. -/
structure Properties where
  anchor : Option Nat := none
  tag : Option (Option String) := none
  deriving DecidableEq

/-- Where a node stands, which decides what collections it may be. -/
inductive Place where
  | flow
  | block
  /-- A key or value of a block mapping: here the hyphens of a sequence need no column of
  their own. -/
  | blockPair
  deriving DecidableEq

/-- What comes next in a sequence. -/
inductive SequenceNext where
  /-- After an item of a flow sequence: a comma or the end. -/
  | separator
  /-- A hyphen, or an item of a flow sequence, or the end. -/
  | item
  /-- The node behind a hyphen. -/
  | itemNode

/-- What comes next in a mapping. -/
inductive MappingNext where
  /-- After a pair of a flow mapping: a comma or the end. -/
  | separator
  /-- A key, or the end. -/
  | key
  /-- The node of a key. -/
  | keyNode
  /-- The node of a key that no token announces, and that has no value. -/
  | bareKey
  /-- The colon after a key. -/
  | colon (key : Node)
  /-- The node of a value. -/
  | valueNode (key : Node)
  /-- After a pair that stands alone: the end. -/
  | done (key value : Node)

/-- A collection that is open, or a node of which only the properties are known. Items and
pairs are in reverse. -/
inductive Frame where
  | node (place : Place) (properties : Properties)
  | blockSequence (anchor : Option Nat) (items : List Node) (next : SequenceNext)
  /-- A sequence whose hyphens stand in the column of the keys around it. -/
  | flushSequence (anchor : Option Nat) (items : List Node) (next : SequenceNext)
  | blockMapping (anchor : Option Nat) (pairs : List (Node × Node)) (next : MappingNext)
  | flowSequence (anchor : Option Nat) (items : List Node) (next : SequenceNext)
  | flowMapping (anchor : Option Nat) (pairs : List (Node × Node)) (next : MappingNext)
  /-- A single pair that is an item of a flow sequence. -/
  | flowPair (next : MappingNext)

/-- What a token does to a frame. -/
inductive Move where
  /-- The frame goes on. -/
  | stays (frame : Frame)
  /-- The token is the first of a node in the frame. -/
  | opens (place : Place) (frame : Frame)
  /-- The token opens a frame within the frame. -/
  | enters (inner frame : Frame)
  /-- The token ends the frame, which becomes a node. -/
  | finishes (node : Node)
  /-- The frame has ended before the token, and becomes a node. -/
  | handsOn (node : Node)
  | fails

/-- A node that was left out but has properties. -/
def Properties.emptyNode (properties : Properties) : Node :=
  .scalar properties.anchor properties.tag .plain ""

/-- A node that was left out. -/
def Node.missing : Node := .scalar none none .plain ""

namespace Frame

/-- A node is complete in the frame. -/
def put (node : Node) : Frame → Frame
  | .node place properties => .node place properties
  | blockSequence anchor items _ => blockSequence anchor (node :: items) .item
  | flushSequence anchor items _ => flushSequence anchor (node :: items) .item
  | flowSequence anchor items _ => flowSequence anchor (node :: items) .separator
  | blockMapping anchor pairs (.valueNode key) => blockMapping anchor ((key, node) :: pairs) .key
  | blockMapping anchor pairs _ => blockMapping anchor pairs (.colon node)
  | flowMapping anchor pairs (.valueNode key) =>
    flowMapping anchor ((key, node) :: pairs) .separator
  | flowMapping anchor pairs .bareKey =>
    flowMapping anchor ((node, .missing) :: pairs) .separator
  | flowMapping anchor pairs _ => flowMapping anchor pairs (.colon node)
  | flowPair (.valueNode key) => flowPair (.done key node)
  | flowPair _ => flowPair (.colon node)

/-- The token ends a key or value of a block mapping. -/
def endsBlockPair (t : Token) : Bool := t = .key || t = .value || t = .blockEnd

/-- Fills in the key that the token shows to have been left out. -/
def settleKey (t : Token) : Frame → Frame
  | blockMapping anchor pairs .keyNode =>
    blockMapping anchor pairs (if endsBlockPair t then .colon .missing else .keyNode)
  | flowMapping anchor pairs .keyNode =>
    flowMapping anchor pairs
      (if t = .value || t = .flowEntry || t = .flowMappingEnd then .colon .missing
        else .keyNode)
  | frame => frame

/-- Fills in the item or value that the token shows to have been left out. -/
def settleValue (t : Token) : Frame → Frame
  | blockSequence anchor items .itemNode =>
    if t = .blockEntry || t = .blockEnd then blockSequence anchor (.missing :: items) .item
    else blockSequence anchor items .itemNode
  | flushSequence anchor items .itemNode =>
    if t = .blockEntry || endsBlockPair t then flushSequence anchor (.missing :: items) .item
    else flushSequence anchor items .itemNode
  | blockMapping anchor pairs (.colon key) =>
    if t = .value then blockMapping anchor pairs (.colon key)
    else blockMapping anchor ((key, .missing) :: pairs) .key
  | blockMapping anchor pairs (.valueNode key) =>
    if endsBlockPair t then blockMapping anchor ((key, .missing) :: pairs) .key
    else blockMapping anchor pairs (.valueNode key)
  | flowMapping anchor pairs (.colon key) =>
    if t = .value then flowMapping anchor pairs (.colon key)
    else flowMapping anchor ((key, .missing) :: pairs) .separator
  | flowMapping anchor pairs (.valueNode key) =>
    if t = .flowEntry || t = .flowMappingEnd then
      flowMapping anchor ((key, .missing) :: pairs) .separator
    else flowMapping anchor pairs (.valueNode key)
  | flowPair (.colon key) =>
    if t = .value then flowPair (.colon key) else flowPair (.done key .missing)
  | flowPair (.valueNode key) =>
    if t = .flowEntry || t = .flowSequenceEnd then flowPair (.done key .missing)
    else flowPair (.valueNode key)
  | frame => frame

/-- Fills in the nodes that the token shows to have been left out. -/
def settle (t : Token) (frame : Frame) : Frame := (frame.settleKey t).settleValue t

/-- What the token does to a frame in which nothing is left out before it. -/
def respond (t : Token) : Frame → Move
  | .node .. => .fails
  | blockSequence anchor items .item =>
    match t with
    | .blockEntry => .stays (blockSequence anchor items .itemNode)
    | .blockEnd => .finishes (.sequence anchor items.reverse)
    | _ => .fails
  | blockSequence anchor items next => .opens .block (blockSequence anchor items next)
  | flushSequence anchor items .item =>
    match t with
    | .blockEntry => .stays (flushSequence anchor items .itemNode)
    | _ => .handsOn (.sequence anchor items.reverse)
  | flushSequence anchor items next => .opens .block (flushSequence anchor items next)
  | blockMapping anchor pairs .key =>
    match t with
    | .key => .stays (blockMapping anchor pairs .keyNode)
    | .blockEnd => .finishes (.mapping anchor pairs.reverse)
    | _ => .fails
  | blockMapping anchor pairs (.colon key) => .stays (blockMapping anchor pairs (.valueNode key))
  | blockMapping anchor pairs next => .opens .blockPair (blockMapping anchor pairs next)
  | flowSequence anchor items .separator =>
    match t with
    | .flowEntry => .stays (flowSequence anchor items .item)
    | .flowSequenceEnd => .finishes (.sequence anchor items.reverse)
    | _ => .fails
  | flowSequence anchor items next =>
    match t with
    | .flowSequenceEnd => .finishes (.sequence anchor items.reverse)
    | .key => .enters (flowPair .keyNode) (flowSequence anchor items next)
    | _ => .opens .flow (flowSequence anchor items next)
  | flowMapping anchor pairs .separator =>
    match t with
    | .flowEntry => .stays (flowMapping anchor pairs .key)
    | .flowMappingEnd => .finishes (.mapping anchor pairs.reverse)
    | _ => .fails
  | flowMapping anchor pairs .key =>
    match t with
    | .key => .stays (flowMapping anchor pairs .keyNode)
    | .flowMappingEnd => .finishes (.mapping anchor pairs.reverse)
    | _ => .opens .flow (flowMapping anchor pairs .bareKey)
  | flowMapping anchor pairs (.colon key) => .stays (flowMapping anchor pairs (.valueNode key))
  | flowMapping anchor pairs next => .opens .flow (flowMapping anchor pairs next)
  | flowPair .keyNode =>
    match t with
    | .value | .flowEntry | .flowSequenceEnd => .stays (flowPair (.colon .missing))
    | _ => .opens .flow (flowPair .keyNode)
  | flowPair (.colon key) => .stays (flowPair (.valueNode key))
  | flowPair (.done key value) => .handsOn (.mapping none [(key, value)])
  | flowPair next => .opens .flow (flowPair next)

/-- What the token does to the frame. -/
def move (t : Token) (frame : Frame) : Move := (frame.settle t).respond t

end Frame

end Yaml

end QueryAlgebra
