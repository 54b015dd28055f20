import QueryAlgebra.Yaml.Frame
import QueryAlgebra.Yaml.Lexer

/-!
# Reading YAML documents

`Yaml.ofTokens?` builds the tree of a list of tokens and `Yaml.read?` the tree of a text.
The result is `some none` for a text without a document; a text with more than one is an
error here. The tokens are taken one at a time, and what is open is kept as a stack of
frames, the innermost first.
-/

namespace QueryAlgebra

namespace Yaml

/-- What the names in a document mean: the handles that directives explain, and the numbers
of the anchors. -/
structure Names where
  handles : List (String × Option String) := []
  anchors : List (String × Nat) := []
  deriving DecidableEq

namespace Names

/-- What a handle stands for. Two handles have a meaning without a directive. -/
def expand? (names : Names) (handle : String) : Option (Option String) :=
  match names.handles.lookup handle with
  | some expansion => some expansion
  | none =>
    if handle = "!" then some (some "!")
    else if handle = "!!" then some (some "tag:yaml.org,2002:")
    else none

/-- The text of a tag, which may have none; it fails for a handle without a meaning. -/
def tagText? (names : Names) (tag : TagName) : Option (Option String) :=
  if tag.handle = "" then some tag.suffix
  else (names.expand? tag.handle).map fun expansion =>
    expansion.bind fun expansion => tag.suffix.map (expansion ++ ·)

/-- Gives a number to an anchor: the number of names known before. A name that was known
already gets a new number and is still one name. -/
def addAnchor (names : Names) (name : String) : Names × Nat :=
  let number := names.anchors.length
  let others := names.anchors.filter fun anchor => anchor.1 ≠ name
  ({ names with anchors := (name, number) :: others }, number)

/-- Explains a handle, which a document may do only once. -/
def addHandle? (names : Names) (handle : String) (expansion : Option String) : Option Names :=
  if (names.handles.lookup handle).isSome then none
  else some { names with handles := (handle, expansion) :: names.handles }

/-- Takes an anchor or a tag in among properties that have none yet. -/
def addProperty? (names : Names) (properties : Properties) (t : Token) :
    Option (Names × Properties) :=
  match t, properties with
  | .anchor name, ⟨none, tag⟩ =>
    let (names, number) := names.addAnchor name
    some (names, ⟨some number, tag⟩)
  | .tag tag, ⟨anchor, none⟩ =>
    (names.tagText? tag).map fun text => (names, ⟨anchor, some text⟩)
  | _, _ => none

end Names

/-- What has been read of a stream. -/
inductive Stage where
  /-- Nothing but directives; there may have been one, and it may have been a version. -/
  | prologue (directives version : Bool)
  /-- The mark before a document. -/
  | marked
  /-- The innermost frame and those around it. -/
  | within (frame : Frame) (frames : List Frame)
  /-- The document is complete. -/
  | complete (root : Node)
  /-- The stream has ended, with or without a document. -/
  | ended (root : Option Node)

namespace Stage

/-- A node is complete: it goes into the frame around it, or is the document. -/
def close (node : Node) : List Frame → Stage
  | [] => complete node
  | frame :: frames => within (frame.put node) frames

/-- A token after the document. -/
def afterDocument? (root : Node) : Token → Option Stage
  | .documentEnd => some (complete root)
  | .streamEnd => some (ended (some root))
  | _ => none

/-- The first token of a node's content. -/
def content? (place : Place) (properties : Properties) (frames : List Frame) (t : Token) :
    Option Stage :=
  let anchor := properties.anchor
  match t with
  | .scalar style text => some (close (.scalar anchor properties.tag style text) frames)
  | .flowSequenceStart => some (within (.flowSequence anchor [] .item) frames)
  | .flowMappingStart => some (within (.flowMapping anchor [] .key) frames)
  | .blockSequenceStart =>
    if place = .flow then none else some (within (.blockSequence anchor [] .item) frames)
  | .blockMappingStart =>
    if place = .flow then none else some (within (.blockMapping anchor [] .key) frames)
  | .blockEntry =>
    if place = .blockPair then some (within (.flushSequence anchor [] .itemNode) frames)
    else none
  | _ => none

end Stage

/-- The state of reading a document. -/
structure Reader where
  names : Names := {}
  stage : Stage := .prologue false false

namespace Reader

/-- The first token of a node. -/
def openNode? (names : Names) (place : Place) (frames : List Frame) (t : Token) :
    Option Reader :=
  match t with
  | .reference name =>
    (names.anchors.lookup name).map fun number =>
      ⟨names, .close (.reference number) frames⟩
  | t =>
    match names.addProperty? {} t with
    | some (names, properties) => some ⟨names, .within (.node place properties) frames⟩
    | none => (Stage.content? place {} frames t).map fun stage => ⟨names, stage⟩

/-- One more token for the innermost frame, or, where that has ended before the token, for
the frame around it. -/
def accept? (names : Names) : Frame → List Frame → Token → Option Reader
  | .node place properties, frames, t =>
    match names.addProperty? properties t with
    | some (names, properties) => some ⟨names, .within (.node place properties) frames⟩
    | none =>
      match Stage.content? place properties frames t, frames with
      | some stage, _ => some ⟨names, stage⟩
      | none, [] =>
        (Stage.afterDocument? properties.emptyNode t).map fun stage => ⟨names, stage⟩
      | none, frame :: frames => accept? names (frame.put properties.emptyNode) frames t
  | frame, frames, t =>
    match frame.move t, frames with
    | .stays frame, frames => some ⟨names, .within frame frames⟩
    | .opens place frame, frames => openNode? names place (frame :: frames) t
    | .enters inner frame, frames => some ⟨names, .within inner (frame :: frames)⟩
    | .finishes node, frames => some ⟨names, .close node frames⟩
    | .handsOn node, [] => (Stage.afterDocument? node t).map fun stage => ⟨names, stage⟩
    | .handsOn node, frame :: frames => accept? names (frame.put node) frames t
    | .fails, _ => none

/-- One more token. -/
def step? (r : Reader) (t : Token) : Option Reader :=
  match r.stage, t with
  | .prologue _ version, .version major minor =>
    if !version && major == 1 && (minor == 1 || minor == 2) then
      some { r with stage := .prologue true true }
    else none
  | .prologue _ version, .handle handle expansion =>
    (r.names.addHandle? handle expansion).map fun names => ⟨names, .prologue true version⟩
  | .prologue .., .documentStart => some { r with stage := .marked }
  | .prologue false _, .streamEnd => some { r with stage := .ended none }
  | .prologue false _, t => openNode? r.names .block [] t
  | .prologue true _, _ => none
  | .marked, .documentEnd => some { r with stage := .complete .missing }
  | .marked, .streamEnd => some { r with stage := .ended (some .missing) }
  | .marked, t => openNode? r.names .block [] t
  | .within frame frames, t => accept? r.names frame frames t
  | .complete root, t => (Stage.afterDocument? root t).map fun stage => { r with stage }
  | .ended _, _ => none

/-- The document, once the stream has ended. -/
def finish? (r : Reader) : Option (Option Node) :=
  match r.stage with
  | .ended root => some root
  | _ => none

end Reader

/-- The document that a list of tokens makes, if it makes one. -/
def ofTokens? (ts : List Token) : Option (Option Node) :=
  (ts.foldlM Reader.step? {}).bind Reader.finish?

/-- The document in a text, if there is one. -/
def read? (text : String) : Option (Option Node) :=
  (Lexer.run? text.toList).bind ofTokens?

end Yaml

end QueryAlgebra
