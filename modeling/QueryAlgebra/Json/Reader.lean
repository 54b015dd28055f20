import QueryAlgebra.Json.Lexer

/-!
# Reading JSON trees

`Json.ofTokens?` builds the tree of a list of tokens and `Json.read?` the tree of a text.
The tokens are taken one at a time; the lists and records that are still open are kept in
a stack of frames, the innermost first, so that nesting of any depth is read alike.
-/

namespace QueryAlgebra

namespace Json

/-- A tree as it is read: numbers are their literals, and a text is `none` when it has a
lone surrogate. -/
abbrev Source := Json String (Option String)

/-- A list or record that is still open, with what it holds so far in reverse. A record
waits for the value of its last key. -/
inductive Frame where
  | list (items : List Source)
  | record (fields : List (Option String × Source)) (key : Option String)

/-- What has been read, and thereby what can follow. -/
inductive Reader where
  /-- A value follows. -/
  | value (frames : List Frame)
  /-- A list has been opened: its first item or its end follows. -/
  | firstItem (frames : List Frame)
  /-- A record has been opened: its first key or its end follows. -/
  | firstKey (frames : List Frame)
  /-- A comma in a record: a key follows. -/
  | nextKey (fields : List (Option String × Source)) (frames : List Frame)
  /-- A key has been read: a colon follows. -/
  | keyed (fields : List (Option String × Source)) (key : Option String)
      (frames : List Frame)
  /-- A value has been read: what follows depends on the innermost open frame. -/
  | complete (value : Source) (frames : List Frame)

namespace Reader

def start : Reader := value []

/-- The first token of a value. -/
def openValue? (frames : List Frame) : ReadToken → Option Reader
  | .null => some (complete .null frames)
  | .bool b => some (complete (.bool b) frames)
  | .number literal => some (complete (.number literal) frames)
  | .text s => some (complete (.text s) frames)
  | .openList => some (firstItem frames)
  | .openRecord => some (firstKey frames)
  | _ => none

/-- One more token. -/
def step? : Reader → ReadToken → Option Reader
  | value frames, t => openValue? frames t
  | firstItem frames, .closeList => some (complete (.list []) frames)
  | firstItem frames, t => openValue? (.list [] :: frames) t
  | firstKey frames, .closeRecord => some (complete (.record []) frames)
  | firstKey frames, .text key => some (keyed [] key frames)
  | nextKey fields frames, .text key => some (keyed fields key frames)
  | keyed fields key frames, .colon => some (value (.record fields key :: frames))
  | complete v (.list items :: frames), .comma => some (value (.list (v :: items) :: frames))
  | complete v (.list items :: frames), .closeList =>
    some (complete (.list (v :: items).reverse) frames)
  | complete v (.record fields key :: frames), .comma =>
    some (nextKey ((key, v) :: fields) frames)
  | complete v (.record fields key :: frames), .closeRecord =>
    some (complete (.record ((key, v) :: fields).reverse) frames)
  | _, _ => none

/-- The value read, once every frame is closed. -/
def finish? : Reader → Option Source
  | complete v [] => some v
  | _ => none

end Reader

/-- The tree of a list of tokens. -/
def ofTokens? (ts : List ReadToken) : Option Source :=
  (ts.foldlM Reader.step? Reader.start).bind Reader.finish?

/-- The tree of a text. -/
def read? (text : String) : Option Source :=
  (Lexer.run? text.toList).bind ofTokens?

end Json

end QueryAlgebra
