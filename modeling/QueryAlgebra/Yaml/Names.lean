import QueryAlgebra.Text.Hexadecimal
import QueryAlgebra.Yaml.Characters
import QueryAlgebra.Yaml.Token

/-!
# Names on one line

Anchors, aliases, tags and directives never go beyond their line, so they are read from
the characters that follow. Each reader returns what it read and how many characters that
took.

A tag may give octets by hexadecimal digits. They come in groups that are shaped like the
UTF-8 form of one character; a group that is shaped so but is the form of no character
leaves the tag without a text. The octet zero ends the text of a tag, whatever follows it.
-/

namespace QueryAlgebra

namespace Yaml

/-- The characters that may follow the name of an anchor or alias, white space apart. -/
def isNameEnd (c : Char) : Bool :=
  c == '?' || c == ':' || c == ',' || c == ']' || c == '}' || c == '%' || c == '@' ||
    c.toNat == 0x60

/-- The name of an anchor or alias. -/
def readName? (rest : List Char) : Option (String × Nat) :=
  let name := rest.takeWhile isWord
  let after := rest.drop name.length
  if !name.isEmpty && (endsWord after || after.head?.any isNameEnd) then
    some (String.ofList name, name.length)
  else none

/-! ## Locators -/

/-- A piece of a locator: a character, or an octet given by its number. -/
inductive LocatorPiece where
  | char (c : Char)
  | octet (n : Nat)
  deriving DecidableEq

/-- The characters that a locator may hold. The characters of flow collections belong to it
only where no collection can be meant. -/
def isLocatorChar (verbatim : Bool) (c : Char) : Bool :=
  isWord c || (";/?:@&=+$.!~*'()".toList.contains c) ||
    (verbatim && (c == ',' || c == '[' || c == ']'))

/-- The longest locator at the beginning of the characters, with what follows it. -/
def locatorPieces? (verbatim : Bool) :
    List Char → Option (List LocatorPiece × List Char)
  | '%' :: high :: low :: rest => do
    let octet ← Text.hexNumber? [high, low]
    let (pieces, rest) ← locatorPieces? verbatim rest
    return (.octet octet :: pieces, rest)
  | c :: rest =>
    if c = '%' then none
    else if isLocatorChar verbatim c then do
      let (pieces, rest) ← locatorPieces? verbatim rest
      return (.char c :: pieces, rest)
    else some ([], c :: rest)
  | [] => some ([], [])

/-- The number of octets in the UTF-8 form of a character, by its first octet. -/
def utf8Width? (octet : Nat) : Option Nat :=
  if octet < 0x80 then some 1
  else if 0xC0 ≤ octet ∧ octet < 0xE0 then some 2
  else if 0xE0 ≤ octet ∧ octet < 0xF0 then some 3
  else if 0xF0 ≤ octet ∧ octet < 0xF8 then some 4
  else none

/-- The octet continues the UTF-8 form of a character. -/
def isContinuation (octet : Nat) : Bool := 0x80 ≤ octet && octet < 0xC0

/-- The character whose UTF-8 form is a first octet and its continuation. -/
def utf8Char? (width first : Nat) (later : List Nat) : Option Char :=
  let lead := if width = 1 then first else first % (128 >>> width)
  let n := later.foldl (fun n octet => 64 * n + octet % 64) lead
  let least := if width = 1 then 0 else if width = 2 then 0x80
    else if width = 3 then 0x800 else 0x10000
  if least ≤ n ∧ n.isValidChar then some (Char.ofNat n) else none

/-- The text of the pieces, up to an octet zero. It fails where octets are not shaped like
characters, and is `none` where they are but make no character. -/
def joinLocator? : List LocatorPiece → Option (Option (List Char))
  | [] => some (some [])
  | .char c :: rest => (joinLocator? rest).map (Option.map (c :: ·))
  | .octet a :: rest =>
    match utf8Width? a, rest with
    | some 1, rest =>
      (joinLocator? rest).map fun text =>
        if a = 0 then some [] else consChar (utf8Char? 1 a []) text
    | some 2, .octet b :: rest =>
      if isContinuation b then
        (joinLocator? rest).map (consChar (utf8Char? 2 a [b]))
      else none
    | some 3, .octet b :: .octet c :: rest =>
      if isContinuation b && isContinuation c then
        (joinLocator? rest).map (consChar (utf8Char? 3 a [b, c]))
      else none
    | some 4, .octet b :: .octet c :: .octet d :: rest =>
      if isContinuation b && isContinuation c && isContinuation d then
        (joinLocator? rest).map (consChar (utf8Char? 4 a [b, c, d]))
      else none
    | _, _ => none
where
  /-- One more character in front, if there is one and the rest has a text. -/
  consChar (c : Option Char) (rest : Option (List Char)) : Option (List Char) :=
    c.bind fun c => rest.map (c :: ·)

/-- A locator with its text and what follows it. -/
def readLocator? (verbatim : Bool) (cs : List Char) :
    Option (Option (List Char) × List Char) := do
  let (pieces, rest) ← locatorPieces? verbatim cs
  let text ← joinLocator? pieces
  return (text, rest)

/-- A locator of at least one piece, with its text and what follows it. -/
def readLocator1? (verbatim : Bool) (cs : List Char) :
    Option (Option (List Char) × List Char) :=
  (readLocator? verbatim cs).filter fun (_, rest) => rest.length < cs.length

/-! ## Tags -/

/-- A tag, from what follows its exclamation mark up to the next white space. -/
def tagOfWord? (word : List Char) : Option (TagName × List Char) :=
  match word with
  | '<' :: word => do
    let (text, rest) ← readLocator1? true word
    match rest with
    | '>' :: rest => some (⟨"", text.map String.ofList⟩, rest)
    | _ => none
  | word =>
    let name := word.takeWhile isWord
    match word.drop name.length with
    | '!' :: rest => do
      let (text, rest) ← readLocator1? false rest
      return (⟨String.ofList ('!' :: (name ++ ['!'])), text.map String.ofList⟩, rest)
    | rest => do
      let (text, rest) ← readLocator? false rest
      let text := text.map (name ++ ·)
      if text = some [] then some (⟨"", some "!"⟩, rest)
      else some (⟨"!", text.map String.ofList⟩, rest)

/-- A tag, from what follows its exclamation mark. Within a flow collection a comma may
stand right behind it. -/
def readTag? (inFlow : Bool) (rest : List Char) : Option (TagName × Nat) := do
  let word := rest.takeWhile fun c => !isBlank c && !isBreak c
  let (tag, after) ← tagOfWord? word
  if after.isEmpty || (inFlow && after.head? == some ',') then
    some (tag, word.length - after.length)
  else none

/-! ## Directives -/

/-- A number of at most nine digits, with what follows it. -/
def readVersionNumber? (cs : List Char) : Option (Nat × List Char) :=
  let digits := cs.takeWhile Char.isDigit
  if digits.isEmpty || 9 < digits.length then none
  else some (digits.foldl (fun n c => 10 * n + (c.toNat - '0'.toNat)) 0,
    cs.drop digits.length)

/-- The handle that a directive explains. -/
def readHandle? (cs : List Char) : Option (List Char × List Char) :=
  match cs with
  | '!' :: rest =>
    let name := rest.takeWhile isWord
    match rest.drop name.length with
    | '!' :: rest => some ('!' :: (name ++ ['!']), rest)
    | rest => if name.isEmpty then some (['!'], rest) else none
  | _ => none

/-- A directive, from what follows its percent sign in the line. -/
def directiveOfLine? (line : List Char) : Option Token :=
  let name := line.takeWhile isWord
  let after := line.drop name.length
  if !endsWord after then none
  else if name = ['Y', 'A', 'M', 'L'] then do
    let (major, after) ← readVersionNumber? (after.dropWhile isBlank)
    match after with
    | '.' :: after => do
      let (minor, after) ← readVersionNumber? after
      if isLineEnd after then some (.version major minor) else none
    | _ => none
  else if name = ['T', 'A', 'G'] then do
    let (handle, after) ← readHandle? (after.dropWhile isBlank)
    match after with
    | c :: _ =>
      if isBlank c then do
        let (expansion, after) ← readLocator1? true (after.dropWhile isBlank)
        if endsWord after ∧ isLineEnd after then
          some (.handle (String.ofList handle) (expansion.map String.ofList))
        else none
      else none
    | [] => none
  else none

/-- A directive, from what follows its percent sign. It takes its whole line, the break
included. -/
def readDirective? (rest : List Char) : Option (Token × Nat) :=
  let line := rest.takeWhile fun c => !isBreak c
  (directiveOfLine? line).map fun t => (t, line.length + 1)

end Yaml

end QueryAlgebra
