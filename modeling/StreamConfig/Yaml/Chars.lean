import StreamConfig.Text.Bytes

/-! # Character classes of YAML

Which characters a stream may hold, which of them end a line, and which ones are blank.

* `isAllowed` — a stream holds no other characters: a control character is an error;
* `isBreak` — carriage return, line feed, next line, and the two Unicode separators;
* `Place` — a place in a stream that counts bytes, lines and columns.
-/

namespace StreamConfig.Yaml

def isAllowed (c : Char) : Bool :=
  let n := c.toNat
  n == 0x09 || n == 0x0A || n == 0x0D || (0x20 ≤ n && n ≤ 0x7E) || n == 0x85 ||
    (0xA0 ≤ n && n ≤ 0xD7FF) || (0xE000 ≤ n && n ≤ 0xFFFD) || 0x10000 ≤ n

def isBreak (c : Char) : Bool :=
  c == '\n' || c == '\r' || c == '\u0085' || c == '\u2028' || c == '\u2029'

def isBlank (c : Char) : Bool := c == ' ' || c == '\t'

/-- A letter, a digit, an underscore or a hyphen: what names consist of. -/
def isWordChar (c : Char) : Bool := c.isAlphanum || c == '_' || c == '-'

/-- No character, a blank or a line break: what ends an indicator. -/
def isGap : Option Char → Bool
  | none => true
  | some c => isBlank c || isBreak c

/-- A place in a stream: the characters from there on, the number of bytes before it, and the line
and the column, both counted from zero; a column is one character. -/
structure Place where
  rest : List Char
  index : Nat
  line : Nat
  column : Nat

namespace Place

def start (cs : List Char) : Place := ⟨cs, 0, 0, 0⟩

/-- The character at the place. -/
def here (p : Place) : Option Char := p.rest.head?

/-- The character `k` characters on. -/
def ahead (p : Place) (k : Nat) : Option Char := p.rest[k]?

def isAt (p : Place) (c : Char) : Bool := p.here == some c

def isAtBlank (p : Place) : Bool := p.here.any isBlank

def isAtBreak (p : Place) : Bool := p.here.any isBreak

/-- Moves over characters of one line. -/
def skip (p : Place) (count : Nat) : Place :=
  ⟨p.rest.drop count, p.index + Text.utf8Length (p.rest.take count), p.line, p.column + count⟩

/-- Moves over the characters of one line that belong to a class, and gives them. -/
def span (ok : Char → Bool) (p : Place) : List Char × Place :=
  let taken := p.rest.takeWhile ok
  (taken, p.skip taken.length)

/-- Moves over blanks. -/
def skipBlanks (p : Place) : Place := (p.span isBlank).2

/-- Moves over a comment, if there is one here. -/
def skipComment (p : Place) : Place :=
  if p.isAt '#' then (p.span fun c => !isBreak c).2 else p

/-- Moves over a line break, if there is one here, and gives what it counts as: the two separators
stand for themselves, every other break is a line feed. -/
def lineBreak (p : Place) : List Char × Place :=
  match p.rest with
  | '\r' :: '\n' :: rest => (['\n'], ⟨rest, p.index + 2, p.line + 1, 0⟩)
  | c :: rest =>
    if isBreak c then
      let b := if c == '\u2028' || c == '\u2029' then c else '\n'
      ([b], ⟨rest, p.index + c.utf8Size, p.line + 1, 0⟩)
    else ([], p)
  | [] => ([], p)

/-- Three equal characters at the start of a line, and a gap after them. -/
def isAtMarker (p : Place) (c : Char) : Bool :=
  p.column == 0 && p.here == some c && p.ahead 1 == some c && p.ahead 2 == some c &&
    isGap (p.ahead 3)

/-- A line that marks the start or the end of a document. -/
def isAtDocumentMarker (p : Place) : Bool := p.isAtMarker '-' || p.isAtMarker '.'

end Place

end StreamConfig.Yaml
