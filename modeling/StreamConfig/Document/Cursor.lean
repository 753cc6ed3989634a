import StreamConfig.Finding
import StreamConfig.Text.Blank
import StreamConfig.Text.Bytes

/-! # Looking for keys in a text

Parsed values do not tell where their keys stood, so keys are looked up in the source text again,
each one from where the last one was found.

* `Cursor` — a place in a text that knows its line and column;
* `lookAt` — what the text holds at one place: the key that is looked for, or something to pass
  over (a comment, a quoted text, a block scalar, a single character);
* `Cursor.find` — the next place where a key stands.

A key stands where a token may start, and is followed by a colon. Key-like text inside comments,
quoted texts and block scalars does not count, since they are passed over as a whole.
-/

namespace StreamConfig

/-- A place in a text: the number of the current line, its characters before the place with the
nearest first, and all characters from the place on. -/
structure Cursor where
  line : Nat
  before : List Char
  rest : List Char
deriving DecidableEq, Repr

namespace Cursor

/-- The place before the first character. -/
def start (source : String) : Cursor := ⟨1, [], source.toList⟩

def position (c : Cursor) : Position := ⟨c.line, c.before.length + 1⟩

/-- Moves over one character. -/
def step (c : Cursor) : Cursor :=
  match c.rest with
  | [] => c
  | x :: rest => if x = '\n' then ⟨c.line + 1, [], rest⟩ else ⟨c.line, x :: c.before, rest⟩

/-- Moves over a number of characters. -/
def advance : (count : Nat) → Cursor → Cursor
  | 0, c => c
  | count + 1, c => advance count c.step

end Cursor

/-! ## What the text holds at one place -/

/-- A token may start at the start of a line and after blanks, opening brackets, commas and
colons. -/
def isTokenStart : (before : List Char) → Bool
  | [] => true
  | c :: _ => Text.isAsciiBlank c || c == '\x7b' || c == '[' || c == ',' || c == ':'

/-- A comment may start at the start of a line and after blanks. -/
def isCommentStart : (before : List Char) → Bool
  | [] => true
  | c :: _ => Text.isAsciiBlank c

/-- A colon comes next, maybe after spaces and tabs. -/
def isBeforeColon (cs : List Char) : Bool :=
  match cs.dropWhile Text.isInlineBlank with
  | ':' :: _ => true
  | _ => false

/-- How many characters stand between an opening quote and its closing one. Inside double quotes a
backslash takes the next character with it; inside single quotes two quotes are one character. -/
def quotedLength? (quote : Char) : List Char → Option Nat
  | [] => none
  | [c] => if c == quote && !(quote == '"' && c == '\\') then some 0 else none
  | c :: d :: rest =>
    if quote == '"' && c == '\\' then (quotedLength? quote rest).map (· + 2)
    else if c == quote then
      if quote == '\'' && d == '\'' then (quotedLength? quote rest).map (· + 2) else some 0
    else (quotedLength? quote (d :: rest)).map (· + 1)

/-- The characters up to the end of the line. -/
def lineLength (cs : List Char) : Nat := (cs.takeWhile (· != '\n')).length

/-! ### Block scalars

A block scalar starts with `|` or `>` at the end of a line that ends in a key's colon or in the dash
of a list item. Its text is every following line that is blank or indented deeper than the key or
the dash. -/

/-- The rest of a block scalar's first line: marks for its indentation and its end, then nothing
but blanks or a comment. -/
def isBlockHeader (cs : List Char) : Bool :=
  let marks := cs.dropWhile fun c => c == '+' || c == '-' || c.isDigit
  match marks.dropWhile Text.isBlank with
  | [] => true
  | c :: _ => c == '#'

/-- Spaces at the front, then any number of `- ` marks with spaces after each: how far the first
key of a line is indented. -/
def keyIndent (steps : Nat) (line : List Char) : Nat :=
  let spaces := (line.takeWhile (· == ' ')).length
  match steps, line.drop spaces with
  | steps + 1, '-' :: ' ' :: rest => spaces + 2 + keyIndent steps rest
  | _, _ => spaces

/-- How far the owner of a block scalar is indented, given what stands before the scalar on its
line, nearest first; `none` if nothing there can own one. The place of a dash is counted in UTF-8
bytes. -/
def ownerIndent? (before : List Char) : Option Nat :=
  match before.dropWhile Text.isInlineBlank with
  | ':' :: _ => some (keyIndent before.length before.reverse)
  | '-' :: left => some (Text.utf8Length left)
  | _ => none

/-- How many characters of the following lines belong to a block scalar, the line feeds in front of
them counted; the text starts with the line feed that ends the line before. `left` is how many
lines there can be at most. -/
def blockLines (indent : Nat) : (left : Nat) → List Char → Nat
  | 0, _ => 0
  | _, [] => 0
  | left + 1, _ :: rest =>
    let line := rest.takeWhile (· != '\n')
    if !Text.isBlankText line && (line.takeWhile (· == ' ')).length ≤ indent then 0
    else line.length + 1 + blockLines indent left (rest.drop line.length)

/-- The number of characters of a block scalar after its first one, which has been read; `none` if
the character starts no block scalar. -/
def blockLength? (before rest : List Char) : Option Nat :=
  match ownerIndent? before with
  | none => none
  | some indent =>
    let header := lineLength rest
    if isBlockHeader (rest.take header) then
      some (header + blockLines indent (rest.length - header) (rest.drop header))
    else none

/-! ### One look -/

/-- What a look at one place tells. -/
inductive Sighting where
  /-- the key stands here, behind this many characters (one if it is quoted) -/
  | key (behind : Nat)
  /-- pass over this character and `more` others -/
  | pass (more : Nat)
deriving DecidableEq, Repr

/-- What the text holds at a place with the character `c` and the characters `rest` after it. -/
def lookAt (key before : List Char) (c : Char) (rest : List Char) : Sighting :=
  if c == '#' && isCommentStart before then .pass (lineLength rest)
  else if (c == '"' || c == '\'') && isTokenStart before then
    match quotedLength? c rest with
    | none => .pass 0
    | some n =>
      if rest.take n == key && isBeforeColon (rest.drop (n + 1)) then .key 1 else .pass (n + 1)
  else if (c == '|' || c == '>') && isTokenStart before then
    match blockLength? before rest with
    | none => .pass 0
    | some n => .pass n
  else if isTokenStart before && key.isPrefixOf (c :: rest) &&
      isBeforeColon ((c :: rest).drop key.length) then .key 0
  else .pass 0

namespace Cursor

/-- Goes through the text for a key; `skip` characters are passed over before the next look. -/
def search (key : List Char) : (skip line : Nat) → (before rest : List Char) → Option Cursor
  | _, _, _, [] => none
  | skip + 1, line, before, c :: rest =>
    if c = '\n' then search key skip (line + 1) [] rest else search key skip line (c :: before) rest
  | 0, line, before, c :: rest =>
    match lookAt key before c rest with
    | .key behind => some (advance behind ⟨line, before, c :: rest⟩)
    | .pass more =>
      if c = '\n' then search key more (line + 1) [] rest
      else search key more line (c :: before) rest

/-- The next place at which a key stands. -/
def find (c : Cursor) (key : String) : Option Cursor :=
  search key.toList 0 c.line c.before c.rest

end Cursor

end StreamConfig
