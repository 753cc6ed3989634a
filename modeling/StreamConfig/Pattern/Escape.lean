import StreamConfig.Pattern.Reading
import StreamConfig.Pattern.Tree
import StreamConfig.Text.Hex

/-! # Escapes

What a backslash and the characters behind it mean: a character with a meaning of its own that is
to stand for itself, a character by its number, a class of characters, or a condition on the place.

* `escape` — reads an escape;
* `plain` — reads any other character that has no parts.
-/

namespace StreamConfig.Pattern

/-! ## Characters by number -/

/-- Reads a number of hexadecimal digits. -/
def hexDigits : (count : Nat) → Read (List Char)
  | 0 => return []
  | count + 1 => do
    let some c ← current? | fail .escapeUnfinished (← here)
    if (Text.Hex.value? c).isNone then fail .hexDigit (← currentSpan)
    let _ ← advance
    return c :: (← hexDigits count)

/-- The character with a number in hexadecimal digits. -/
def scalar? (digits : List Char) : Option Char :=
  match Text.Hex.number? digits with
  | some n => if n.isValidChar then some (Char.ofNat n) else none
  | none => none

/-- How many digits stand behind the letter of an escape. -/
def hexWidth (letter : Char) : Nat :=
  if letter == 'x' then 2 else if letter == 'u' then 4 else 8

/-- A character by its number, from the letter on: as many digits as the letter asks for, or any
number of them in braces. The escape starts at a place before. -/
def hexLiteral (start : Position) (letter : Char) : Read Atom := do
  let some c ← advance | fail .escapeUnfinished (← here)
  let first ← place
  if c != '\x7b' then
    let digits ← hexDigits (hexWidth letter)
    match scalar? digits with
    | some d => return .literal ⟨← since start, d, letter == 'x'⟩
    | none => fail .hexNoCharacter (← since first)
  else
    let inner := (← currentSpan).stop
    let _ ← advance
    let digits ← characters fun c => (Text.Hex.value? c).isSome
    let some c ← current? | fail .escapeUnfinished (← since first)
    if c != '\x7d' then fail .hexDigit (← currentSpan)
    let last ← place
    let _ ← advance
    if digits.isEmpty then fail .hexEmpty (← since first)
    match scalar? digits with
    | some d => return .literal ⟨← since start, d, false⟩
    | none => fail .hexNoCharacter ⟨inner, last⟩

/-! ## Classes of characters -/

/-- A property, from the letter on: by one letter or by a name in braces. -/
def property (start : Position) : Read Atom := do
  let some c ← advance | fail .escapeUnfinished (← here)
  if c == '\\' then fail .propertyInvalid (← currentSpan)
  if c != '\x7b' then
    let _ ← advance
    return .property (← since start) [c]
  else
    let _ ← advance
    let name ← characters (· != '\x7d')
    if (← current?).isNone then fail .escapeUnfinished (← here)
    let _ ← step
    return .property (← since start) name

/-! ## Conditions on the place -/

/-- Letters of the names of special boundaries. -/
def isBoundaryLetter (c : Char) : Bool := c.isAlpha || c == '-'

/-- The names of special boundaries: a word starts or ends, or there is no word on the one side. -/
def boundaryNames : List String := ["start", "end", "start-half", "end-half"]

/-- The boundary of a word, from behind the letter on. A name in braces makes it a special one; an
opening brace before anything but a letter does not belong to it. -/
def boundary (start : Position) : Read Atom := do
  let plainSpan ← since start
  if (← current?) != some '\x7b' then return .assertion plainSpan true
  let atBrace ← get
  let some c ← advance | fail .boundaryOrCount (← since start)
  if !isBoundaryLetter c then
    set atBrace
    return .assertion plainSpan true
  let first ← place
  let name ← characters isBoundaryLetter
  if (← current?) != some '\x7d' then fail .boundaryUnclosed (← since atBrace.place)
  let last ← place
  let _ ← step
  if boundaryNames.contains (String.ofList name) then return .assertion (← since start) true
  else fail .boundaryUnknown ⟨first, last⟩

/-! ## Escapes -/

/-- Escaped, the character stands for itself: all of ASCII but letters, digits and angle
brackets. -/
def standsForItself (c : Char) : Bool :=
  decide (c.toNat < 128) && !c.isAlphanum && c != '<' && c != '>'

/-- Letters that stand for control characters. -/
def controls : List (Char × Char) :=
  [('a', '\x07'), ('f', '\x0c'), ('t', '\t'), ('n', '\n'), ('r', '\r'), ('v', '\x0b')]

/-- Reads an escape, from the backslash on. -/
def escape : Read Atom := do
  let start ← place
  let some c ← step | fail .escapeUnfinished (← since start)
  if c.isDigit then fail .backreference ⟨start, (← currentSpan).stop⟩
  else if c == 'x' || c == 'u' || c == 'U' then hexLiteral start c
  else if c == 'p' || c == 'P' then property start
  else
    let _ ← step
    let span ← since start
    if standsForItself c then return .literal ⟨span, c, false⟩
    match controls.lookup c with
    | some d => return .literal ⟨span, d, false⟩
    | none =>
      if ['d', 's', 'w'].contains c then return .shorthand span false
      else if ['D', 'S', 'W'].contains c then return .shorthand span true
      else if c == 'A' || c == 'z' then return .assertion span false
      else if c == 'B' || c == '<' || c == '>' then return .assertion span true
      else if c == 'b' then boundary start
      else fail .escapeUnknown span

/-- Reads a character that stands for itself wherever it stands. -/
def plain (c : Char) : Read Atom := do
  let span ← currentSpan
  let _ ← step
  return .literal ⟨span, c, false⟩

/-- Reads an atom outside of sets; `c` is its first character. -/
def atom (c : Char) : Read Atom := do
  if c == '\\' then escape
  else
    let span ← currentSpan
    if c == '.' then
      let _ ← step
      return .any span
    else if c == '^' || c == '$' then
      let _ ← step
      return .assertion span false
    else plain c

end StreamConfig.Pattern
