import StreamConfig.Pattern.Fault
import StreamConfig.Text.Blank

/-! # Reading along a pattern

What is known at a place of a pattern while it is read, and the steps by which one goes on. In a
loose pattern (flag `x`) blanks and comments, from `#` to the end of the line, mean nothing and may
stand between most characters.

* `Reading` — a place and what has been learnt so far;
* `Read` — a reader, which may end with a fault;
* `step` — goes over one character; `advance` — and over what means nothing behind it;
* `characters` — reads characters of a class.
-/

namespace StreamConfig.Pattern

/-- A place in a pattern and what is known there. -/
structure Reading where
  rest : List Char
  place : Position
  isLoose : Bool
  /-- the names of groups that have been read, and where they stand -/
  names : List (List Char × Span)

namespace Reading

/-- The start of a pattern. -/
def start (pattern : List Char) : Reading := ⟨pattern, .origin, false, []⟩

/-- Goes over a number of characters. -/
def pass : (count : Nat) → Reading → Reading
  | 0, r => r
  | count + 1, r =>
    match r.rest with
    | [] => r
    | c :: rest => pass count { r with rest, place := r.place.after c }

/-- How many characters mean nothing in a loose pattern, from a place that may lie in a
comment. -/
def looseLength : (inComment : Bool) → List Char → Nat
  | _, [] => 0
  | true, c :: rest => looseLength (c != '\n') rest + 1
  | false, c :: rest =>
    if c == '#' then looseLength true rest + 1
    else if Text.isBlank c then looseLength false rest + 1
    else 0

/-- Goes over what means nothing. -/
def passLoose (r : Reading) : Reading :=
  if r.isLoose then r.pass (looseLength false r.rest) else r

/-- The first character that is no blank and does not open a comment; inside a comment characters
count as well. -/
def glance? : (inComment : Bool) → List Char → Option Char
  | _, [] => none
  | inComment, c :: rest =>
    if Text.isBlank c then glance? inComment rest
    else if !inComment && c == '#' then glance? true rest
    else some c

/-- The character that is taken for the one behind the present one. -/
def following? (r : Reading) : Option Char :=
  let behind := r.rest.drop 1
  if r.isLoose then (glance? false behind).or behind.head? else behind.head?

end Reading

/-! ## Readers -/

/-- A reader, which goes on in a pattern or ends with a fault. -/
abbrev Read := StateT Reading (Except Fault)

def fail {α : Type} (cause : Cause) (span : Span) : Read α := throw ⟨cause, span, none⟩

/-- The character at the present place, if the pattern does not end there. -/
def current? : Read (Option Char) := return (← get).rest.head?

def place : Read Position := return (← get).place

/-- The empty stretch at the present place. -/
def here : Read Span := return .point (← place)

/-- The stretch from a place to the present one. -/
def since (start : Position) : Read Span := return ⟨start, ← place⟩

/-- The stretch of the present character. -/
def currentSpan : Read Span := do
  let r ← get
  return ⟨r.place, (r.pass 1).place⟩

/-- Goes over a character; gives the next one. -/
def step : Read (Option Char) := do
  modify (·.pass 1)
  current?

/-- Goes over what means nothing. -/
def skip : Read Unit := modify Reading.passLoose

/-- Goes over a character and what means nothing behind it; gives the next one. -/
def advance : Read (Option Char) := do
  modify (·.pass 1)
  skip
  current?

/-- Goes over the first of some texts that stands at the present place. -/
def takeAny? : List String → Read Bool
  | [] => return false
  | text :: others => do
    if text.toList.isPrefixOf (← get).rest then
      modify (·.pass text.length)
      return true
    else takeAny? others

/-- At most `fuel` characters of a class. -/
def charactersTo (p : Char → Bool) : (fuel : Nat) → Read (List Char)
  | 0 => return []
  | fuel + 1 => do
    let some c ← current? | return []
    if p c then
      let _ ← advance
      return c :: (← charactersTo p fuel)
    else return []

/-- Reads the characters of a class that follow each other. -/
def characters (p : Char → Bool) : Read (List Char) := do
  charactersTo p (← get).rest.length

end StreamConfig.Pattern
