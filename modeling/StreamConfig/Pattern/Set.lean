import StreamConfig.Pattern.Escape

/-! # Sets of characters

Square brackets hold characters, ranges, classes and other sets, with operations between them that
are done from the left to the right. An opening bracket may be followed by `^`; after it dashes, or
else a closing bracket, stand for themselves.

* `member` — reads a character, a class by an escape, or a range;
* `brackets` — reads a set.
-/

namespace StreamConfig.Pattern

/-! ## Members -/

/-- Classes that have a name. -/
def classNames : List String :=
  ["alnum", "alpha", "ascii", "blank", "cntrl", "digit", "graph", "lower", "print", "punct",
    "space", "upper", "word", "xdigit"]

/-- How many characters the name of a class between colons and brackets takes, and whether the
class is negated; `none` if what stands there is no such name. -/
def namedClass? : List Char → Option (Nat × Bool)
  | '[' :: ':' :: rest =>
    let isNegated := rest.head? == some '^'
    let rest := if isNegated then rest.drop 1 else rest
    let name := rest.takeWhile (· != ':')
    if [':', ']'].isPrefixOf (rest.drop name.length) && classNames.contains (String.ofList name)
    then some (name.length + (if isNegated then 5 else 4), isNegated)
    else none
  | _ => none

/-- An atom as a member of a set. -/
def Atom.toMember : Atom → Read SetTree
  | .literal l => return .literal l
  | .shorthand span isNegated => return .shorthand span isNegated
  | .property span name => return .property span name
  | .any span | .assertion span _ => fail .setEscape span

/-- An atom as the end of a range. -/
def Atom.toBound : Atom → Read Literal
  | .literal l => return l
  | a => fail .rangeBound a.span

/-- Reads an atom in a set; `c` is its first character. -/
def setAtom (c : Char) : Read Atom := if c == '\\' then escape else plain c

/-- Reads a member that starts with `c`, in the set that was opened last. A dash behind an atom
makes a range, but not in front of a closing bracket or another dash. -/
def member (opening : Span) (c : Char) : Read SetTree := do
  let first ← setAtom c
  skip
  let some dash ← current? | fail .setUnclosed opening
  let following := (← get).following?
  if dash != '-' || following == some ']' || following == some '-' then first.toMember
  else
    let some c ← advance | fail .setUnclosed opening
    let last ← setAtom c
    let first ← first.toBound
    let last ← last.toBound
    if last.char < first.char then fail .rangeOrder ⟨first.span.start, last.span.stop⟩
    return .range first last

/-! ## Brackets -/

/-- At most `fuel` dashes, each of them a member of the set that starts at a place. -/
def dashes (start : Position) : (fuel : Nat) → Members → Read Members
  | 0, m => return m
  | fuel + 1, m => do
    if (← current?) != some '-' then return m
    let span ← currentSpan
    if (← advance).isNone then fail .setUnclosed (.point start)
    dashes start fuel (m.push (.literal ⟨span, '-', false⟩))

/-- Reads an opening bracket and what may only stand behind one: whether the set is negated, and its
first members. -/
def opening : Read (Bool × Members) := do
  let start ← place
  let some c ← advance | fail .setUnclosed (← since start)
  let isNegated := c == '^'
  if isNegated then
    if (← advance).isNone then fail .setUnclosed (← since start)
  let m ← dashes start (← get).rest.length (.start (← place))
  if m.items.isEmpty && (← current?) == some ']' then
    let span ← currentSpan
    if (← advance).isNone then fail .setUnclosed (← since start)
    return (isNegated, m.push (.literal ⟨span, ']', false⟩))
  else return (isNegated, m)

/-- The sign of an operation stands twice. -/
def isOperation (c : Char) : Bool := c == '&' || c == '-' || c == '~'

/-- Reads up to the closing bracket and over it: `left` is what stands on the left of an operation,
`m` are the members since then. Each turn goes over a character. -/
def setContents : (fuel : Nat) → Span → (left : Option SetTree) → Members → Read SetTree
  | 0, span, _, _ => fail .setUnclosed span
  | fuel + 1, span, left, m => do
    skip
    let some c ← current? | fail .setUnclosed span
    let rest := (← get).rest
    if c == ']' then
      let _ ← step
      return m.toSet.after left
    else if c == '[' then
      let start ← place
      match namedClass? rest with
      | some (length, isNegated) =>
        modify (·.pass length)
        setContents fuel span left (m.push (.named (← since start) isNegated))
      | none =>
        let (isNegated, inner) ← opening
        let contents ← setContents fuel (← since start) none inner
        setContents fuel span left (m.push (.set (← since start) isNegated contents))
    else if isOperation c && (rest.drop 1).head? == some c then
      modify (·.pass 2)
      setContents fuel span (some (m.toSet.after left)) (.start (← place))
    else
      setContents fuel span left (m.push (← member span c))

/-- Reads a set, from its bracket on. -/
def brackets : Read SetTree := do
  let start ← place
  let (isNegated, first) ← opening
  let contents ← setContents ((← get).rest.length + 1) (← since start) none first
  return .set (← since start) isNegated contents

end StreamConfig.Pattern
