import StreamConfig.Finding

/-! # What can be wrong with a pattern

A pattern is a regular expression. A fault has a cause and a stretch of the pattern that it is
about; where something is said twice, the first place is remembered too.

* `Span` — a stretch of a pattern;
* `Cause` — the rules that a pattern can break, with their wording;
* `Fault` — a broken rule and where it is broken.
-/

namespace StreamConfig.Pattern

/-! ## Stretches -/

/-- A stretch of a pattern, from one place up to another and without what stands there. -/
structure Span where
  start : Position
  stop : Position
deriving DecidableEq, Repr

namespace Span

/-- The empty stretch at a place. -/
def point (p : Position) : Span := ⟨p, p⟩

/-- It does not go on in another line. -/
def isInLine (s : Span) : Bool := s.start.line == s.stop.line

/-- Starts earlier, or ends earlier after the same start. -/
def isBefore (s t : Span) : Bool :=
  s.start.isBefore t.start || (s.start == t.start && s.stop.isBefore t.stop)

end Span

/-! ## Causes -/

/-- How many levels of groups, sets, repetitions and sequences may lie in each other. -/
def maxDepth : Nat := 250

/-- The rules that a pattern can break. -/
inductive Cause where
  | groupUnclosed
  | groupUnopened
  | lookAround
  | nameUnclosed
  | nameInvalid
  | nameEmpty
  | nameRepeated
  | flagMissing
  | flagUnknown
  | flagRepeated
  | negationRepeated
  | negationDangling
  | repetitionMissing
  | countMissing
  | countTooLarge
  | countOrder
  | countUnclosed
  | setUnclosed
  | setEscape
  | rangeBound
  | rangeOrder
  | escapeUnfinished
  | escapeUnknown
  | backreference
  | hexDigit
  | hexEmpty
  | hexNoCharacter
  | boundaryUnclosed
  | boundaryUnknown
  | boundaryOrCount
  | propertyInvalid
  | propertyUnknown
  | tooDeep
  | notUnicode
  | invalidText
deriving DecidableEq, Repr

def Cause.message : Cause → String
  | .groupUnclosed => "unclosed group"
  | .groupUnopened => "unopened group"
  | .lookAround => "look-around, including look-ahead and look-behind, is not supported"
  | .nameUnclosed => "unclosed capture group name"
  | .nameInvalid => "invalid capture group character"
  | .nameEmpty => "empty capture group name"
  | .nameRepeated => "duplicate capture group name"
  | .flagMissing => "expected flag but got end of regex"
  | .flagUnknown => "unrecognized flag"
  | .flagRepeated => "duplicate flag"
  | .negationRepeated => "flag negation operator repeated"
  | .negationDangling => "dangling flag negation operator"
  | .repetitionMissing => "repetition operator missing expression"
  | .countMissing => "repetition quantifier expects a valid decimal"
  | .countTooLarge => "decimal literal invalid"
  | .countOrder => "invalid repetition count range, the start must be <= the end"
  | .countUnclosed => "unclosed counted repetition"
  | .setUnclosed => "unclosed character class"
  | .setEscape => "invalid escape sequence found in character class"
  | .rangeBound => "invalid range boundary, must be a literal"
  | .rangeOrder => "invalid character class range, the start must be <= the end"
  | .escapeUnfinished => "incomplete escape sequence, reached end of pattern prematurely"
  | .escapeUnknown => "unrecognized escape sequence"
  | .backreference => "backreferences are not supported"
  | .hexDigit => "invalid hexadecimal digit"
  | .hexEmpty => "hexadecimal literal empty"
  | .hexNoCharacter => "hexadecimal literal is not a Unicode scalar value"
  | .boundaryUnclosed =>
    "special word boundary assertion is either unclosed or contains an invalid character"
  | .boundaryUnknown =>
    "unrecognized special word boundary assertion, valid choices are: start, end, start-half " ++
      "or end-half"
  | .boundaryOrCount =>
    "found either the beginning of a special word boundary or a bounded repetition on a \\b " ++
      "with an opening brace, but no closing brace"
  | .propertyInvalid => "invalid Unicode character class"
  | .propertyUnknown => "Unicode property not found"
  | .tooDeep =>
    "exceed the maximum number of nested parentheses/brackets (" ++ toString maxDepth ++ ")"
  | .notUnicode => "Unicode not allowed here"
  | .invalidText => "pattern can match invalid UTF-8"

/-! ## Faults -/

/-- A broken rule: where it is broken and, for something that is said twice, where it is said
first. -/
structure Fault where
  cause : Cause
  span : Span
  first : Option Span
deriving DecidableEq, Repr

/-- The stretches that a fault is about, in the order of the text. -/
def Fault.spans (f : Fault) : List Span :=
  match f.first with
  | none => [f.span]
  | some s => if s.isBefore f.span then [s, f.span] else [f.span, s]

end StreamConfig.Pattern
