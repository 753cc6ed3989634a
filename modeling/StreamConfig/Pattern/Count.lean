import StreamConfig.Decimal.Numeral
import StreamConfig.Pattern.Reading
import StreamConfig.Pattern.Tree

/-! # Repetitions

A part may be repeated: by `?`, `*` or `+`, or as many times as braces say. A question mark behind
that asks for as few times as possible.

* `repetition` — reads one of the three signs;
* `countedRepetition` — reads braces.

Both work on the parts that have been read, the last one first, and repeat the last of them.
-/

namespace StreamConfig.Pattern

/-- The part that is to be repeated, and those before it. The setting of flags is no part. -/
def repeatable : (parts : List Tree) → Read (Tree × List Tree)
  | [] | .flags _ _ :: _ => do fail .repetitionMissing (← here)
  | t :: rest => return (t, rest)

/-- The part repeated, up to the present place. -/
def repeated (t : Tree) : Read Tree := return .repetition (← since t.span.start) t

/-- Reads a sign of repetition. -/
def repetition (parts : List Tree) : Read (List Tree) := do
  let (t, rest) ← repeatable parts
  if (← step) == some '?' then let _ ← step
  return (← repeated t) :: rest

/-! ## Numbers of times -/

/-- The numbers of times that can be asked for lie below this one. -/
def countLimit : Nat := 4294967296

/-- Reads a decimal number, with blanks around. A fault in it does not count at once. -/
def decimal : Read (Except Fault Nat) := do
  let _ ← characters Text.isBlank
  let first ← place
  let digits ← characters Char.isDigit
  let span ← since first
  let _ ← characters Text.isBlank
  match Numeral.digits? 10 digits with
  | none => return .error ⟨.countMissing, span, none⟩
  | some n =>
    if n < countLimit then return .ok n else return .error ⟨.countTooLarge, span, none⟩

/-- Reads one number, or the least and maybe the greatest number, from behind the opening brace at a
place. Whether the least number is not above the greatest. -/
def bounds (brace : Position) : Read Bool := do
  let least ← decimal
  let some c ← current? | fail .countUnclosed (← since brace)
  if c != ',' then
    let _ ← least
    return true
  let some c ← advance | fail .countUnclosed (← since brace)
  let least ← least
  if c == '\x7d' then return true
  let greatest ← (← decimal)
  return decide (least ≤ greatest)

/-- Reads a repetition in braces. -/
def countedRepetition (parts : List Tree) : Read (List Tree) := do
  let brace ← place
  let (t, rest) ← repeatable parts
  if (← advance).isNone then fail .countUnclosed (← since brace)
  let isOrdered ← bounds brace
  if (← current?) != some '\x7d' then fail .countUnclosed (← since brace)
  if (← advance) == some '?' then let _ ← step
  if !isOrdered then fail .countOrder (← since brace)
  return (← repeated t) :: rest

end StreamConfig.Pattern
