import StreamConfig.Pattern.Reading
import StreamConfig.Pattern.Tree
import StreamConfig.Text.Alphanumeric

/-! # How groups start

Behind an opening parenthesis may stand the name of the group, or flags for it. Parentheses with
flags alone are no group: they set the flags for what follows.

* `flags` — reads flags up to what ends them;
* `groupName` — reads a name;
* `groupOpening` — reads all up to the contents of a group.
-/

namespace StreamConfig.Pattern

/-- What an opening parenthesis opens. -/
inductive Opening where
  /-- a group, for which flags are set -/
  | group (marks : List Char)
  /-- nothing: flags are set for what follows -/
  | flags (span : Span) (marks : List Char)

/-! ## Flags -/

/-- The letters of flags, and the sign behind which they are taken away. -/
def flagMarks : List Char := ['i', 'm', 's', 'U', 'u', 'R', 'x', '-']

/-- Reads at most `fuel` marks, up to a colon or a closing parenthesis; `marks` have been read
before. No mark stands twice, and the sign does not stand last. -/
def flagsTo : (fuel : Nat) → (marks : List (Char × Span)) → Read (List Char)
  | 0, marks => return marks.map (·.1)
  | fuel + 1, marks => do
    let some c ← current? | fail .flagMissing (← here)
    if c == ':' || c == ')' then
      match marks.getLast? with
      | some ('-', span) => fail .negationDangling span
      | _ => return marks.map (·.1)
    else
      let span ← currentSpan
      if !flagMarks.contains c then fail .flagUnknown span
      if let some first := marks.lookup c then
        throw ⟨if c == '-' then .negationRepeated else .flagRepeated, span, some first⟩
      if (← step).isNone then fail .flagMissing (← here)
      flagsTo fuel (marks ++ [(c, span)])

/-- Reads flags up to a colon or a closing parenthesis. -/
def flags : Read (List Char) := do flagsTo (← get).rest.length []

/-! ## Names -/

/-- The characters of names: letters, digits and a few signs, of which only the underscore may stand
first. -/
def isNameChar (isFirst : Bool) (c : Char) : Bool :=
  if isFirst then c == '_' || Text.isAlphabetic c
  else c == '_' || c == '.' || c == '[' || c == ']' || Text.isAlphanumeric c

/-- Reads at most `fuel` characters of a name, up to a closing angle bracket. -/
def nameTo : (fuel : Nat) → (isFirst : Bool) → Read (List Char)
  | 0, _ => return []
  | fuel + 1, isFirst => do
    let some c ← current? | return []
    if c == '>' then return []
    if !isNameChar isFirst c then fail .nameInvalid (← currentSpan)
    let _ ← step
    return c :: (← nameTo fuel false)

/-- Reads the name of a group and the angle bracket behind it. No two groups share a name. -/
def groupName : Read Unit := do
  let start ← place
  let name ← nameTo (← get).rest.length true
  if (← current?).isNone then fail .nameUnclosed (← here)
  let span ← since start
  let _ ← step
  if name.isEmpty then fail .nameEmpty (.point start)
  if let some first := (← get).names.lookup name then throw ⟨.nameRepeated, span, some first⟩
  modify fun r => { r with names := (name, span) :: r.names }

/-! ## Openings -/

/-- Reads from an opening parenthesis up to the contents of the group. -/
def groupOpening : Read Opening := do
  let parenthesis ← currentSpan
  let _ ← advance
  if ← takeAny? ["?=", "?!", "?<=", "?<!"] then fail .lookAround (← since parenthesis.start)
  let question ← here
  if ← takeAny? ["?P<", "?<"] then
    groupName
    return .group []
  else if ← takeAny? ["?"] then
    if (← current?).isNone then fail .groupUnclosed parenthesis
    let marks ← flags
    let isSetting := (← current?) == some ')'
    let _ ← step
    if !isSetting then return .group marks
    if marks.isEmpty then fail .repetitionMissing question
    return .flags (← since parenthesis.start) marks
  else return .group []

end StreamConfig.Pattern
