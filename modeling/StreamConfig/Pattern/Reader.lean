import StreamConfig.Pattern.Count
import StreamConfig.Pattern.Group
import StreamConfig.Pattern.Set

/-! # Reading patterns

A pattern consists of branches between bars, and a branch of parts in a row; a part may be a group,
in which there are branches again.

* `Branches` — what has been read of a pattern or a group;
* `contents` — reads branches up to the end of their group;
* `read` — reads a pattern.
-/

namespace StreamConfig.Pattern

/-! ## Branches -/

/-- The branches that have been read, and the parts of the last one, which is still open; in both
the last one comes first. -/
structure Branches where
  first : Position
  closed : List Tree
  start : Position
  parts : List Tree

namespace Branches

/-- Nothing has been read yet. -/
def startAt (p : Position) : Branches := ⟨p, [], p, []⟩

/-- One more part in the open branch. -/
def push (b : Branches) (t : Tree) : Branches := { b with parts := t :: b.parts }

/-- The open branch ends at a place, and one opens at another. -/
def bar (b : Branches) (stop next : Position) : Branches :=
  ⟨b.first, .ofParts ⟨b.start, stop⟩ b.parts :: b.closed, next, []⟩

/-- All branches, the last one of which ends at a place. -/
def toTree (b : Branches) (stop : Position) : Tree :=
  .ofBranches ⟨b.first, stop⟩ (.ofParts ⟨b.start, stop⟩ b.parts :: b.closed)

end Branches

/-! ## Groups -/

/-- Sets whether the pattern is loose, if the marks say so. -/
def loosen (marks : List Char) : Read Unit :=
  modify fun r => { r with isLoose := (flag? marks 'x').getD r.isLoose }

/-- Reads branches up to the end of their group, which is a closing parenthesis or the end of the
pattern. What flags do to the reading ends with the group. Each turn goes over a character. -/
def contents : (fuel : Nat) → Branches → Read Tree
  | 0, b => return b.toTree (← place)
  | fuel + 1, b => do
    skip
    let stop ← place
    let some c ← current? | return b.toTree stop
    if c == ')' then return b.toTree stop
    else if c == '|' then
      let _ ← step
      contents fuel (b.bar stop (← place))
    else if c == '(' then
      let parenthesis ← currentSpan
      match ← groupOpening with
      | .flags span marks =>
        loosen marks
        contents fuel (b.push (.flags span marks))
      | .group marks =>
        let isLoose := (← get).isLoose
        loosen marks
        let body ← contents fuel (.startAt (← place))
        if (← current?).isNone then fail .groupUnclosed parenthesis
        modify fun r => { r with isLoose }
        let _ ← step
        contents fuel (b.push (.group (← since parenthesis.start) marks body))
    else if c == '[' then contents fuel (b.push (.set (← brackets)))
    else if c == '?' || c == '*' || c == '+' then
      contents fuel { b with parts := ← repetition b.parts }
    else if c == '\x7b' then contents fuel { b with parts := ← countedRepetition b.parts }
    else contents fuel (b.push (.atom (← atom c)))

/-- Reads a whole pattern. -/
def whole (length : Nat) : Read Tree := do
  let t ← contents (length + 1) (.startAt .origin)
  if (← current?).isSome then fail .groupUnopened (← currentSpan)
  return t

/-- The tree of a pattern. -/
def read (pattern : List Char) : Except Fault Tree :=
  (whole pattern.length).run' (.start pattern)

end StreamConfig.Pattern
