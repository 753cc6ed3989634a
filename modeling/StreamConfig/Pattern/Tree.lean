import StreamConfig.Pattern.Fault

/-! # Patterns as trees

What a pattern is made of. Every part knows the stretch where it stands, and holds of its meaning
only what decides whether the pattern can be used.

* `Atom` — a part without parts, which may stand outside and, partly, inside a set;
* `SetTree` — the contents of square brackets;
* `Tree` — a pattern.
-/

namespace StreamConfig.Pattern

/-- A character that stands for itself, or an escape that stands for a character. -/
structure Literal where
  span : Span
  char : Char
  /-- written as two hexadecimal digits behind `\x`, which may also mean a byte -/
  isByte : Bool
deriving DecidableEq, Repr

/-- A part without parts. -/
inductive Atom where
  | literal (l : Literal)
  /-- any character -/
  | any (span : Span)
  /-- a condition on the place: the start or end of text or line, or the boundary of a word -/
  | assertion (span : Span) (isBoundary : Bool)
  /-- digits, blanks, word characters, or all but these -/
  | shorthand (span : Span) (isNegated : Bool)
  /-- the characters with a property -/
  | property (span : Span) (name : List Char)
deriving DecidableEq, Repr

def Atom.span : Atom → Span
  | .literal l => l.span
  | .any s | .assertion s _ | .shorthand s _ | .property s _ => s

/-- The contents of square brackets. -/
inductive SetTree where
  | empty (span : Span)
  | literal (l : Literal)
  | range (first last : Literal)
  /-- a class by its name, between colons -/
  | named (span : Span) (isNegated : Bool)
  | shorthand (span : Span) (isNegated : Bool)
  | property (span : Span) (name : List Char)
  /-- square brackets -/
  | set (span : Span) (isNegated : Bool) (contents : SetTree)
  | union (span : Span) (items : List SetTree)
  /-- an intersection or a difference of one of the two kinds -/
  | operation (span : Span) (left right : SetTree)

def SetTree.span : SetTree → Span
  | .literal l => l.span
  | .range first last => ⟨first.span.start, last.span.stop⟩
  | .empty s | .named s _ | .shorthand s _ | .property s _ | .set s _ _ | .union s _
  | .operation s _ _ => s

/-- A pattern. -/
inductive Tree where
  | empty (span : Span)
  /-- the setting of flags for what follows; `marks` are the letters and the sign between them -/
  | flags (span : Span) (marks : List Char)
  | atom (a : Atom)
  | set (s : SetTree)
  | repetition (span : Span) (body : Tree)
  /-- parentheses; `marks` set flags for the body -/
  | group (span : Span) (marks : List Char) (body : Tree)
  | alternation (span : Span) (branches : List Tree)
  | sequence (span : Span) (parts : List Tree)

def Tree.span : Tree → Span
  | .atom a => a.span
  | .set s => s.span
  | .empty s | .flags s _ | .repetition s _ | .group s _ _ | .alternation s _ | .sequence s _ => s

/-! ## Flags -/

/-- What the marks say about one flag: it is set, or taken away behind the sign. -/
def flag? (marks : List Char) (flag : Char) : Option Bool :=
  if marks.contains flag then some (!(marks.takeWhile (· != flag)).contains '-') else none

/-! ## Building -/

/-- Parts in a row, the last one first. A single part is no row. -/
def Tree.ofParts (span : Span) : (parts : List Tree) → Tree
  | [] => .empty span
  | [t] => t
  | parts => .sequence span parts.reverse

/-- Branches, the last one first. -/
def Tree.ofBranches (span : Span) : (branches : List Tree) → Tree
  | [t] => t
  | branches => .alternation span branches.reverse

/-- The members of a set that have been read, the last one first, and the stretch that they make
up. -/
structure Members where
  span : Span
  items : List SetTree

namespace Members

/-- No members yet, at a place. -/
def start (p : Position) : Members := ⟨.point p, []⟩

/-- One more member: the first one says where the stretch starts. -/
def push (m : Members) (s : SetTree) : Members :=
  ⟨⟨if m.items.isEmpty then s.span.start else m.span.start, s.span.stop⟩, s :: m.items⟩

/-- A single member is no union. -/
def toSet : Members → SetTree
  | ⟨span, []⟩ => .empty span
  | ⟨_, [s]⟩ => s
  | ⟨span, items⟩ => .union span items.reverse

end Members

/-- The operation of what stands on its left, if there is one, and on its right. -/
def SetTree.after (right : SetTree) : (left : Option SetTree) → SetTree
  | none => right
  | some left => .operation ⟨left.span.start, right.span.stop⟩ left right

end StreamConfig.Pattern
