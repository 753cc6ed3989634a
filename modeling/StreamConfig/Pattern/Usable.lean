import StreamConfig.Pattern.Reader
import StreamConfig.Pattern.Report

/-! # Patterns that can be used

A pattern that can be read may still be out of bounds: its levels lie too deep, or it asks for
something that cannot be had. It works on texts of Unicode characters, and a flag (`u`, taken away
by `-u`) decides whether classes are meant of characters or of bytes; what might match half a
character is refused. Boundaries of words in Unicode are well-formed, but are not supported.

* `Tree.tooDeep?` — the first part that lies too deep;
* `Tree.check` — the parts that mean something else, or nothing, without the flag;
* `check` — whether a pattern can be used, and if not, why.
-/

namespace StreamConfig.Pattern

/-! ## Levels -/

/-- One level more: `room` levels are left at its outside. -/
def level (span : Span) (inside : Nat → Option Span) : (room : Nat) → Option Span
  | 0 => some span
  | room + 1 => inside room

mutual

/-- The first part of a set that lies too deep, outer ones before inner ones. -/
def SetTree.tooDeep? (room : Nat) : SetTree → Option Span
  | .set span _ contents => level span (fun room => contents.tooDeep? room) room
  | .union span items => level span (fun room => SetTree.anyTooDeep? room items) room
  | .operation span left right =>
    level span (fun room => (left.tooDeep? room).or (right.tooDeep? room)) room
  | _ => none

def SetTree.anyTooDeep? (room : Nat) : List SetTree → Option Span
  | [] => none
  | s :: rest => (s.tooDeep? room).or (SetTree.anyTooDeep? room rest)

end

mutual

/-- The first part that lies too deep, outer ones before inner ones. -/
def Tree.tooDeep? (room : Nat) : Tree → Option Span
  | .empty _ | .flags _ _ | .atom _ => none
  | .set s => s.tooDeep? room
  | .repetition span body => level span (fun room => body.tooDeep? room) room
  | .group span _ body => level span (fun room => body.tooDeep? room) room
  | .alternation span branches => level span (fun room => Tree.anyTooDeep? room branches) room
  | .sequence span parts => level span (fun room => Tree.anyTooDeep? room parts) room

def Tree.anyTooDeep? (room : Nat) : List Tree → Option Span
  | [] => none
  | t :: rest => (t.tooDeep? room).or (Tree.anyTooDeep? room rest)

end

/-! ## Characters and bytes -/

/-- What is known at a place of a pattern that is looked through from left to right. -/
structure Modes where
  /-- classes are meant of characters -/
  isUnicode : Bool
  /-- a boundary of words in Unicode has been met -/
  hasBoundary : Bool

abbrev Check := StateT Modes (Except Fault)

/-- A fault, unless classes are meant of characters. -/
def unicodeOnly (cause : Cause) (span : Span) : Check Unit := do
  if !(← get).isUnicode then throw ⟨cause, span, none⟩

/-- The properties that have a name of one letter: the groups of general categories. -/
def propertyNames : List Char := ['c', 'l', 'm', 'n', 'p', 's', 'z']

/-- A property needs a known name, in either case. -/
def checkProperty (span : Span) (name : List Char) : Check Unit := do
  unicodeOnly .notUnicode span
  if !(propertyNames.map ([·])).contains (name.map Char.toLower) then
    throw ⟨.propertyUnknown, span, none⟩

/-- All but the characters of a class would include bytes that are no characters. -/
def checkNegated (span : Span) (isNegated : Bool) : Check Unit := do
  if isNegated then unicodeOnly .invalidText span

def Atom.check : Atom → Check Unit
  | .literal l => if l.isByte && 127 < l.char.toNat then unicodeOnly .invalidText l.span else return
  | .any span => unicodeOnly .invalidText span
  | .assertion _ isBoundary =>
    modify fun m => { m with hasBoundary := m.hasBoundary || (isBoundary && m.isUnicode) }
  | .shorthand span isNegated => checkNegated span isNegated
  | .property span name => checkProperty span name

/-- A class of bytes holds no characters beyond ASCII. -/
def Literal.checkMember (l : Literal) : Check Unit := do
  if 127 < l.char.toNat then
    unicodeOnly (if l.isByte then .invalidText else .notUnicode) l.span

mutual

def SetTree.check : SetTree → Check Unit
  | .empty _ => return
  | .literal l => l.checkMember
  | .range first last => do
    first.checkMember
    last.checkMember
  | .named span isNegated | .shorthand span isNegated => checkNegated span isNegated
  | .property span name => checkProperty span name
  | .set span isNegated contents => do
    contents.check
    checkNegated span isNegated
  | .union _ items => SetTree.checkAll items
  | .operation _ left right => do
    left.check
    right.check

def SetTree.checkAll : List SetTree → Check Unit
  | [] => return
  | s :: rest => do
    s.check
    SetTree.checkAll rest

end

/-- Sets whether classes are meant of characters, if the marks say so. -/
def mean (marks : List Char) : Check Unit :=
  modify fun m => { m with isUnicode := (flag? marks 'u').getD m.isUnicode }

mutual

/-- What flags say about classes ends with their group. -/
def Tree.check : Tree → Check Unit
  | .empty _ => return
  | .flags _ marks => mean marks
  | .atom a => a.check
  | .set s => s.check
  | .repetition _ body => body.check
  | .group _ marks body => do
    let isUnicode := (← get).isUnicode
    mean marks
    body.check
    modify fun m => { m with isUnicode }
  | .alternation _ parts | .sequence _ parts => Tree.checkAll parts

def Tree.checkAll : List Tree → Check Unit
  | [] => return
  | t :: rest => do
    t.check
    Tree.checkAll rest

end

/-! ## Patterns -/

/-- Why a pattern cannot be used. -/
inductive Refusal where
  /-- a rule is broken, as the report says -/
  | malformed (report : String)
  /-- there is a boundary of words in Unicode -/
  | boundary
deriving DecidableEq, Repr

/-- Looks through a pattern: whether there is a boundary of words in Unicode. -/
def examine (pattern : List Char) : Except Fault Bool := do
  let t ← read pattern
  match t.tooDeep? maxDepth with
  | some span => throw ⟨.tooDeep, span, none⟩
  | none =>
    let (_, modes) ← t.check.run ⟨true, false⟩
    return modes.hasBoundary

/-- Whether a pattern can be used. -/
def check (pattern : List Char) : Except Refusal Unit :=
  match examine pattern with
  | .error f => .error (.malformed (f.report (String.ofList pattern)))
  | .ok true => .error .boundary
  | .ok false => .ok ()

end StreamConfig.Pattern
