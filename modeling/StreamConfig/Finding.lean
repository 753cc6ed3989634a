/-! # Findings

What a lint pass reports.

* `Position` — a line and a column, both counted from one, ordered line first;
* `Level` — how grave a finding is;
* `Finding` — a position, a level and a text.
-/

namespace StreamConfig

/-- A place in a source text. -/
structure Position where
  line : Nat
  column : Nat
deriving DecidableEq, Repr

namespace Position

/-- Where a text starts. -/
def origin : Position := ⟨1, 1⟩

/-- The place behind a character. -/
def after (p : Position) (c : Char) : Position :=
  if c = '\n' then ⟨p.line + 1, 1⟩ else ⟨p.line, p.column + 1⟩

/-- Strictly earlier in the text. -/
def isBefore (p q : Position) : Bool :=
  decide (p.line < q.line) || (p.line == q.line && decide (p.column < q.column))

end Position

/-- Only errors make a lint run fail. -/
inductive Level where
  | warning
  | error
deriving DecidableEq, Repr

def Level.name : Level → String
  | .warning => "warning"
  | .error => "error"

/-- One problem at one place. -/
structure Finding where
  position : Position
  level : Level
  text : String
deriving DecidableEq, Repr

namespace Finding

def isError (f : Finding) : Bool := f.level == .error

/-- The short form, which names the line only. -/
def brief (f : Finding) : String :=
  "line " ++ toString f.position.line ++ ": " ++ f.level.name ++ ": " ++ f.text

end Finding

end StreamConfig
