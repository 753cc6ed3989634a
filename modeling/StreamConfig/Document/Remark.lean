import StreamConfig.Document.Positions
import StreamConfig.Label
import StreamConfig.Text.Sorted

/-! # Remarks

A lint walk does not report findings at once: it leaves remarks, which speak of places instead of
positions and name the linters to run instead of running them. Remarks depend on the value alone.

`Remark.settle` turns remarks into findings: it looks positions up and runs the linters in the order
of the walk, so that labels are compared across the whole document.
-/

namespace StreamConfig

/-- What a lint walk has to say about a place. -/
inductive Remark where
  /-- something to report -/
  | finding (place : Pointer) (level : Level) (text : String)
  /-- a linter to run on a value -/
  | check (place : Pointer) (linter : Linter) (value : Value)

namespace Remark

def error (place : Pointer) (text : String) : Remark := .finding place .error text

def warning (place : Pointer) (text : String) : Remark := .finding place .warning text

end Remark

/-- Runs a linter on a value at a position. -/
def Linter.run (linter : Linter) (book : LabelBook) (at' : Position) (v : Value) :
    List Finding × LabelBook :=
  match linter with
  | .label => book.lint at' v
  | .report check => (check at' v, book)

/-- What one remark reports. -/
def Remark.report (ps : Positions) (book : LabelBook) : Remark → List Finding × LabelBook
  | .finding place level text => ([⟨ps.nearest place, level, text⟩], book)
  | .check place linter v => linter.run book (ps.nearest place) v

/-- What a list of remarks reports, in its order. -/
def Remark.settle (ps : Positions) : LabelBook → List Remark → List Finding
  | _, [] => []
  | book, r :: rest => (r.report ps book).1 ++ settle ps (r.report ps book).2 rest

/-- Findings by position; at one position in the order of the walk. -/
def Finding.inOrder (fs : List Finding) : List Finding :=
  Text.sortBy (fun a b => a.position.isBefore b.position) fs

end StreamConfig
