import StreamConfig.Pattern.Fault
import StreamConfig.Text.Pad

/-! # Faults shown in their pattern

A report shows the pattern, marks below each line what the fault is about, and says which rule is
broken. A pattern of several lines stands between rulers and has its lines numbered; what goes over
several lines is described in words.
-/

namespace StreamConfig.Pattern

/-- A row of marks below a line: each stretch is marked from its first column on, an empty one by a
single mark. -/
def marks (spans : List Span) : List Char :=
  spans.foldl (fun row s =>
    row ++ List.replicate (s.start.column - 1 - row.length) ' ' ++
      List.replicate (max 1 (s.stop.column - s.start.column)) '^') []

/-- A line behind its lead and, if there is something to mark in it, the marks below. -/
def markedLine (lead line : String) (spans : List Span) : String :=
  lead ++ line ++ "\n" ++
    if spans.isEmpty then ""
    else String.ofList (List.replicate lead.length ' ' ++ marks spans) ++ "\n"

/-- A line without the carriage return at its end. -/
def withoutReturn (line : String) : String :=
  if line.endsWith "\r" then (line.dropEnd 1).toString else line

/-- The lines that are shown, of the parts between line feeds: nothing is shown for the end of a
pattern behind its last line feed. -/
def shownLines : List String → List String
  | [] => []
  | [last] => if last == "" then [] else [last]
  | line :: rest => withoutReturn line :: shownLines rest

/-- A stretch over several lines in words. -/
def inWords (s : Span) : String :=
  "on line " ++ toString s.start.line ++ " (column " ++ toString s.start.column ++
    ") through line " ++ toString s.stop.line ++ " (column " ++ toString (s.stop.column - 1) ++
    ")\n"

/-- The ruler around a pattern of several lines. -/
def ruler : String := String.ofList (List.replicate 79 '~') ++ "\n"

/-- What is said about a fault in a pattern. -/
def Fault.report (f : Fault) (pattern : String) : String :=
  let lines := pattern.splitOn "\n"
  let spansIn := fun n => f.spans.filter fun s => s.isInLine && s.start.line == n
  let shown :=
    if lines.length = 1 then markedLine "    " pattern (spansIn 1)
    else
      let width := (toString lines.length).length
      let marked := (shownLines lines).zipIdx 1 |>.map fun (line, n) =>
        markedLine (Text.alignRight width (toString n) ++ ": ") line (spansIn n)
      let long := f.spans.filter fun s => !s.isInLine
      ruler ++ String.join marked ++ ruler ++ String.join (long.map inWords)
  "regex parse error:\n" ++ shown ++ "error: " ++ f.cause.message

end StreamConfig.Pattern
