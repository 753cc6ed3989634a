import StreamConfig.Schema.Field

/-! # Labels

A label names a component in logs and metrics. Labels consist of lower-case ASCII letters, digits
and underscores, do not start with an underscore and are unique in a document.

* `Label.isWellFormed` — the form of a label;
* `LabelBook` — the labels met so far in a document, each with the line of its first use;
* `LabelBook.lint` — one label value: what there is to report, and the book afterwards;
* `Label.field` — the field in which components carry their label.
-/

namespace StreamConfig

namespace Label

/-- The pattern that error texts name. -/
def pattern : String := "^[a-z0-9_]+$"

/-- A lower-case ASCII letter, a digit or an underscore. -/
def isLabelChar (c : Char) : Bool := c.isLower || c.isDigit || c == '_'

/-- A non-empty text of label characters that starts with no underscore. -/
def isWellFormed (label : String) : Bool :=
  label != "" && label.toList.head? != some '_' && label.toList.all isLabelChar

/-- What can be wrong with a label. -/
inductive Fault where
  | malformed
  | collision (label : String) (firstLine : Nat)
deriving DecidableEq, Repr

def Fault.message : Fault → String
  | .malformed =>
    "should match the regular expression /" ++ pattern ++ "/ and must not start with an underscore"
  | .collision label line =>
    "Label '" ++ label ++ "' collides with a previously defined label at line " ++ toString line

/-- Checks the form of a label; the empty text stands for no label and is accepted. -/
def validate (label : String) : Except Fault Unit :=
  if label = "" then .ok () else if isWellFormed label then .ok () else .error .malformed

end Label

/-- The labels met so far, each with the line of its first use. -/
abbrev LabelBook := List (String × Nat)

namespace LabelBook

/-- The line on which a label was first used. -/
def line? (book : LabelBook) (label : String) : Option Nat :=
  (book.find? fun e => e.1 == label).map (·.2)

/-- Checks one value that should be a label. A new label is entered into the book; a value that is
no text counts as no label. -/
def lint (book : LabelBook) (at' : Position) (v : Value) : List Finding × LabelBook :=
  let label := v.text?.getD ""
  if label = "" then ([], book)
  else match Label.validate label with
    | .error fault => ([⟨at', .error, "Invalid label '" ++ label ++ "': " ++ fault.message⟩], book)
    | .ok () =>
      match book.line? label with
      | some line => ([⟨at', .error, (Label.Fault.collision label line).message⟩], book)
      | none => ([], book ++ [(label, at'.line)])

end LabelBook

/-- The field for the label of a component. -/
def Label.field : Field :=
  (Field.string "label"
    "An optional label to use as an identifier for observability data such as metrics and logging.")
  |>.omitted .whenResource |>.since "3.44.0" |>.linted .label

end StreamConfig
