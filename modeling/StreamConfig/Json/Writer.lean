import StreamConfig.Decimal.Notation
import StreamConfig.Text.Hex
import StreamConfig.Value.Basic

/-! # Writing JSON

`Json.compact` writes a value without any blanks; `Json.pretty` writes one entry or item a line,
indented by two spaces a level, and leaves empty arrays and objects closed.

A string escapes the double quote, the backslash and the controls below U+0020: five of them by a
letter, the others by four lower-case hexadecimal digits.
-/

namespace StreamConfig.Json

open StreamConfig.Decimal (Notation)

/-- A positive exponent carries its sign. -/
def numbers : Notation := ⟨true⟩

/-- One character inside a string literal. -/
def escaped (c : Char) : List Char :=
  match c with
  | '"' => ['\\', '"']
  | '\\' => ['\\', '\\']
  | '\x08' => ['\\', 'b']
  | '\x0c' => ['\\', 'f']
  | '\n' => ['\\', 'n']
  | '\r' => ['\\', 'r']
  | '\t' => ['\\', 't']
  | c =>
    if c.toNat < 0x20 then ['\\', 'u'] ++ Text.Hex.padded .lower 4 c.toNat
    else [c]

/-- A string literal. -/
def literal (s : String) : String := String.ofList ('"' :: (s.toList.flatMap escaped ++ ['"']))

def numberText : Number → String
  | .int n => toString n
  | .double x => if x.isFinite then numbers.render x else "null"

/-- Brackets around a list of pieces: closed if there are none, else each piece after `lead`, and
`tail` before the closing bracket. -/
def bracketed (opening closing lead tail : String) (pieces : List String) : String :=
  if pieces.isEmpty then opening ++ closing
  else opening ++ lead ++ String.intercalate ("," ++ lead) pieces ++ tail ++ closing

/-- How the pieces of an array or object are set apart. -/
structure Layout where
  /-- what stands before each piece and before the closing bracket, for a nesting depth -/
  lead : Nat → String
  /-- what stands between a key and its value -/
  colon : String

mutual
/-- A value at a nesting depth. -/
def written (l : Layout) (depth : Nat) : Value → String
  | .null => "null"
  | .bool b => if b then "true" else "false"
  | .number n => numberText n
  | .string s => literal s
  | .array items =>
    bracketed "[" "]" (l.lead (depth + 1)) (l.lead depth) (writtenItems l (depth + 1) items)
  | .object m =>
    bracketed "\x7b" "\x7d" (l.lead (depth + 1)) (l.lead depth) (writtenEntries l (depth + 1) m)

def writtenItems (l : Layout) (depth : Nat) : List Value → List String
  | [] => []
  | v :: rest => written l depth v :: writtenItems l depth rest

def writtenEntries (l : Layout) (depth : Nat) : List (String × Value) → List String
  | [] => []
  | (k, v) :: rest => (literal k ++ l.colon ++ written l depth v) :: writtenEntries l depth rest
end

/-- No blanks at all. -/
def compact (v : Value) : String := written ⟨fun _ => "", ":"⟩ 0 v

/-- A line for each piece, two spaces for each level. -/
def pretty (v : Value) : String :=
  written ⟨fun depth => "\n" ++ String.ofList (List.replicate (2 * depth) ' '), ": "⟩ 0 v

end StreamConfig.Json
