import StreamConfig.Decimal.Notation
import StreamConfig.Text.Hex
import StreamConfig.Yaml.Chars
import StreamConfig.Yaml.Scalar

/-! # Writing YAML

Values are written in block style: one entry or item a line, mappings indented by two columns, the
sequence under a key not indented, empty collections as `[]` and as braces.

A text is written in the first of these styles that keeps it as it is and does not change what it
means: plainly, between single quotes, between double quotes; a text with line feeds as a literal
block where one can stand. `Traits` gathers what the choice depends on.
-/

namespace StreamConfig.Yaml

/-! ## Which style a text takes -/

/-- Characters that are seen as themselves. -/
def isPrintable (c : Char) : Bool :=
  let n := c.toNat
  n == 0x0A || (0x20 ≤ n && n ≤ 0x7E) || (0xA0 ≤ n && n ≤ 0xD7FF) ||
    (0xE000 ≤ n && n ≤ 0xFFFD && n != 0xFEFF) || 0x10000 ≤ n

/-- What the style of a text depends on. -/
structure Traits where
  allowsPlain : Bool
  allowsSingle : Bool
  allowsBlock : Bool

/-- Whether some character of a text stands next to one of another class. -/
def hasPair (first second : Char → Bool) : List Char → Bool
  | a :: b :: rest => (first a && second b) || hasPair first second (b :: rest)
  | _ => false

/-- Whether a character inside a text could be taken for an indicator: a colon before a gap, or a
number sign after one. -/
def hasInnerMark (before : Option Char) : List Char → Bool
  | [] => false
  | c :: rest =>
    (c == ':' && isGap rest.head?) || (c == '#' && isGap before) || hasInnerMark (some c) rest

/-- Whether a text starts like something else than a plain text. -/
def startsWithMark (cs : List Char) : Bool :=
  match cs with
  | [] => false
  | c :: rest =>
    "#,[]\x7b\x7d&*!|>'\"%@\x60".toList.contains c ||
      ((c == '?' || c == ':' || c == '-') && isGap rest.head?) ||
      cs.take 3 == ['-', '-', '-'] || cs.take 3 == ['.', '.', '.']

def isSpace (c : Char) : Bool := c == ' '

def traits (cs : List Char) : Traits :=
  if cs.isEmpty then ⟨true, true, false⟩
  else
    let isMultiline := cs.any isBreak
    let spaceBreak := hasPair isSpace isBreak cs
    let breakSpace := hasPair isBreak isSpace cs
    let isOdd := spaceBreak || !cs.all isPrintable
    let isEdge : Char → Bool := fun c => isSpace c || isBreak c
    let edges := cs.head?.any isEdge || cs.getLast?.any isEdge
    let marks := startsWithMark cs || hasInnerMark none cs
    { allowsPlain := !(edges || breakSpace || isOdd || isMultiline || marks)
      allowsSingle := !(breakSpace || isOdd)
      allowsBlock := !(isOdd || cs.getLast?.any isSpace) }

/-- Whether a text would mean something else if it were written plainly. -/
def isMisread (s : String) : Bool :=
  s == "" || isNullText s || (bool? s).isSome ||
    (match fit s with
      | .none => false
      | _ => true) ||
    isZeroPadded s.toList || (doubleValue? s).isSome

/-- The styles of texts. -/
inductive Style where
  | plain
  | single
  | double
  | literal
deriving DecidableEq

/-- The style of a text; `isKey` if it stands in front of a colon on one line. -/
def style (isKey : Bool) (s : String) : Style :=
  let cs := s.toList
  let t := traits cs
  if cs.contains '\n' then
    if t.allowsBlock && !isKey then .literal else .double
  else if !isMisread s && t.allowsPlain then .plain
  else if t.allowsSingle then .single
  else .double

/-! ## Texts in their styles -/

def pad (n : Nat) : List Char := List.replicate n ' '

/-- Characters after which the next line is indented, in texts that may span lines: `atStart` while
nothing stands on the line yet. -/
def indented (indent : Nat) (write : Char → List Char) : (atStart : Bool) → List Char → List Char
  | _, [] => []
  | atStart, c :: rest =>
    if isBreak c then c :: indented indent write true rest
    else (if atStart then pad indent else []) ++ write c ++ indented indent write false rest

/-- A text between single quotes, in which quotes are written twice. -/
def single (indent : Nat) (cs : List Char) : List Char :=
  let body := indented indent (fun c => if c == '\'' then ['\'', '\''] else [c]) false cs
  let close := if cs.getLast?.any isBreak then pad indent ++ ['\''] else ['\'']
  '\'' :: body ++ close

/-- The letter that stands for a character after a backslash. -/
def escapeLetter? : Char → Option Char
  | '\x00' => some '0'
  | '\x07' => some 'a'
  | '\x08' => some 'b'
  | '\t' => some 't'
  | '\n' => some 'n'
  | '\x0b' => some 'v'
  | '\x0c' => some 'f'
  | '\r' => some 'r'
  | '\x1b' => some 'e'
  | '"' => some '"'
  | '\\' => some '\\'
  | '\u0085' => some 'N'
  | '\u00a0' => some '_'
  | '\u2028' => some 'L'
  | '\u2029' => some 'P'
  | _ => none

/-- One character between double quotes. -/
def doubleChar (c : Char) : List Char :=
  if isPrintable c && !isBreak c && c != '"' && c != '\\' then [c]
  else match escapeLetter? c with
    | some l => ['\\', l]
    | none =>
      let n := c.toNat
      if n ≤ 0xFF then '\\' :: 'x' :: Text.Hex.padded .upper 2 n
      else if n ≤ 0xFFFF then '\\' :: 'u' :: Text.Hex.padded .upper 4 n
      else '\\' :: 'U' :: Text.Hex.padded .upper 8 n

def double (cs : List Char) : List Char := '"' :: cs.flatMap doubleChar ++ ['"']

/-- The marks of a literal block: its indentation where the text does not show it, and what becomes
of the breaks at its end. -/
def literalMarks (cs : List Char) : List Char :=
  let indentation := if cs.head?.any fun c => c == ' ' || isBreak c then ['2'] else []
  let ending := match cs.reverse with
    | c :: d :: _ => if !isBreak c then ['-'] else if isBreak d then ['+'] else []
    | [c] => if isBreak c then ['+'] else ['-']
    | [] => ['-']
  indentation ++ ending

/-- A literal block with all its line breaks. -/
def literal (indent : Nat) (cs : List Char) : List Char :=
  '|' :: literalMarks cs ++ ['\n'] ++ indented indent (fun c => [c]) true cs

/-- A text in the style that it takes. -/
def textOf (isKey : Bool) (indent : Nat) (s : String) : List Char :=
  match style isKey s with
  | .plain => s.toList
  | .single => single indent s.toList
  | .double => double s.toList
  | .literal => literal indent s.toList

/-! ## Values -/

/-- A positive exponent carries no sign. -/
def numbers : Decimal.Notation := ⟨false⟩

def numberText : Number → String
  | .int n => toString n
  | .double x => if x.isFinite then numbers.render x else ".nan"

/-- A key stands in front of a colon on one line if it has no line breaks and at most 128 bytes. -/
def isShortKey (k : String) : Bool := !(k.toList.any isBreak) && k.utf8ByteSize ≤ 128

/-- Ends the line of a text, unless the text itself ends in a line break. -/
def ended (cs : List Char) : List Char := if cs.getLast?.any isBreak then cs else cs ++ ['\n']

/-- A scalar or an empty collection up to the end of its line; further lines are indented by
`indent`. -/
def flat? (indent : Nat) (v : Value) : Option (List Char) :=
  match v with
  | .null => some (ended "null".toList)
  | .bool b => some (ended (if b then "true".toList else "false".toList))
  | .number n => some (ended (numberText n).toList)
  | .string s => some (ended (textOf false indent s))
  | .array [] => some (ended ['[', ']'])
  | .object [] => some (ended ['\x7b', '\x7d'])
  | _ => none

mutual
/-- A value whose first line starts at the column `indent`. -/
def blockText (indent : Nat) : Value → List Char
  | .array items => itemsText indent items
  | .object es => entriesText indent es
  | v => (flat? (indent + 2) v).getD []

def itemsText (indent : Nat) : List Value → List Char
  | [] => []
  | v :: rest =>
    let item := match flat? (indent + 2) v with
      | some text => text
      | none => blockText (indent + 2) v
    '-' :: ' ' :: item ++ (if rest.isEmpty then [] else pad indent ++ itemsText indent rest)

def entriesText (indent : Nat) : List (String × Value) → List Char
  | [] => []
  | (k, v) :: rest =>
    let isShort := isShortKey k
    let key :=
      if isShort then textOf true (indent + 2) k ++ [':']
      else '?' :: ' ' :: ended (textOf false (indent + 2) k) ++ pad indent ++ [':']
    let value := match flat? (indent + 2) v with
      | some text => ' ' :: text
      | none =>
        if !isShort then ' ' :: blockText (indent + 2) v
        else match v with
          | .array items => '\n' :: pad indent ++ itemsText indent items
          | v => '\n' :: pad (indent + 2) ++ blockText (indent + 2) v
    key ++ value ++ (if rest.isEmpty then [] else pad indent ++ entriesText indent rest)
end

/-- The text of a value, up to the end of its last line. -/
def write (v : Value) : String :=
  String.ofList (match flat? 2 v with
    | some text => text
    | none => blockText 0 v)

end StreamConfig.Yaml
