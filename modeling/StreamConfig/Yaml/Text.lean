import StreamConfig.Text.Hex
import StreamConfig.Yaml.Chars

/-! # Texts of YAML scalars

A scalar may be written plainly, between quotes, or as a block; each style has its own rules for
line breaks inside the text. The readers here start at the first character of a scalar and give its
text and the place behind it, or `none` if the text is malformed.

* `Gap` — the blanks and line breaks between two words of a plain or quoted text, and what they are
  folded into;
* `plainText?`, `quotedText?`, `blockText?` — the readers.
-/

namespace StreamConfig.Yaml

/-! ## Gaps -/

/-- Blanks and line breaks between two words. -/
structure Gap where
  /-- the blanks before the first line break -/
  blanks : List Char
  /-- the first line break -/
  first : List Char
  /-- the other line breaks -/
  others : List Char
  isBroken : Bool

namespace Gap

def empty : Gap := ⟨[], [], [], false⟩

/-- A gap whose first line break does not count, since it is escaped. -/
def escaped : Gap := ⟨[], [], [], true⟩

/-- What a gap counts as: blanks stand for themselves; one line feed is a space, and of several the
first is dropped. -/
def folded (g : Gap) : List Char :=
  if g.isBroken then
    if g.first == ['\n'] then (if g.others.isEmpty then [' '] else g.others)
    else g.first ++ g.others
  else g.blanks

/-- Reads on through blanks and line breaks. Where `minColumn` is given, a tab on a later line must
not stand in front of that column. -/
def read (minColumn : Nat) : (steps : Nat) → Gap → Place → Option (Gap × Place)
  | 0, g, p => some (g, p)
  | steps + 1, g, p =>
    match p.here with
    | none => some (g, p)
    | some c =>
      if isBlank c then
        if g.isBroken && p.column < minColumn && c == '\t' then none
        else
          let g := if g.isBroken then g else { g with blanks := g.blanks ++ [c] }
          read minColumn steps g (p.skip 1)
      else if isBreak c then
        let (b, p) := p.lineBreak
        let g := if g.isBroken then { g with others := g.others ++ b } else ⟨[], b, [], true⟩
        read minColumn steps g p
      else some (g, p)

end Gap

/-! ## Plain texts -/

/-- The characters that structure flow collections. -/
def isFlowMark (c : Char) : Bool :=
  c == ',' || c == '[' || c == ']' || c == '\x7b' || c == '\x7d'

/-- How many characters of a plain word come next. A colon before a gap ends it, and inside a flow
collection so does any mark of one; there, a colon right before such a mark is an error. -/
def wordLength? (inFlow : Bool) : List Char → Option Nat
  | [] => some 0
  | c :: rest =>
    if isBlank c || isBreak c then some 0
    else if inFlow && c == ':' && rest.head?.any (fun d => isFlowMark d || d == '?') then none
    else if (c == ':' && isGap rest.head?) || (inFlow && isFlowMark c) then some 0
    else (wordLength? inFlow rest).map (· + 1)

/-- A plain text: what it says, whether a line break was read after its last word, and the place
behind it. -/
structure Plain where
  text : List Char
  isBroken : Bool
  place : Place

/-- Reads on through words and gaps; `gap` stands before the next word. -/
def plainWords (inFlow : Bool) (minColumn : Nat) :
    (steps : Nat) → (text : List Char) → (gap : Gap) → Place → Option Plain
  | 0, _, _, _ => none
  | steps + 1, text, gap, p =>
    if p.isAtDocumentMarker || p.isAt '#' then some ⟨text, gap.isBroken, p⟩
    else
      match wordLength? inFlow p.rest with
      | none => none
      | some n =>
        let word := p.rest.take n
        let text := if n == 0 then text else text ++ gap.folded ++ word
        let gap := if n == 0 then gap else Gap.empty
        let p := p.skip n
        if p.isAtBlank || p.isAtBreak then
          match gap.read minColumn (p.rest.length + 1) p with
          | none => none
          | some (gap, p) =>
            if !inFlow && p.column < minColumn then some ⟨text, gap.isBroken, p⟩
            else plainWords inFlow minColumn steps text gap p
        else some ⟨text, gap.isBroken, p⟩

/-- A plain text; outside flow collections its lines are indented at least to `minColumn`. -/
def plainText? (inFlow : Bool) (minColumn : Nat) (p : Place) : Option Plain :=
  plainWords inFlow minColumn (p.rest.length + 1) [] Gap.empty p

/-! ## Quoted texts -/

/-- What a character after a backslash stands for. -/
def escapeChar? : Char → Option Char
  | '0' => some '\x00'
  | 'a' => some '\x07'
  | 'b' => some '\x08'
  | 't' => some '\t'
  | '\t' => some '\t'
  | 'n' => some '\n'
  | 'v' => some '\x0b'
  | 'f' => some '\x0c'
  | 'r' => some '\r'
  | 'e' => some '\x1b'
  | ' ' => some ' '
  | '"' => some '"'
  | '/' => some '/'
  | '\\' => some '\\'
  | 'N' => some '\u0085'
  | '_' => some '\u00a0'
  | 'L' => some '\u2028'
  | 'P' => some '\u2029'
  | _ => none

/-- How many hexadecimal digits follow a character after a backslash. -/
def escapeWidth? : Char → Option Nat
  | 'x' => some 2
  | 'u' => some 4
  | 'U' => some 8
  | _ => none

/-- The character of a code point; surrogates and codes beyond the last plane have none. -/
def charOfCode? (n : Nat) : Option Char :=
  if (0xD800 ≤ n && n ≤ 0xDFFF) || 0x10FFFF < n then none else some (Char.ofNat n)

/-- The character that an escape stands for and the number of characters of the escape. -/
def escape? (cs : List Char) : Option (Char × Nat) :=
  match cs with
  | [] => none
  | c :: rest =>
    match escapeWidth? c with
    | some width =>
      if (rest.take width).length = width then do
        let code ← Text.Hex.number? (rest.take width)
        let d ← charOfCode? code
        return (d, width + 2)
      else none
    | none => (escapeChar? c).map (·, 2)

/-- How the words of a quoted text end. -/
inductive QuotedStop where
  /-- at the closing quote -/
  | closing
  /-- at a gap -/
  | gap
  /-- behind a backslash at the end of a line -/
  | escapedBreak

/-- Characters up to the next gap or the closing quote, last first in `done`. -/
def quotedWord? (quote : Char) : (steps : Nat) → (done : List Char) → Place →
    Option (List Char × QuotedStop × Place)
  | 0, _, _ => none
  | steps + 1, done, p =>
    match p.rest with
    | [] => some (done.reverse, .gap, p)
    | c :: rest =>
      if isBlank c || isBreak c then some (done.reverse, .gap, p)
      else if quote == '\'' && c == '\'' && rest.head? == some '\'' then
        quotedWord? quote steps ('\'' :: done) (p.skip 2)
      else if c == quote then some (done.reverse, .closing, p)
      else if quote == '"' && c == '\\' then
        if rest.head?.any isBreak then some (done.reverse, .escapedBreak, ((p.skip 1).lineBreak).2)
        else
          match escape? rest with
          | none => none
          | some (d, width) => quotedWord? quote steps (d :: done) (p.skip width)
      else quotedWord? quote steps (c :: done) (p.skip 1)

/-- Reads on through words and gaps up to the closing quote. -/
def quotedWords (quote : Char) : (steps : Nat) → (text : List Char) → Place →
    Option (List Char × Place)
  | 0, _, _ => none
  | steps + 1, text, p =>
    if p.isAtDocumentMarker || p.rest.isEmpty then none
    else
      match quotedWord? quote (p.rest.length + 1) [] p with
      | none => none
      | some (word, stop, p) =>
        let text := text ++ word
        match stop with
        | .closing => some (text, p.skip 1)
        | .gap | .escapedBreak =>
          let gap := match stop with
            | .escapedBreak => Gap.escaped
            | _ => Gap.empty
          if p.isAt quote then some (text, p.skip 1)
          else
            match gap.read 0 (p.rest.length + 1) p with
            | none => none
            | some (gap, p) => quotedWords quote steps (text ++ gap.folded) p

/-- A quoted text, the place being at the opening quote. -/
def quotedText? (quote : Char) (p : Place) : Option (List Char × Place) :=
  quotedWords quote (p.rest.length + 1) [] (p.skip 1)

/-! ## Block texts -/

/-- What happens to the line breaks at the end of a block. -/
inductive Chomp where
  | strip
  | clip
  | keep
deriving DecidableEq

def chomp? : Option Char → Option Chomp
  | some '+' => some .keep
  | some '-' => some .strip
  | _ => none

/-- A digit from one to nine; zero is malformed. -/
def increment? (p : Place) : Option (Option Nat) :=
  match p.here with
  | some c => if c == '0' then none else if c.isDigit then some (some (c.toNat - 48)) else some none
  | none => some none

/-- The marks of a block in either order: what to chomp, and how far the text is indented. -/
def blockMarks? (p : Place) : Option (Chomp × Option Nat × Place) :=
  match chomp? p.here with
  | some chomp =>
    match increment? (p.skip 1) with
    | none => none
    | some none => some (chomp, none, p.skip 1)
    | some (some n) => some (chomp, some n, p.skip 2)
  | none =>
    match increment? p with
    | none => none
    | some none => some (.clip, none, p)
    | some (some n) =>
      match chomp? ((p.skip 1).here) with
      | some chomp => some (chomp, some n, p.skip 2)
      | none => some (.clip, some n, p.skip 1)

/-- Passes over indentation and empty lines. `indent` is the indentation of the text, zero while it
is not known; gives the line breaks, the deepest indentation met, and the place. A tab in the
indentation is an error. -/
def blockBreaks (indent : Nat) : (steps : Nat) → (breaks : List Char) → (deepest : Nat) → Place →
    Option (List Char × Nat × Place)
  | 0, _, _, _ => none
  | steps + 1, breaks, deepest, p =>
    let spaces := (p.rest.takeWhile (· == ' ')).length
    let p := p.skip (if indent == 0 then spaces else min spaces (indent - p.column))
    let deepest := max deepest p.column
    if (indent == 0 || p.column < indent) && p.isAt '\t' then none
    else if p.isAtBreak then
      let (b, p) := p.lineBreak
      blockBreaks indent steps (breaks ++ b) deepest p
    else some (breaks, deepest, p)

/-- A block's text with the line breaks that have not been used yet. -/
structure Block where
  text : List Char
  /-- the line break after the last line -/
  last : List Char
  /-- the line breaks of the empty lines after it -/
  empty : List Char
  /-- the last line starts with a blank -/
  isIndented : Bool

/-- Appends one line: in a folded block a line feed between two lines that do not start with blanks
becomes a space, or nothing if empty lines stand between them. -/
def Block.push (b : Block) (isLiteral : Bool) (line : List Char) : Block :=
  let isIndented := line.head?.any isBlank
  let joint :=
    if !isLiteral && b.last == ['\n'] && !b.isIndented && !isIndented then
      (if b.empty.isEmpty then [' '] else [])
    else b.last
  { b with text := b.text ++ joint ++ b.empty ++ line, last := [], empty := [], isIndented }

/-- Reads the lines of a block that are indented by `indent`. -/
def blockLines (isLiteral : Bool) (indent : Nat) : (steps : Nat) → Block → Place →
    Option (Block × Place)
  | 0, _, _ => none
  | steps + 1, b, p =>
    if p.column == indent && !p.rest.isEmpty then
      let (line, p) := p.span fun c => !isBreak c
      let (last, p) := p.lineBreak
      match blockBreaks indent (p.rest.length + 1) [] 0 p with
      | none => none
      | some (empty, _, p) =>
        blockLines isLiteral indent steps { b.push isLiteral line with last, empty } p
    else some (b, p)

/-- A block text, the place being at its indicator. `parent` is the column of the collection around
it, none at the top. -/
def blockText? (isLiteral : Bool) (parent : Option Nat) (p : Place) :
    Option (List Char × Place) := do
  let (chomp, increment, p) ← blockMarks? (p.skip 1)
  let p := p.skipBlanks.skipComment
  if !(p.rest.isEmpty || p.isAtBreak) then none
  else
    let p := p.lineBreak.2
    let known := increment.map fun n => parent.getD 0 + n
    let (empty, deepest, p) ← blockBreaks (known.getD 0) (p.rest.length + 1) [] 0 p
    let indent := known.getD (max deepest (match parent with
      | some n => n + 1
      | none => 1))
    let (b, p) ← blockLines isLiteral indent (p.rest.length + 1) ⟨[], [], empty, false⟩ p
    let tail := match chomp with
      | .strip => []
      | .clip => b.last
      | .keep => b.last ++ b.empty
    return (b.text ++ tail, p)

end StreamConfig.Yaml
