import StreamConfig.Yaml.Text

/-! # Tokens of YAML

The stream is cut into tokens in one pass. Two things are not local:

* indentation outside flow collections opens and closes block collections (`rollTo`, `unrollTo`);
* a scalar, alias or flow collection turns out to be a key only when a colon follows. The place of a
  possible key is remembered, one for each level of flow collections, and the tokens that should
  have stood before it are inserted later. A possible key is given up at the end of its line or
  after 1024 bytes.
-/

namespace StreamConfig.Yaml

/-- The units that documents are made of. -/
inductive Token where
  | version (major minor : Nat)
  | tagHandle (handle text : String)
  | documentStart
  | documentEnd
  | blockSequence
  | blockMapping
  | blockEnd
  | flowSequence
  | flowSequenceEnd
  | flowMapping
  | flowMappingEnd
  | blockEntry
  | flowEntry
  | key
  | value
  | alias (name : String)
  | anchor (name : String)
  | tag (handle suffix : String)
  | scalar (isPlain : Bool) (text : String)
  | streamEnd
deriving DecidableEq, Repr

/-- A place at which a key may have started. -/
structure PossibleKey where
  /-- nothing but a key can stand here -/
  isRequired : Bool
  /-- the number of tokens before it -/
  number : Nat
  index : Nat
  line : Nat
  column : Nat

/-- How far the pass has come. -/
structure Lexer where
  place : Place
  /-- the tokens so far, the latest first -/
  done : List Token
  /-- the column of the innermost block collection -/
  indent : Option Nat
  /-- the columns of the collections around it -/
  outerIndents : List (Option Nat)
  /-- a key may start here -/
  keyAllowed : Bool
  /-- the possible key of this flow level -/
  possible : Option PossibleKey
  /-- the possible keys of the flow levels around -/
  outerPossible : List (Option PossibleKey)

namespace Lexer

def start (cs : List Char) : Lexer :=
  { place := Place.start cs
    done := []
    indent := none
    outerIndents := []
    keyAllowed := true
    possible := none
    outerPossible := [] }

def inFlow (l : Lexer) : Bool := !l.outerPossible.isEmpty

def push (l : Lexer) (t : Token) : Lexer := { l with done := t :: l.done }

/-- Pushes a token of some characters. -/
def take (l : Lexer) (count : Nat) (t : Token) : Lexer :=
  { l with place := l.place.skip count, done := t :: l.done }

/-- Inserts a token so that `number` tokens stand before it. -/
def insert (l : Lexer) (number : Nat) (t : Token) : Lexer :=
  let after := l.done.length - number
  { l with done := l.done.take after ++ t :: l.done.drop after }

/-- The column `column` is deeper than the innermost block collection. -/
def isDeeper (l : Lexer) (column : Nat) : Bool :=
  match l.indent with
  | none => true
  | some n => n < column

/-- Opens a block collection at a column if it lies deeper than the innermost one. -/
def rollTo (l : Lexer) (column number : Nat) (t : Token) : Lexer :=
  if l.inFlow || !l.isDeeper column then l
  else
    { l.insert number t with indent := some column, outerIndents := l.indent :: l.outerIndents }

/-- Closes the block collections deeper than a column; all of them if there is none. -/
def unrollTo (column : Option Nat) : (steps : Nat) → Lexer → Lexer
  | 0, l => l
  | steps + 1, l =>
    match l.indent with
    | none => l
    | some n =>
      if l.inFlow || column.any (n ≤ ·) then l
      else
        unrollTo column steps
          { l.push .blockEnd with
            indent := l.outerIndents.head?.getD none
            outerIndents := l.outerIndents.drop 1 }

def unroll (l : Lexer) (column : Option Nat) : Lexer :=
  unrollTo column (l.outerIndents.length + 1) l

/-! ## Possible keys -/

/-- Gives a possible key up if the pass has left its line or gone more than 1024 bytes beyond its
start. -/
def expire (p : Place) : Option PossibleKey → Option (Option PossibleKey)
  | none => some none
  | some k =>
    if k.line < p.line || k.index + 1024 < p.index then
      if k.isRequired then none else some none
    else some (some k)

def expireAll (l : Lexer) : Option Lexer := do
  let possible ← expire l.place l.possible
  let outerPossible ← l.outerPossible.mapM (expire l.place)
  return { l with possible, outerPossible }

/-- Gives up the possible key of this level. -/
def dropKey (l : Lexer) : Option Lexer :=
  if l.possible.any (·.isRequired) then none else some { l with possible := none }

/-- Remembers that a key may start here. -/
def saveKey (l : Lexer) : Option Lexer :=
  if l.keyAllowed then do
    let l' ← l.dropKey
    let p := l.place
    let isRequired := !l.inFlow && l.indent == some p.column
    return { l' with possible := some ⟨isRequired, l.done.length, p.index, p.line, p.column⟩ }
  else some l

/-! ## Indicators -/

/-- Passes over blanks, comments and line breaks up to the next token. Outside flow collections a
new line allows a key, and where a key is allowed a tab is no blank. -/
def skipToToken : (steps : Nat) → Lexer → Lexer
  | 0, l => l
  | steps + 1, l =>
    let p := l.place
    let p := if p.column == 0 && p.isAt '\uFEFF' then p.skip 1 else p
    let tabs := l.inFlow || !l.keyAllowed
    let p := (p.span fun c => c == ' ' || (tabs && c == '\t')).2
    let p := p.skipComment
    if p.isAtBreak then
      skipToToken steps
        { l with place := p.lineBreak.2, keyAllowed := l.keyAllowed || !l.inFlow }
    else { l with place := p }

/-- The end of the stream closes everything. -/
def streamEnd (l : Lexer) : Option Lexer := do
  let l ← (l.unroll none).dropKey
  return { l.push .streamEnd with keyAllowed := false }

/-- A line that starts or ends a document closes everything before it. -/
def documentMarker (l : Lexer) (t : Token) : Option Lexer := do
  let l ← (l.unroll none).dropKey
  return { l.take 3 t with keyAllowed := false }

def flowStart (l : Lexer) (t : Token) : Option Lexer := do
  let l ← l.saveKey
  return { l.take 1 t with
    keyAllowed := true
    possible := none
    outerPossible := l.possible :: l.outerPossible }

def flowEnd (l : Lexer) (t : Token) : Option Lexer := do
  let l ← l.dropKey
  return { l.take 1 t with
    keyAllowed := false
    possible := l.outerPossible.head?.getD none
    outerPossible := l.outerPossible.drop 1 }

def flowEntry (l : Lexer) : Option Lexer := do
  let l ← l.dropKey
  return { l.take 1 .flowEntry with keyAllowed := true }

def blockEntry (l : Lexer) : Option Lexer := do
  if !l.inFlow && !l.keyAllowed then none
  else
    let l ← (l.rollTo l.place.column l.done.length .blockSequence).dropKey
    return { l.take 1 .blockEntry with keyAllowed := true }

def explicitKey (l : Lexer) : Option Lexer := do
  if !l.inFlow && !l.keyAllowed then none
  else
    let l ← (l.rollTo l.place.column l.done.length .blockMapping).dropKey
    return { l.take 1 .key with keyAllowed := !l.inFlow }

/-- A colon: it makes a key of what the possible key remembers, or else follows an explicit key. -/
def value (l : Lexer) : Option Lexer :=
  match l.possible with
  | some k =>
    let l := (l.insert k.number .key).rollTo k.column k.number .blockMapping
    some { l.take 1 .value with possible := none, keyAllowed := false }
  | none =>
    if !l.inFlow && !l.keyAllowed then none
    else
      let l := l.rollTo l.place.column l.done.length .blockMapping
      some { l.take 1 .value with keyAllowed := !l.inFlow }

/-! ## Directives, anchors and tags -/

/-- A decimal number of at most nine digits. -/
def number? (p : Place) : Option (Nat × Place) :=
  let (digits, p) := p.span Char.isDigit
  if digits.isEmpty || 9 < digits.length then none
  else some (digits.foldl (fun n c => n * 10 + (c.toNat - 48)) 0, p)

/-- The character whose bytes a row of escapes in a tag spells, like `%C3%A9`, and the number of
characters of the row. A row of the right form that spells no character counts as U+FFFD. -/
def uriEscape? (cs : List Char) : Option (Char × Nat) := do
  let byte? : List Char → Option Nat := fun cs =>
    match cs with
    | '%' :: a :: b :: _ => Text.Hex.number? [a, b]
    | _ => none
  let first ← byte? cs
  let (count, high) ←
    if first < 0x80 then some (0, first)
    else if first / 0x20 = 6 then some (1, first % 0x20)
    else if first / 0x10 = 14 then some (2, first % 0x10)
    else if first / 0x08 = 30 then some (3, first % 0x08)
    else none
  let code ← (List.range count).foldlM (fun n i => do
    let byte ← byte? (cs.drop (3 * (i + 1)))
    if byte / 0x40 = 2 then some (n * 0x40 + byte % 0x40) else none) high
  return ((charOfCode? code).getD '\uFFFD', 3 * (count + 1))

/-- A character of a tag; inside angle brackets the marks `,`, `[` and `]` belong to it too. -/
def isUriChar (isVerbatim : Bool) (c : Char) : Bool :=
  isWordChar c || ";/?:@&=+$.%!~*'()".toList.contains c || (isVerbatim && ",[]".toList.contains c)

/-- The characters of a tag, escapes resolved. -/
def uri? (isVerbatim : Bool) : (steps : Nat) → (done : List Char) → Place →
    Option (List Char × Place)
  | 0, _, _ => none
  | steps + 1, done, p =>
    match p.here with
    | none => some (done.reverse, p)
    | some c =>
      if !isUriChar isVerbatim c then some (done.reverse, p)
      else if c == '%' then
        match uriEscape? p.rest with
        | none => none
        | some (d, width) => uri? isVerbatim steps (d :: done) (p.skip width)
      else uri? isVerbatim steps (c :: done) (p.skip 1)

/-- The handle of a tag: an exclamation mark, a word, and maybe another exclamation mark. -/
def handle? (p : Place) : Option (List Char × Place) :=
  if p.isAt '!' then
    let (word, p) := (p.skip 1).span isWordChar
    if p.isAt '!' then some ('!' :: word ++ ['!'], p.skip 1) else some ('!' :: word, p)
  else none

/-- A tag in one of its three forms: between angle brackets, with a handle, or without. -/
def tag? (p : Place) : Option (Token × Place) :=
  if p.ahead 1 == some '<' then do
    let (suffix, p) ← uri? true (p.rest.length + 1) [] (p.skip 2)
    if suffix.isEmpty || !p.isAt '>' then none
    else some (.tag "" (String.ofList suffix), p.skip 1)
  else do
    let (handle, p) ← handle? p
    if 2 ≤ handle.length && handle.getLast? == some '!' then
      let (suffix, p) ← uri? false (p.rest.length + 1) [] p
      if suffix.isEmpty then none
      else some (.tag (String.ofList handle) (String.ofList suffix), p)
    else
      let (more, p) ← uri? false (p.rest.length + 1) [] p
      match handle.drop 1 ++ more with
      | [] => some (.tag "" "!", p)
      | suffix => some (.tag "!" (String.ofList suffix), p)

/-- A tag ends at a gap, or inside a flow collection at a comma. -/
def tag (l : Lexer) : Option Lexer := do
  let l ← l.saveKey
  let (t, p) ← tag? l.place
  if (l.inFlow && p.isAt ',') || isGap p.here then
    some { l with place := p, done := t :: l.done, keyAllowed := false }
  else none

/-- A name after `&` or `*`. -/
def anchor (l : Lexer) (make : String → Token) : Option Lexer := do
  let l ← l.saveKey
  let (name, p) := (l.place.skip 1).span isWordChar
  let isClosed := isGap p.here || p.here.any fun c => "?:,]\x7d%@\x60".toList.contains c
  if name.isEmpty || !isClosed then none
  else some { l with place := p, done := make (String.ofList name) :: l.done, keyAllowed := false }

/-- The contents of a directive line after the percent sign. -/
def directive? (p : Place) : Option (Token × Place) := do
  let (name, p) := p.span isWordChar
  if !isGap p.here then none
  else if name == ['Y', 'A', 'M', 'L'] then
    let (major, p) ← number? p.skipBlanks
    if !p.isAt '.' then none
    else
      let (minor, p) ← number? (p.skip 1)
      return (.version major minor, p)
  else if name == ['T', 'A', 'G'] then
    let (handle, p) ← handle? p.skipBlanks
    if !(handle == ['!'] || handle.getLast? == some '!') || !p.isAtBlank then none
    else
      let (text, p) ← uri? true (p.rest.length + 1) [] p.skipBlanks
      if text.isEmpty || !isGap p.here then none
      else some (.tagHandle (String.ofList handle) (String.ofList text), p)
  else none

/-- A directive line. -/
def directive (l : Lexer) : Option Lexer := do
  let l ← (l.unroll none).dropKey
  let (t, p) ← directive? (l.place.skip 1)
  let p := p.skipBlanks.skipComment
  if p.rest.isEmpty || p.isAtBreak then
    some { l with place := p.lineBreak.2, done := t :: l.done, keyAllowed := false }
  else none

/-! ## Scalars -/

def quotedScalar (l : Lexer) (quote : Char) : Option Lexer := do
  let l ← l.saveKey
  let (text, p) ← quotedText? quote l.place
  return { l with
    place := p
    done := .scalar false (String.ofList text) :: l.done
    keyAllowed := false }

def plainScalar (l : Lexer) : Option Lexer := do
  let l ← l.saveKey
  let t ← plainText? l.inFlow (match l.indent with
    | some n => n + 1
    | none => 0) l.place
  return { l with
    place := t.place
    done := .scalar true (String.ofList t.text) :: l.done
    keyAllowed := t.isBroken }

def blockScalar (l : Lexer) (isLiteral : Bool) : Option Lexer := do
  let l ← l.dropKey
  let (text, p) ← blockText? isLiteral l.indent l.place
  return { l with
    place := p
    done := .scalar false (String.ofList text) :: l.done
    keyAllowed := true }

/-! ## The pass -/

/-- Characters that can start a plain scalar wherever they stand. -/
def startsPlain (c : Char) : Bool :=
  !(isBlank c || isBreak c || "-?:,[]\x7b\x7d#&*!|>'\"%@\x60".toList.contains c)

/-- Reads the token that starts with the character `c`. -/
def token (l : Lexer) (c : Char) : Option Lexer :=
  let p := l.place
  let flow := l.inFlow
  let isMark := isGap (p.ahead 1)
  if p.column == 0 && c == '%' then l.directive
  else if p.isAtMarker '-' then l.documentMarker .documentStart
  else if p.isAtMarker '.' then l.documentMarker .documentEnd
  else if c == '[' then l.flowStart .flowSequence
  else if c == '\x7b' then l.flowStart .flowMapping
  else if c == ']' then l.flowEnd .flowSequenceEnd
  else if c == '\x7d' then l.flowEnd .flowMappingEnd
  else if c == ',' then l.flowEntry
  else if c == '-' && isMark then l.blockEntry
  else if c == '?' && (flow || isMark) then l.explicitKey
  else if c == ':' && (flow || isMark) then l.value
  else if c == '*' then l.anchor .alias
  else if c == '&' then l.anchor .anchor
  else if c == '!' then l.tag
  else if c == '|' && !flow then l.blockScalar true
  else if c == '>' && !flow then l.blockScalar false
  else if c == '\'' || c == '"' then l.quotedScalar c
  else if startsPlain c || (c == '-' && !(p.ahead 1).any isBlank) ||
      (!flow && (c == '?' || c == ':') && !isMark) then l.plainScalar
  else none

/-- Reads tokens up to the end of the stream; every round takes at least one character. -/
def run : (rounds : Nat) → Lexer → Option Lexer
  | 0, _ => none
  | rounds + 1, l => do
    let l ← (l.skipToToken (l.place.rest.length + 1)).expireAll
    let l := l.unroll (some l.place.column)
    match l.place.here with
    | none => l.streamEnd
    | some c => run rounds (← l.token c)

end Lexer

/-- The tokens of a stream. -/
def tokens? (text : String) : Option (List Token) :=
  let cs := text.toList
  if cs.all isAllowed then
    (Lexer.run (cs.length + 2) (Lexer.start cs)).map (·.done.reverse)
  else none

end StreamConfig.Yaml
