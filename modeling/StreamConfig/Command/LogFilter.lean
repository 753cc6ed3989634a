import StreamConfig.Decimal.Numeral
import StreamConfig.Pattern.Usable
import StreamConfig.Text.Alphanumeric
import StreamConfig.Text.Blank
import StreamConfig.Text.Bytes

/-! # Log filters

A log filter is a list of directives between commas; empty ones do not count. A directive says what
it is about and how much of that is logged:

    target[span{field=value}]=level

Every part of it may be missing; a lone word is a level or a target. The value of a field is a
number or a pattern.

* `checkField` — whether the value of a field can be used;
* `Stage` — how far a directive has been read;
* `Stage.step` — what a character means at a stage;
* `LogFilter.check` — whether a filter can be used, and if not, why.
-/

namespace StreamConfig

/-- Why a log filter cannot be used. -/
inductive LogFilterError where
  /-- the parts do not make a directive -/
  | directive
  /-- there is no such level -/
  | level
  /-- a part would begin or end inside a character -/
  | place
  /-- the value of a field is no pattern that can be used -/
  | field (why : Pattern.Refusal)
deriving DecidableEq, Repr

namespace LogFilter

/-! ## Levels -/

/-- The levels by name, in lower case. -/
def levelNames : List String := ["off", "error", "warn", "info", "debug", "trace"]

/-- The greatest number that stands for a level. -/
def maxLevel : Nat := 5

/-- Decimal digits, maybe after a plus sign, that come to a level's number. -/
def isLevelNumber (cs : List Char) : Bool :=
  let digits := match cs with
    | '+' :: rest => rest
    | cs => cs
  !digits.isEmpty && digits.all Char.isDigit &&
    decide (digits.foldl (fun n c => n * 10 + (c.toNat - 48)) 0 ≤ maxLevel)

/-- A level by number, or by name in either case. -/
def isLevel (cs : List Char) : Bool :=
  isLevelNumber cs || levelNames.contains (String.ofList cs).toLower

/-! ## Fields -/

/-- The value that a field is to have, if it says one: what stands behind the first equals sign, up
to the next one. -/
def fieldValue? (field : List Char) : Option (List Char) :=
  match field.dropWhile (· != '=') with
  | [] => none
  | _ :: rest => some (rest.takeWhile (· != '='))

/-- What may stand for a number without being one. -/
def numberWords : List String := ["inf", "infinity", "nan"]

/-- A decimal or one of the words in either case, maybe with a sign. -/
def isNumber (cs : List Char) : Bool :=
  let cs := match cs with
    | '+' :: rest => rest
    | '-' :: rest => rest
    | cs => cs
  numberWords.contains (String.ofList cs).toLower || (Numeral.decimal? cs).isSome

/-- A value that is no number has to be a pattern. -/
def checkField (field : List Char) : Except LogFilterError Unit :=
  match fieldValue? field with
  | none => .ok ()
  | some value =>
    if isNumber value then .ok ()
    else match Pattern.check value with
      | .ok () => .ok ()
      | .error why => .error (.field why)

/-! ## Directives -/

/-- How far a directive has been read. Places are counted in bytes. -/
inductive Stage where
  /-- nothing has been read -/
  | start
  /-- inside the target, or the level if nothing else follows -/
  | word
  /-- inside the name of a span, which begins at `place` -/
  | span (place : Nat)
  /-- inside a field, which begins at `place` -/
  | field (place : Nat)
  /-- behind the fields -/
  | fieldsEnd
  /-- behind the brackets of a span -/
  | spanEnd
  /-- inside the level, which begins at `place` -/
  | level (place : Nat)
deriving DecidableEq, Repr

/-- Characters with which a word may start. -/
def startsWord (c : Char) : Bool := c == '-' || c == ':' || c == '_' || Text.isAlphanumeric c

/-- What follows a place in the text, if the place lies at a character. -/
def behind (text : List Char) (place : Nat) : Except LogFilterError (List Char) :=
  match Text.dropBytes? place text with
  | some rest => .ok rest
  | none => .error .place

/-- The part of the text that begins at one place and ends at another. -/
def part (text : List Char) (first last : Nat) : Except LogFilterError (List Char) := do
  let start ← behind text first
  let rest ← behind text last
  return start.take (start.length - rest.length)

namespace Stage

/-- Reads the character `c` at a place; a part that it ends is cut out of `text`. A field must not
be empty, and its value has to be usable. -/
def step (text : List Char) (place : Nat) (c : Char) : Stage → Except LogFilterError Stage
  | .start =>
    if c == '[' then .ok (.span (place + 1))
    else if startsWord c then .ok .word
    else .error .directive
  | .word => do
    if c == '=' then
      let _ ← part text 0 place
      return .level (place + 1)
    else if c == '[' then
      let _ ← part text 0 place
      return .span (place + 1)
    else return .word
  | .span first => do
    if c == ']' then
      let _ ← part text first place
      return .spanEnd
    else if c == '\x7b' then
      let _ ← part text first place
      return .field (place + 1)
    else return .span first
  | .field first => do
    if c == '\x7d' then
      let field ← part text first place
      if first = place then throw .directive
      checkField field
      return .fieldsEnd
    else return .field first
  | .fieldsEnd => if c == ']' then .ok .spanEnd else .error .directive
  | .spanEnd => if c == '=' then .ok (.level (place + 1)) else .error .directive
  | .level first => .ok (.level first)

/-- Reads characters one after the other, the first of them at a place. -/
def run (text : List Char) : (place : Nat) → Stage → List Char → Except LogFilterError Stage
  | _, s, [] => .ok s
  | place, s, c :: rest => do run text (place + c.utf8Size) (← s.step text place c) rest

/-- Whether a directive may end at a stage. -/
def finish (text : List Char) : Stage → Except LogFilterError Unit
  | .word | .spanEnd => .ok ()
  | .level first => do
    let level ← behind text first
    if level.isEmpty || isLevel level then return else throw .level
  | .start | .span _ | .field _ | .fieldsEnd => .error .directive

end Stage

/-- The text without the blanks around it. -/
def trimmed (text : List Char) : List Char :=
  ((text.dropWhile Text.isBlank).reverse.dropWhile Text.isBlank).reverse

/-- Whether a text is a directive. It is read without the blanks around it, but the places so found
are places of the whole text: a blank in front moves every part, and one at the end belongs to the
level. -/
def checkDirective (text : List Char) : Except LogFilterError Unit := do
  (← Stage.start.run text 0 (trimmed text)).finish text

/-- Whether a filter can be used; of several directives that cannot, the first one says why. -/
def check (filter : String) : Except LogFilterError Unit :=
  ((filter.toList.splitOn ',').filter fun text => !text.isEmpty).forM checkDirective

end LogFilter

end StreamConfig
