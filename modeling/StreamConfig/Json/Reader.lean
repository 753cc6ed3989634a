import StreamConfig.Text.Hex
import StreamConfig.Value.Entries

/-! # Reading JSON

`Json.read` reads exactly one value, with blanks around it, and nothing else. Each reader takes the
characters that are left and gives what it read together with the rest, or `none`.

* Blanks are space, tab, line feed and carriage return.
* Arrays and objects nest at most 127 deep.
* An integer without fraction and exponent that fits a 64-bit range is exact; all other numbers,
  and `-0`, are doubles, by `Numeral`. A number that overflows a double is refused.
* A repeated key keeps its first place and takes its last value.
* A string holds no bare control characters; an escaped surrogate must be half of a pair.
-/

namespace StreamConfig.Json

/-- The greatest unsigned 64-bit integer. -/
def maxSignificand : Nat := 18446744073709551615

/-- The greatest exponent that is read as a number of its own. -/
def maxExponent : Nat := 2147483647

def isSpace (c : Char) : Bool := c == ' ' || c == '\t' || c == '\n' || c == '\r'

def skipSpace (cs : List Char) : List Char := cs.dropWhile isSpace

def digitValue (c : Char) : Nat := c.toNat - 48

/-! ## Numbers

A number is read as a significand of at most 64 bits and a power of ten. Digits of the integer part
that no longer fit count into the power of ten; digits of the fraction that no longer fit are
passed over. -/

/-- A number read so far: its sign, the significand and the power of ten. -/
structure Numeral where
  isNegative : Bool
  significand : Nat
  power : Int

namespace Numeral

/-- The double for a numeral, `none` if it is out of range. -/
def toDouble (n : Numeral) : Option Number :=
  (Binary64.ofScaled n.significand n.power).map fun x => .double (x.signed n.isNegative)

/-- The integer for a numeral without fraction and exponent: exact where a 64-bit range holds it
and it is not minus zero, else a double. -/
def toInteger (n : Numeral) : Option Number :=
  if n.isNegative then
    if 0 < n.significand && n.significand ≤ 9223372036854775808 then
      some (.int (-(n.significand : Int)))
    else n.toDouble
  else some (.int n.significand)

/-- Takes one more digit if the significand still has room for it. No proof needs to see how the
room is compared, and unfolding it would count the greatest significand down. -/
@[irreducible] def push? (n : Numeral) (c : Char) : Option Nat :=
  let next := n.significand * 10 + digitValue c
  if next ≤ maxSignificand then some next else none

end Numeral

/-- Reads the digits of an exponent on top of `value`; `none` stands for an exponent that is too
great to be read. -/
def exponentDigits : (value : Option Nat) → List Char → Option Nat × List Char
  | value, [] => (value, [])
  | value, c :: rest =>
    if c.isDigit then
      let next := value.bind fun v =>
        let w := v * 10 + digitValue c
        if w ≤ maxExponent then some w else none
      exponentDigits next rest
    else (value, c :: rest)

/-- What follows the exponent mark: an optional sign and at least one digit. An exponent too great
to be read gives zero if it is negative or the significand is zero, and is out of range else. -/
def exponentPart (n : Numeral) (cs : List Char) : Option (Number × List Char) :=
  let (isDown, digits) := match cs with
    | '+' :: rest => (false, rest)
    | '-' :: rest => (true, rest)
    | _ => (false, cs)
  match digits with
  | [] => none
  | c :: rest =>
    if c.isDigit then
      match exponentDigits (some (digitValue c)) rest with
      | (some e, rest) =>
        let power := if isDown then n.power - (e : Int) else n.power + (e : Int)
        (({ n with power } : Numeral).toDouble).map (·, rest)
      | (none, rest) =>
        if n.significand = 0 || isDown then
          some (.double ((⟨0⟩ : Binary64).signed n.isNegative), rest)
        else none
    else none

/-- The end of a number: an exponent, or nothing. -/
def numberEnd (n : Numeral) (whole : Numeral → Option Number) :
    List Char → Option (Number × List Char)
  | 'e' :: rest => exponentPart n rest
  | 'E' :: rest => exponentPart n rest
  | rest => (whole n).map (·, rest)

/-- The digits after the point, as long as they fit; the others are passed over. -/
def fractionDigits : Numeral → List Char → Numeral × List Char
  | n, [] => (n, [])
  | n, c :: rest =>
    if c.isDigit then
      match n.push? c with
      | some significand => fractionDigits ⟨n.isNegative, significand, n.power - 1⟩ rest
      | none => (n, rest.dropWhile Char.isDigit)
    else (n, c :: rest)

/-- What follows the digits before the point. -/
def numberRest (n : Numeral) (whole : Numeral → Option Number) :
    List Char → Option (Number × List Char)
  | '.' :: rest =>
    match rest with
    | c :: _ =>
      if c.isDigit then
        let (n, rest) := fractionDigits n rest
        numberEnd n Numeral.toDouble rest
      else none
    | [] => none
  | rest => numberEnd n whole rest

/-- The digits before the point, after the first. -/
def integerDigits : Numeral → List Char → Option (Number × List Char)
  | n, [] => n.toInteger.map (·, [])
  | n, c :: rest =>
    if c.isDigit then
      match n.push? c with
      | some significand => integerDigits { n with significand } rest
      | none =>
        let more := (c :: rest).takeWhile Char.isDigit
        numberRest { n with power := n.power + more.length } Numeral.toDouble
          (rest.dropWhile Char.isDigit)
    else numberRest n Numeral.toInteger (c :: rest)

/-- A number without its sign. A leading zero stands alone. -/
def unsigned (isNegative : Bool) : List Char → Option (Number × List Char)
  | '0' :: c :: rest =>
    if c.isDigit then none else numberRest ⟨isNegative, 0, 0⟩ Numeral.toInteger (c :: rest)
  | ['0'] => (Numeral.toInteger ⟨isNegative, 0, 0⟩).map (·, [])
  | c :: rest => if c.isDigit then integerDigits ⟨isNegative, digitValue c, 0⟩ rest else none
  | [] => none

def number : List Char → Option (Number × List Char)
  | '-' :: rest => unsigned true rest
  | cs => unsigned false cs

/-! ## Strings -/

/-- The character that a letter stands for after a backslash. -/
def unescape? : Char → Option Char
  | '"' => some '"'
  | '\\' => some '\\'
  | '/' => some '/'
  | 'b' => some '\x08'
  | 'f' => some '\x0c'
  | 'n' => some '\n'
  | 'r' => some '\r'
  | 't' => some '\t'
  | _ => none

def isHighHalf (n : Nat) : Bool := 0xD800 ≤ n && n ≤ 0xDBFF
def isLowHalf (n : Nat) : Bool := 0xDC00 ≤ n && n ≤ 0xDFFF

/-- The characters of a string up to the closing quote, last first in `done`. -/
def stringRest (done : List Char) : List Char → Option (String × List Char)
  | [] => none
  | '"' :: rest => some (String.ofList done.reverse, rest)
  | '\\' :: 'u' :: a :: b :: c :: d :: rest =>
    match Text.Hex.number? [a, b, c, d] with
    | none => none
    | some n =>
      if isHighHalf n then
        match rest with
        | '\\' :: 'u' :: e :: f :: g :: h :: rest =>
          match Text.Hex.number? [e, f, g, h] with
          | none => none
          | some m =>
            if isLowHalf m then
              stringRest (Char.ofNat (0x10000 + (n - 0xD800) * 0x400 + (m - 0xDC00)) :: done) rest
            else none
        | _ => none
      else if isLowHalf n then none
      else stringRest (Char.ofNat n :: done) rest
  | '\\' :: c :: rest =>
    match unescape? c with
    | none => none
    | some e => stringRest (e :: done) rest
  | c :: rest => if c.toNat < 0x20 || c == '\\' then none else stringRest (c :: done) rest

/-! ## Values -/

/-- Drops the given characters off the front. -/
def expect (word : List Char) (cs : List Char) : Option (List Char) :=
  if word.isPrefixOf cs then some (cs.drop word.length) else none

/-- Items up to the closing bracket, each read by `one`; the cursor stands where an item must
start. Every item takes a character, so as many rounds as there are characters are enough. -/
def itemsRest (one : List Char → Option (Value × List Char)) :
    (rounds : Nat) → List Char → Option (List Value × List Char)
  | 0, _ => none
  | rounds + 1, cs => do
    let (v, rest) ← one (skipSpace cs)
    match skipSpace rest with
    | ',' :: rest => do
      let (vs, rest) ← itemsRest one rounds rest
      return (v :: vs, rest)
    | ']' :: rest => return ([v], rest)
    | _ => none

/-- Entries up to the closing brace, as `itemsRest`. -/
def entriesRest (one : List Char → Option (Value × List Char)) :
    (rounds : Nat) → List Char → Option (List (String × Value) × List Char)
  | 0, _ => none
  | rounds + 1, cs => do
    match skipSpace cs with
    | '"' :: rest => do
      let (k, rest) ← stringRest [] rest
      match skipSpace rest with
      | ':' :: rest => do
        let (v, rest) ← one (skipSpace rest)
        match skipSpace rest with
        | ',' :: rest => do
          let (es, rest) ← entriesRest one rounds rest
          return ((k, v) :: es, rest)
        | '\x7d' :: rest => return ([(k, v)], rest)
        | _ => none
      | _ => none
    | _ => none

/-- One value, the first character being no blank; `room` is how many levels of arrays and objects
may still be opened. -/
def value : (room : Nat) → List Char → Option (Value × List Char)
  | room, cs =>
    match cs with
    | [] => none
    | '"' :: rest => (stringRest [] rest).map fun r => (.string r.1, r.2)
    | '[' :: rest =>
      match room with
      | 0 => none
      | room + 1 =>
        match skipSpace rest with
        | ']' :: rest => some (.array [], rest)
        | rest => (itemsRest (value room) (rest.length + 1) rest).map fun r => (.array r.1, r.2)
    | '\x7b' :: rest =>
      match room with
      | 0 => none
      | room + 1 =>
        match skipSpace rest with
        | '\x7d' :: rest => some (.object [], rest)
        | rest =>
          (entriesRest (value room) (rest.length + 1) rest).map fun r =>
            (.object (Entries.ofList r.1), r.2)
    | 't' :: rest => (expect ['r', 'u', 'e'] rest).map (.bool true, ·)
    | 'f' :: rest => (expect ['a', 'l', 's', 'e'] rest).map (.bool false, ·)
    | 'n' :: rest => (expect ['u', 'l', 'l'] rest).map (.null, ·)
    | cs => (number cs).map fun r => (.number r.1, r.2)

/-- How deep arrays and objects may nest. -/
def maxNesting : Nat := 127

/-- The value that a text denotes. -/
def read (text : String) : Option Value :=
  match value maxNesting (skipSpace text.toList) with
  | some (v, rest) => if (skipSpace rest).isEmpty then some v else none
  | none => none

end StreamConfig.Json
