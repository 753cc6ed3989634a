import StreamConfig.Decimal.Numeral
import StreamConfig.Value.Basic

/-! # What plain scalars mean

A plain scalar without a tag is null, a boolean, an integer, a double or a text, by its form alone.

* Integers are decimal, or hexadecimal, octal or binary after `0x`, `0o` or `0b`; decimal digits
  after a leading zero are a text.
* An integer beyond 64 bits is an error as long as 128 bits hold it; a longer decimal is a double.
* Infinities and NaN have a form but no value here: they read as null.

`meaning?` decides; `integer?` and `double?` are also asked for by tags and by the writer.
-/

namespace StreamConfig.Yaml

def isNullText (s : String) : Bool := ["null", "Null", "NULL", "~"].contains s

def bool? (s : String) : Option Bool :=
  if ["true", "True", "TRUE"].contains s then some true
  else if ["false", "False", "FALSE"].contains s then some false
  else none

/-! ## Integers -/

/-- Digits after a leading zero, maybe signed. -/
def isZeroPadded (cs : List Char) : Bool :=
  let cs := match cs with
    | '-' :: rest => rest
    | '+' :: rest => rest
    | cs => cs
  match cs with
  | '0' :: d :: rest => (d :: rest).all Char.isDigit
  | _ => false

/-- A number without a sign, in any of the four bases. -/
def natural? (cs : List Char) : Option Nat :=
  match cs with
  | '0' :: 'x' :: rest => Numeral.digits? 16 rest
  | '0' :: 'o' :: rest => Numeral.digits? 8 rest
  | '0' :: 'b' :: rest => Numeral.digits? 2 rest
  | cs => if isZeroPadded cs then none else Numeral.digits? 10 cs

/-- An integer of any size. -/
def integer? (s : String) : Option Int :=
  match s.toList with
  | '-' :: rest => (natural? rest).map fun n => -(n : Int)
  | '+' :: rest => (natural? rest).map Int.ofNat
  | cs => (natural? cs).map Int.ofNat

/-- What a form of an integer comes to. -/
inductive Fit where
  /-- a 64-bit range holds it -/
  | fits (n : Int)
  /-- only a 128-bit range holds it -/
  | wide
  | none

/-- The least signed and the greatest unsigned 128-bit integer. -/
def minWide : Int := -170141183460469231731687303715884105728
def maxWide : Int := 340282366920938463463374607431768211455

/-- Sorts an integer by its size. -/
def fit (s : String) : Fit :=
  match integer? s with
  | Option.none => .none
  | some n =>
    if Number.minSigned ≤ n && n ≤ Number.maxUnsigned then .fits n
    else if minWide ≤ n && n ≤ maxWide then .wide
    else .none

/-! ## Doubles -/

/-- The forms of doubles that have no value here. -/
def isSpecialText (s : String) : Bool :=
  [".inf", ".Inf", ".INF", "+.inf", "+.Inf", "+.INF", "-.inf", "-.Inf", "-.INF", ".nan", ".NaN",
    ".NAN"].contains s

/-- A finite double. -/
def double? (s : String) : Option Binary64 :=
  let (isNegative, cs) := match s.toList with
    | '-' :: rest => (true, rest)
    | '+' :: rest => (false, rest)
    | cs => (false, cs)
  match Numeral.decimal? cs with
  | none => none
  | some (digits, power) => (Binary64.ofDecimal digits power).map (·.signed isNegative)

/-- A double or one of the forms without a value. -/
def doubleValue? (s : String) : Option Value :=
  if isSpecialText s then some .null else (double? s).map fun x => .number (.double x)

/-! ## All forms -/

/-- What a plain text means; `none` for an integer that is too wide. -/
def meaning? (s : String) : Option Value :=
  if s == "" || isNullText s then some .null
  else match bool? s with
    | some b => some (.bool b)
    | none =>
      match fit s with
      | .fits n => some (.number (.int n))
      | .wide => none
      | .none =>
        if isZeroPadded s.toList then some (.string s)
        else some ((doubleValue? s).getD (.string s))

end StreamConfig.Yaml
