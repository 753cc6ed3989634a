import StreamConfig.Decimal.Binary64

/-! # Configuration values

A configuration is a tree of the six shapes that JSON has. The order of an object's entries is
part of the value, so an object is a list of entries.

* `Number` — an exact integer, or a double;
* `Value` — the tree;
* `Shape` — which of the six shapes a value has, with the word for it;
* `Value.depth` — how many arrays and objects are nested in one another.
-/

namespace StreamConfig

/-- Integers of the 64-bit ranges, signed and unsigned, are kept exactly; every other number is a
double. -/
inductive Number where
  | int (n : Int)
  | double (x : Binary64)
deriving DecidableEq, Repr

namespace Number

/-- The least and the greatest signed 64-bit integer, and the greatest unsigned one. -/
def minSigned : Int := -9223372036854775808
def maxSigned : Int := 9223372036854775807
def maxUnsigned : Int := 18446744073709551615

/-- An exact integer in the signed 64-bit range. -/
def isSigned : Number → Bool
  | .int n => decide (minSigned ≤ n) && decide (n ≤ maxSigned)
  | .double _ => false

end Number

/-- A configuration value. -/
inductive Value where
  | null
  | bool (b : Bool)
  | number (n : Number)
  | string (s : String)
  | array (items : List Value)
  | object (entries : List (String × Value))
deriving Repr, Inhabited

/-- The entries of an object, in order. -/
abbrev Entries := List (String × Value)

/-- The six shapes of values. -/
inductive Shape where
  | null
  | bool
  | number
  | string
  | array
  | object
deriving DecidableEq, Repr

/-- The word for a shape. -/
def Shape.name : Shape → String
  | .null => "null"
  | .bool => "bool"
  | .number => "number"
  | .string => "string"
  | .array => "array"
  | .object => "object"

namespace Value

def shape : Value → Shape
  | .null => .null
  | .bool _ => .bool
  | .number _ => .number
  | .string _ => .string
  | .array _ => .array
  | .object _ => .object

/-- The text of a string value. -/
def text? : Value → Option String
  | .string s => some s
  | _ => none

/-- The entries of an object. -/
def entries? : Value → Option Entries
  | .object m => some m
  | _ => none

/-- An exact integer in the signed 64-bit range. -/
def isSigned : Value → Bool
  | .number n => n.isSigned
  | _ => false

mutual
/-- How many arrays and objects are nested in one another; a scalar has depth zero. -/
def depth : Value → Nat
  | .array items => itemsDepth items + 1
  | .object m => entriesDepth m + 1
  | _ => 0

/-- The greatest depth of a list's items. -/
def itemsDepth : List Value → Nat
  | [] => 0
  | v :: rest => max v.depth (itemsDepth rest)

/-- The greatest depth of the values in a list of entries. -/
def entriesDepth : List (String × Value) → Nat
  | [] => 0
  | (_, v) :: rest => max v.depth (entriesDepth rest)
end

end Value

end StreamConfig
