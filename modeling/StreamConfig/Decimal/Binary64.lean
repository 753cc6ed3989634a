/-! # Doubles by their bits

A `Binary64` is the 64 bits of an IEEE double. Keeping the bits makes equality decidable and keeps
`-0.0` apart from `0.0`; arithmetic goes through `Float`.

* `Binary64.magnitude` — a finite value without its sign as `mantissa * 2 ^ exponent`, exactly;
* `Binary64.ofDecimal` — the double nearest to a decimal, ties to even;
* `Binary64.ofScaled` — a 64-bit integer times or over a power of ten in one floating-point
  operation on a rounded integer. It is fast and, for long numbers, not always the nearest double.
-/

namespace StreamConfig

/-- The bits of a double. -/
structure Binary64 where
  bits : UInt64
deriving DecidableEq, Repr

namespace Binary64

def ofFloat (x : Float) : Binary64 := ⟨x.toBits⟩

/-- The sign bit, which `-0.0` has too. -/
def isNegative (x : Binary64) : Bool := x.bits >>> 63 == 1

/-- The eleven exponent bits. -/
def exponentBits (x : Binary64) : Nat := ((x.bits >>> 52) &&& 0x7FF).toNat

/-- The fifty-two fraction bits. -/
def fractionBits (x : Binary64) : Nat := (x.bits &&& 0xFFFFFFFFFFFFF).toNat

/-- Neither an infinity nor a NaN. -/
def isFinite (x : Binary64) : Bool := x.exponentBits != 0x7FF

/-- The value with the other sign. -/
def negate (x : Binary64) : Binary64 := ⟨x.bits ^^^ 0x8000000000000000⟩

/-- A finite value without its sign, as `mantissa * 2 ^ exponent`. -/
structure Magnitude where
  mantissa : Nat
  exponent : Int
  /-- the gap to the value below is half the gap to the value above -/
  narrowBelow : Bool

def magnitude (x : Binary64) : Magnitude :=
  if x.exponentBits = 0 then ⟨x.fractionBits, -1074, false⟩
  else ⟨Nat.pow 2 52 + x.fractionBits, (x.exponentBits : Int) - 1075,
    x.fractionBits == 0 && decide (1 < x.exponentBits)⟩

/-- Attaches a sign to a value that has none. -/
def signed (isNegative : Bool) (x : Binary64) : Binary64 := if isNegative then x.negate else x

/-- The number of decimal digits of `n`; zero has none. -/
def digitCount (n : Nat) : Nat := if n = 0 then 0 else (Nat.toDigits 10 n).length

/-- The finite double nearest to `digits * 10 ^ exponent`, ties to even; `none` if that is out of
range. Far out of range nothing is computed: with `d` digits the value lies below
`10 ^ (d + exponent)` and, unless it is zero, not below a tenth of that. -/
def ofDecimal (digits : Nat) (exponent : Int) : Option Binary64 :=
  let top := (digitCount digits : Int) + exponent
  if digits = 0 then some ⟨0⟩
  else if 310 < top then none
  else if top < -330 then some ⟨0⟩
  else
    let x := ofFloat (Float.ofScientific digits (decide (exponent < 0)) exponent.natAbs)
    if x.isFinite then some x else none

/-- Divides by `10 ^ 308` until the remaining power of ten is at most that, or nothing is left. -/
def sink : (steps : Nat) → Float → (exponent : Nat) → Float × Nat
  | 0, f, exponent => (f, exponent)
  | steps + 1, f, exponent =>
    if exponent ≤ 308 || f == 0.0 then (f, exponent) else sink steps (f / 1e308) (exponent - 308)

/-- `significand * 10 ^ exponent` by rounding the significand to a double and then multiplying or
dividing once by the double for the power of ten (powers below `10 ^ -308` take a division more).
`none` if the result is infinite. -/
def ofScaled (significand : Nat) (exponent : Int) : Option Binary64 :=
  let f := Float.ofScientific significand false 0
  if significand = 0 then some ⟨0⟩
  else if 0 ≤ exponent then
    if 308 < exponent then none
    else
      let x := ofFloat (f * Float.ofScientific 1 false exponent.toNat)
      if x.isFinite then some x else none
  else
    let (g, rest) := sink 4 f exponent.natAbs
    some (ofFloat (if g == 0.0 then g else g / Float.ofScientific 1 false (min rest 308)))

end Binary64

end StreamConfig
