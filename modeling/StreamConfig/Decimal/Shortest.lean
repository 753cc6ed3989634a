import StreamConfig.Decimal.Binary64

/-! # The fewest digits that read back

A finite double stands for an interval of reals: those that round to it. `Shortest.decimal` is the
decimal with the fewest digits in that interval, of several the one nearest to the double, of two
equally near ones the even one. It is found by trying the decimal grids from coarse to fine; on
each grid only the two neighbours of the value need a look.
-/

namespace StreamConfig.Decimal

/-- The number `digits * 10 ^ exponent`. -/
structure Scientific where
  digits : Nat
  exponent : Int
deriving DecidableEq, Repr

namespace Shortest

open Binary64 (Magnitude)

/-- `4 * mantissa * 2 ^ exponent / 10 ^ grid` as a numerator and a denominator, the numerator as a
factor of `4 * mantissa`. Quarter steps of the mantissa make the ends of the interval integers. -/
def scale (exponent grid : Int) : Nat × Nat :=
  (Nat.pow 2 exponent.toNat * Nat.pow 10 (-grid).toNat,
   4 * Nat.pow 2 (-exponent).toNat * Nat.pow 10 grid.toNat)

/-- Whether `digits * 10 ^ grid` rounds to the value: it lies between the halfway points to the two
neighbouring doubles, the ends included exactly if the mantissa is even. -/
def readsBack (x : Magnitude) (grid : Int) (digits : Nat) : Bool :=
  let (unit, den) := scale x.exponent grid
  let low := (4 * x.mantissa - if x.narrowBelow then 1 else 2) * unit
  let high := (4 * x.mantissa + 2) * unit
  let at' := digits * den
  if x.mantissa % 2 = 0 then decide (low ≤ at') && decide (at' ≤ high)
  else decide (low < at') && decide (at' < high)

/-- The point of a grid to write, if one reads back. -/
def onGrid (x : Magnitude) (grid : Int) : Option Scientific :=
  let (unit, den) := scale x.exponent grid
  let value := 4 * x.mantissa * unit
  let below := value / den
  match readsBack x grid below, readsBack x grid (below + 1) with
  | true, true =>
    let down := value - below * den
    let up := (below + 1) * den - value
    if down < up || (down == up && below % 2 == 0) then some ⟨below, grid⟩
    else some ⟨below + 1, grid⟩
  | true, false => some ⟨below, grid⟩
  | false, true => some ⟨below + 1, grid⟩
  | false, false => none

/-- Whether the value lies below `10 ^ k`. -/
def isBelow (x : Magnitude) (k : Int) : Bool :=
  let (unit, den) := scale x.exponent k
  decide (4 * x.mantissa * unit < den)

/-- The least `k` such that the value lies below `10 ^ k`, near an estimate from the binary
logarithm that is at most two too low. -/
def decade (x : Magnitude) : Int :=
  let estimate := Int.fdiv (((Nat.log2 x.mantissa : Int) + x.exponent) * 30103) 100000 - 1
  let found := (List.range 5).find? fun (i : Nat) => isBelow x (estimate + (i : Int))
  estimate + (found.getD 5 : Nat)

/-- Moves trailing zeros of the digits into the exponent. -/
def strip : (steps : Nat) → Scientific → Scientific
  | 0, d => d
  | steps + 1, d =>
    if d.digits % 10 = 0 && d.digits != 0 then strip steps ⟨d.digits / 10, d.exponent + 1⟩ else d

/-- The decimal to write for a value that is not zero: the first grid of one to seventeen digits
that has a point which reads back. -/
def decimal (x : Magnitude) : Scientific :=
  let k := decade x
  let found := (List.range 17).findSome? fun n => onGrid x (k - (n + 1 : Nat))
  strip 20 (found.getD ⟨x.mantissa, 0⟩)

end Shortest

end StreamConfig.Decimal
