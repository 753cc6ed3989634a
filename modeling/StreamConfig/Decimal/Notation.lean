import StreamConfig.Decimal.Shortest

/-! # How doubles are written

Doubles with a leading digit between `10 ^ -5` and `10 ^ 15` are written positionally and with at
least one digit after the point; the others with one digit before the point and an exponent. The
only choice left to a text format is whether a positive exponent carries its sign.
-/

namespace StreamConfig.Decimal

/-- What a text format decides about numbers. -/
structure Notation where
  /-- write `1e+16` rather than `1e16` -/
  exponentPlus : Bool

namespace Notation

def zeros (n : Nat) : List Char := List.replicate n '0'

/-- Digits with the point after the first `point` of them, zeros filled in on either side. -/
def positional (ds : List Char) (point : Int) : List Char :=
  if point ≤ 0 then ['0', '.'] ++ zeros (-point).toNat ++ ds
  else if (ds.length : Int) ≤ point then ds ++ zeros (point.toNat - ds.length) ++ ['.', '0']
  else ds.take point.toNat ++ ['.'] ++ ds.drop point.toNat

/-- Digits with the point after the first, and the power of ten that makes up for it. -/
def scientific (n : Notation) (ds : List Char) (power : Int) : List Char :=
  let fraction := ds.drop 1
  let mark := if power < 0 then ['-'] else if n.exponentPlus then ['+'] else []
  ds.take 1 ++ (if fraction.isEmpty then [] else '.' :: fraction) ++ ['e'] ++ mark ++
    Nat.toDigits 10 power.natAbs

/-- A decimal in the notation that its size asks for. -/
def layout (n : Notation) (d : Scientific) : List Char :=
  let ds := Nat.toDigits 10 d.digits
  let point := (ds.length : Int) + d.exponent
  if -5 < point && point ≤ 16 then positional ds point else n.scientific ds (point - 1)

/-- The text of a finite double; the sign of zero is kept. -/
def render (n : Notation) (x : Binary64) : String :=
  let m := x.magnitude
  let digits := if m.mantissa = 0 then ['0', '.', '0'] else n.layout (Shortest.decimal m)
  String.ofList (if x.isNegative then '-' :: digits else digits)

end Notation

end StreamConfig.Decimal
