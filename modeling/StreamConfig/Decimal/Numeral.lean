import StreamConfig.Text.Hex

/-! # Numerals

Numbers as they are written, without a sign, before it is asked which values can hold them.

* `digits?` — a row of digits in a base;
* `decimal?` — a decimal with an optional fraction and exponent.
-/

namespace StreamConfig.Numeral

/-- The value of digits in a base of at most sixteen. -/
def digits? (base : Nat) (cs : List Char) : Option Nat :=
  if cs.isEmpty then none
  else cs.foldl (fun acc c => do
    let n ← acc
    let d ← Text.Hex.value? c
    if d < base then some (n * base + d) else none) (some 0)

/-- A decimal with an optional fraction and exponent, as digits and a power of ten. -/
def decimal? (cs : List Char) : Option (Nat × Int) :=
  let whole := cs.takeWhile Char.isDigit
  let rest := cs.drop whole.length
  let (fraction, rest) := match rest with
    | '.' :: rest => (rest.takeWhile Char.isDigit, rest.dropWhile Char.isDigit)
    | rest => ([], rest)
  if whole.isEmpty && fraction.isEmpty then none
  else do
    let digits ← digits? 10 (whole ++ fraction)
    let power ← match rest with
      | [] => some (0 : Int)
      | c :: rest =>
        if c == 'e' || c == 'E' then
          match rest with
          | '-' :: rest => (digits? 10 rest).map fun n => -(n : Int)
          | '+' :: rest => (digits? 10 rest).map Int.ofNat
          | rest => (digits? 10 rest).map Int.ofNat
        else none
    return (digits, power - (fraction.length : Int))

end StreamConfig.Numeral
