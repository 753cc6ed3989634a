/-! # Hexadecimal digits

Digits of code points in escapes, read in either case and written in the case that a format asks
for.
-/

namespace StreamConfig.Text.Hex

/-- The two cases of the digits from ten on. -/
inductive Case where
  | lower
  | upper

/-- One digit, `d` being below sixteen. -/
def digit (c : Case) (d : Nat) : Char :=
  if d < 10 then Char.ofNat (48 + d)
  else match c with
    | .lower => Char.ofNat (87 + d)
    | .upper => Char.ofNat (55 + d)

/-- Exactly `width` digits of `n`, the leading ones first. -/
def padded (c : Case) : (width : Nat) → (n : Nat) → List Char
  | 0, _ => []
  | width + 1, n => padded c width (n / 16) ++ [digit c (n % 16)]

/-- The value of a digit. -/
def value? (c : Char) : Option Nat :=
  if c.isDigit then some (c.toNat - 48)
  else if 'a' ≤ c && c ≤ 'f' then some (c.toNat - 87)
  else if 'A' ≤ c && c ≤ 'F' then some (c.toNat - 55)
  else none

/-- The value of a row of digits; every character has to be one. -/
def number? (cs : List Char) : Option Nat :=
  cs.foldl (fun acc c => do return (← acc) * 16 + (← value? c)) (some 0)

end StreamConfig.Text.Hex
