/-! # Counting in bytes

Lengths of texts and places in them, counted in the bytes of UTF-8. A place lies at a character only
if it is the length of what stands before one.

* `utf8Length` — the length of a text;
* `dropBytes?` — what is left of a text behind a place;
* `dropBytes?_utf8Length` — behind the length of a first part, the second part is left.
-/

namespace StreamConfig.Text

/-- The number of bytes of a text in UTF-8. -/
def utf8Length : List Char → Nat
  | [] => 0
  | c :: rest => c.utf8Size + utf8Length rest

/-- What is left of a text without its first `n` bytes; `none` if they end inside a character or if
there are not so many. -/
def dropBytes? (n : Nat) : List Char → Option (List Char)
  | [] => if n = 0 then some [] else none
  | c :: rest =>
    if n = 0 then some (c :: rest)
    else if c.utf8Size ≤ n then dropBytes? (n - c.utf8Size) rest
    else none

/-- The length of two texts in a row is the sum of their lengths. -/
theorem utf8Length_append (pre rest : List Char) :
    utf8Length (pre ++ rest) = utf8Length pre + utf8Length rest := by
  induction pre with
  | nil => simp [utf8Length]
  | cons c pre ih => simp [utf8Length, ih, Nat.add_assoc]

/-- No bytes dropped leave the text as it is. -/
theorem dropBytes?_zero (cs : List Char) : dropBytes? 0 cs = some cs := by
  cases cs <;> rfl

/-- The place where a first part ends lies at a character, and the second part is left there. -/
theorem dropBytes?_utf8Length (pre rest : List Char) :
    dropBytes? (utf8Length pre) (pre ++ rest) = some rest := by
  induction pre with
  | nil => exact dropBytes?_zero rest
  | cons c pre ih =>
    have hpos := c.utf8Size_pos
    have hne : c.utf8Size ≠ 0 := by omega
    simp [utf8Length, dropBytes?, hne, ih]

end StreamConfig.Text
