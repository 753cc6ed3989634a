/-! # Columns of text

Cutting a text to a number of characters and filling it up to a width. Widths count characters.
A text that is already as wide as asked for is left as it is.
-/

namespace StreamConfig.Text

/-- At most the first `limit` characters. -/
def cut (limit : Nat) (s : String) : String := String.ofList (s.toList.take limit)

/-- `count` copies of one character. -/
def fill (c : Char) (count : Nat) : String := String.ofList (List.replicate count c)

/-- How many characters are missing to a width. -/
def missing (width : Nat) (s : String) : Nat := width - s.toList.length

/-- The text first, then spaces. -/
def alignLeft (width : Nat) (s : String) : String := s ++ fill ' ' (missing width s)

/-- Spaces first, then the text. -/
def alignRight (width : Nat) (s : String) : String := fill ' ' (missing width s) ++ s

/-- The text in the middle; of an odd number of fill characters the extra one stands on the
right. -/
def centre (c : Char) (width : Nat) (s : String) : String :=
  let gap := missing width s
  fill c (gap / 2) ++ s ++ fill c (gap - gap / 2)

end StreamConfig.Text
