import StreamConfig.Text.Ranges

/-! # Blank characters

Two classes of white space are in use, and they must not be confused:

* `isBlank` — the 25 characters with the property White_Space (Unicode 15 and later), the class
  that decides whether a line or a whole file is blank;
* `isAsciiBlank` — space, tab, line feed, form feed and carriage return, the class that separates
  tokens when key positions are looked up.

`isBlank_of_isAsciiBlank` says that the second class lies inside the first.
-/

namespace StreamConfig.Text

/-- Closed ranges of code points, ascending and apart. -/
def blankRanges : List (Nat × Nat) :=
  [(0x09, 0x0D), (0x20, 0x20), (0x85, 0x85), (0xA0, 0xA0), (0x1680, 0x1680), (0x2000, 0x200A),
   (0x2028, 0x2029), (0x202F, 0x202F), (0x205F, 0x205F), (0x3000, 0x3000)]

/-- The character has the property White_Space. -/
def isBlank (c : Char) : Bool := inRanges blankRanges c.toNat

/-- Space, tab, line feed, form feed or carriage return. -/
def isAsciiBlank (c : Char) : Bool :=
  c == ' ' || c == '\t' || c == '\n' || c == '\x0c' || c == '\r'

/-- Space or tab: what may stand between a key and its colon. -/
def isInlineBlank (c : Char) : Bool := c == ' ' || c == '\t'

/-- Nothing but blanks. -/
def isBlankText (cs : List Char) : Bool := cs.all isBlank

/-- Every ASCII blank has the property White_Space. -/
theorem isBlank_of_isAsciiBlank {c : Char} (h : isAsciiBlank c = true) : isBlank c = true := by
  simp only [isAsciiBlank, Bool.or_eq_true, beq_iff_eq] at h
  rcases h with (((h | h) | h) | h) | h <;> subst h <;> decide

end StreamConfig.Text
