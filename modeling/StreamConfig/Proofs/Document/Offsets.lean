import StreamConfig.Proofs.Document.Places
import StreamConfig.Proofs.Text.Slices

/-! # Lines and block scalars by offsets

A cursor goes through a text character by character. A program that reads the text by the offsets of
its bytes can fail on the way: a slice may begin or end inside a character or behind the end of the
text, a subtraction may go below zero, and a loop may not get on. Here `none` stands for each of
these failures, and what is read without one is what a cursor sees:
* `takeTurns?` — a loop over offsets, which have to grow
* `lineEnd?_eq` — the end of a line
* `blockEnd?_eq` — the end of a block scalar
* `positionOf?_eq` — the position of an offset
-/

namespace StreamConfig

namespace Offset

open Text

/-! ## Loops -/

/-- What one turn of a loop comes to: a result, or the offset for the next turn. -/
inductive Turn (α : Type) where
  | done (result : α)
  | go (next : Nat)
deriving DecidableEq, Repr

/-- Takes turns up to an offset. A turn that does not lead to a greater offset is a failure. -/
def takeTurns? {α : Type} (turn? : Nat → Option (Turn α)) (stop : Nat) (atEnd : Nat → α)
    (i : Nat) : Option α :=
  if i < stop then
    match turn? i with
    | none => none
    | some (.done result) => some result
    | some (.go next) => if i < next then takeTurns? turn? stop atEnd next else none
  else some (atEnd i)
termination_by stop - i

section Turns

variable {α : Type} {turn? : Nat → Option (Turn α)} {stop i next : Nat} (atEnd : Nat → α)

theorem takeTurns?_done {result : α} (hi : i < stop) (h : turn? i = some (.done result)) :
    takeTurns? turn? stop atEnd i = some result := by
  rw [takeTurns?, if_pos hi, h]

theorem takeTurns?_go (hi : i < stop) (h : turn? i = some (.go next)) (hnext : i < next) :
    takeTurns? turn? stop atEnd i = takeTurns? turn? stop atEnd next := by
  rw [takeTurns?, if_pos hi, h]
  exact if_pos hnext

theorem takeTurns?_end (hi : stop ≤ i) : takeTurns? turn? stop atEnd i = some (atEnd i) := by
  rw [takeTurns?, if_neg (Nat.not_lt.2 hi)]

end Turns

/-- A subtraction that may fail. -/
def sub? (a b : Nat) : Option Nat := if b ≤ a then some (a - b) else none

theorem sub?_add (a b : Nat) : sub? (a + b) b = some a := by simp [sub?]

/-! ## Lines -/

@[simp] theorem utf8Size_lineFeed : '\n'.utf8Size = 1 := rfl

/-- A text goes on to the end of its first line, where it ends or has a line feed. -/
theorem line_ahead (cs : List Char) :
    ∃ line rest, cs = line ++ rest ∧ cs.takeWhile (· != '\n') = line ∧
      cs.dropWhile (· != '\n') = rest ∧ (rest = [] ∨ ∃ more, rest = '\n' :: more) := by
  refine ⟨_, _, List.takeWhile_append_dropWhile.symm, rfl, rfl, ?_⟩
  have hhead := List.head?_dropWhile_not (· != '\n') cs
  cases hrest : cs.dropWhile (· != '\n') with
  | nil => exact .inl rfl
  | cons c more =>
    rw [hrest] at hhead
    have hc : c = '\n' := by simpa using hhead
    exact .inr ⟨more, by rw [hc]⟩

/-- The end of the line that an offset is on. -/
def lineEnd? (src : List Char) (i : Nat) : Option Nat := do
  let behind ← slice? src i (utf8Length src)
  return i + utf8Length (behind.takeWhile (· != '\n'))

theorem lineEnd?_eq (cs rest : List Char) {i : Nat} (hi : i = utf8Length cs) :
    lineEnd? (cs ++ rest) i = some (i + utf8Length (rest.takeWhile (· != '\n'))) := by
  have hslice : slice? (cs ++ rest) i (utf8Length (cs ++ rest)) = some rest :=
    slice?_eq_some_iff.2 ⟨cs, [], by simp, hi, rfl⟩
  rw [lineEnd?, hslice]
  rfl

/-! ## Block scalars -/

/-- One more line of a block scalar, behind the line feed at an offset. -/
def blockTurn? (src : List Char) (indent i : Nat) : Option (Turn Nat) := do
  let stop ← lineEnd? src (i + 1)
  let line ← slice? src (i + 1) stop
  if !isBlankText line && (line.takeWhile (· == ' ')).length ≤ indent then return .done i
  else return .go stop

/-- The end of a block scalar whose first character is at an offset; its owner's indentation is
calculated once it is needed. -/
def blockBehind? (src : List Char) (indent? : Option Nat) (i : Nat) : Option (Option Nat) := do
  let stop ← lineEnd? src i
  let header ← slice? src (i + 1) stop
  if isBlockHeader header then
    let indent ← indent?
    return some (← takeTurns? (blockTurn? src indent) (utf8Length src) id stop)
  else return none

/-- How the indentation of a block scalar's owner is calculated, `none` if there is no owner. What
stands before the scalar is read with the nearest first. -/
def ownerAt? (src : List Char) (i : Nat) (before : List Char) : Option (Option Nat) :=
  let lineStart := utf8Length (before.dropWhile (· != '\n'))
  match before.dropWhile isInlineBlank with
  | ':' :: _ => some do
    let line ← slice? src lineStart i
    return keyIndent line.length line
  | '-' :: left => some do sub? (← sub? (utf8Length ('-' :: left)) 1) lineStart
  | _ => none

/-- The end of the block scalar at an offset; `some none` if there is none. -/
def blockEnd? (src : List Char) (i : Nat) : Option (Option Nat) := do
  match ownerAt? src i (← slice? src 0 i).reverse with
  | some indent? => blockBehind? src indent? i
  | none => return none

theorem blockTurn?_eq (cs : List Char) {line rest : List Char}
    (hline : (line ++ rest).takeWhile (· != '\n') = line) (indent : Nat) :
    blockTurn? (cs ++ '\n' :: (line ++ rest)) indent (utf8Length cs) =
      some (if !isBlankText line && (line.takeWhile (· == ' ')).length ≤ indent then
          .done (utf8Length cs)
        else .go (utf8Length cs + 1 + utf8Length line)) := by
  have hnext : utf8Length cs + 1 = utf8Length (cs ++ ['\n']) := by simp
  rw [List.append_cons, blockTurn?, lineEnd?_eq _ _ hnext, hline, Option.bind_eq_bind,
    Option.bind_some, slice?_append hnext rfl, Option.bind_eq_bind, Option.bind_some]
  split <;> rfl

theorem takeTurns?_blockTurn? (cs : List Char) {rest : List Char}
    (hrest : rest = [] ∨ ∃ more, rest = '\n' :: more) (indent : Nat) {left : Nat}
    (hleft : rest.length ≤ left) :
    takeTurns? (blockTurn? (cs ++ rest) indent) (utf8Length (cs ++ rest)) id (utf8Length cs) =
      some (utf8Length (cs ++ rest.take (blockLines indent left rest))) := by
  -- on the lines that are left: the loop is always at the end of one, in front of its line feed
  induction left generalizing cs rest with
  | zero =>
    obtain rfl := List.eq_nil_of_length_eq_zero (Nat.le_zero.1 hleft)
    simpa using takeTurns?_end id (Nat.le_refl (utf8Length cs))
  | succ left ih =>
    rcases hrest with rfl | ⟨more, rfl⟩
    · simpa using takeTurns?_end id (Nat.le_refl (utf8Length cs))
    · obtain ⟨line, rest, rfl, hline, -, hrest⟩ := line_ahead more
      have hinside : utf8Length cs < utf8Length (cs ++ '\n' :: (line ++ rest)) := by simp
      have hturn := blockTurn?_eq cs hline indent
      rw [blockLines, hline]
      split at hturn
      next hdone =>
        -- the next line does not belong to the scalar
        rw [if_pos hdone, takeTurns?_done id hinside hturn, List.take_zero, List.append_nil]
      next hgo =>
        have hnext : utf8Length cs + 1 + utf8Length line = utf8Length (cs ++ '\n' :: line) := by
          simp [Nat.add_assoc]
        have hlines := ih (cs ++ '\n' :: line) hrest (by simp at hleft; omega)
        rw [if_neg hgo, takeTurns?_go id hinside hturn (by omega), hnext, List.drop_left,
          Nat.add_right_comm, List.take_succ_cons, List.take_length_add_append]
        simpa using hlines

theorem blockBehind?_eq (cs rest : List Char) {c : Char} (hc : isAscii c = true) (hfeed : c ≠ '\n')
    {before : List Char} {indent : Nat} (howner : ownerIndent? before = some indent) :
    blockBehind? (cs ++ c :: rest) (some indent) (utf8Length cs) =
      some ((blockLength? before rest).map fun n =>
        utf8Length cs + 1 + utf8Length (rest.take n)) := by
  obtain ⟨line, rest, rfl, hline, -, hrest⟩ := line_ahead rest
  have hsize := utf8Size_of_isAscii hc
  have hhere : (c :: (line ++ rest)).takeWhile (· != '\n') = c :: line := by
    rw [List.takeWhile_cons_of_pos (p := (· != '\n')) (bne_iff_ne.2 hfeed), hline]
  have hstop := lineEnd?_eq cs (c :: (line ++ rest)) rfl
  have hheader : slice? (cs ++ c :: (line ++ rest)) (utf8Length cs + 1)
      (utf8Length cs + utf8Length (c :: line)) = some line :=
    slice?_eq_some_iff.2 ⟨cs ++ [c], rest, by simp, by simp [hsize], by simp⟩
  have hlines := takeTurns?_blockTurn? (cs ++ c :: line) hrest indent (Nat.le_refl _)
  rw [hhere] at hstop
  rw [List.append_assoc, List.cons_append, utf8Length_append cs (c :: line)] at hlines
  simp only [blockBehind?, hstop, hheader, hlines, Option.bind_eq_bind, Option.bind_some,
    Option.pure_def, blockLength?, howner, lineLength, hline, List.take_left, List.drop_left,
    List.length_append, Nat.add_sub_cancel_left]
  split
  next => simp [hsize, List.take_length_add_append, Nat.add_assoc]
  next => rfl

theorem dropWhile_line {line whole : List Char}
    (hwhole : whole = [] ∨ ∃ more, whole = '\n' :: more) :
    (line ++ whole).dropWhile isInlineBlank = line.dropWhile isInlineBlank ++ whole := by
  have hwhole : whole.dropWhile isInlineBlank = whole := by
    rcases hwhole with rfl | ⟨more, rfl⟩ <;> rfl
  rw [List.dropWhile_append, hwhole]
  split
  next hempty => rw [List.isEmpty_iff.1 hempty, List.nil_append]
  next => rfl

theorem ownerAt?_eq (cs rest : List Char) :
    ownerAt? (cs ++ rest) (utf8Length cs) cs.reverse =
      (ownerIndent? (cs.reverse.takeWhile (· != '\n'))).map some := by
  obtain ⟨line, whole, hcs, hline, hstart, hwhole⟩ := line_ahead cs.reverse
  have hslice : slice? (cs ++ rest) (utf8Length whole) (utf8Length cs) = some line.reverse := by
    have hsplit : cs = whole.reverse ++ line.reverse := by simpa using congrArg List.reverse hcs
    exact slice?_eq_some_iff.2 ⟨whole.reverse, rest, by simp [hsplit], by simp, by rw [← hsplit]⟩
  unfold ownerAt? ownerIndent?
  rw [hline, hstart, hcs, dropWhile_line hwhole]
  cases line.dropWhile isInlineBlank with
  | nil => rcases hwhole with rfl | ⟨more, rfl⟩ <;> rfl
  | cons d left =>
    by_cases hcolon : d = ':'
    · subst hcolon
      simp [hslice]
    · by_cases hdash : d = '-'
      · subst hdash
        -- the dash itself is the one character that is taken off
        have hlength : utf8Length ('-' :: (left ++ whole)) =
            utf8Length left + utf8Length whole + 1 := by
          rw [utf8Length_cons, utf8Length_append, Nat.add_comm, utf8Size_of_isAscii rfl]
        simp [hlength, sub?_add, -utf8Length_cons]
      · simp [hcolon, hdash]

theorem blockEnd?_eq (cs rest : List Char) {c : Char} (hc : isAscii c = true) (hfeed : c ≠ '\n') :
    blockEnd? (cs ++ c :: rest) (utf8Length cs) =
      some ((blockLength? (cs.reverse.takeWhile (· != '\n')) rest).map fun n =>
        utf8Length cs + 1 + utf8Length (rest.take n)) := by
  have hupTo : slice? (cs ++ c :: rest) 0 (utf8Length cs) = some cs :=
    slice?_eq_some_iff.2 ⟨[], c :: rest, rfl, rfl, rfl⟩
  rw [blockEnd?, hupTo, Option.bind_eq_bind, Option.bind_some, ownerAt?_eq]
  cases howner : ownerIndent? (cs.reverse.takeWhile (· != '\n')) with
  | none =>
    rw [blockLength?, howner]
    rfl
  | some indent => exact blockBehind?_eq cs rest hc hfeed howner

/-! ## Positions -/

/-- Where lines start, but for the first one; `i` is the offset of the text. -/
def lineStarts (i : Nat) : List Char → List Nat
  | [] => []
  | c :: rest =>
    if c = '\n' then (i + 1) :: lineStarts (i + 1) rest else lineStarts (i + c.utf8Size) rest

/-- The line is told by the starts that are not behind the offset, and the column is counted from
the last one of them. -/
def positionOf? (src : List Char) (offset : Nat) : Option Position := do
  let starts := 0 :: lineStarts 0 src
  let line := (starts.takeWhile (· ≤ offset)).length
  let before ← slice? src (starts.getD (line - 1) 0) offset
  return ⟨line, before.length + 1⟩

theorem lineStarts_append (i : Nat) (cs rest : List Char) :
    lineStarts i (cs ++ rest) = lineStarts i cs ++ lineStarts (i + utf8Length cs) rest := by
  induction cs generalizing i with
  | nil => rfl
  | cons c cs ih =>
    by_cases hc : c = '\n'
    · subst hc
      simp [lineStarts, ih, Nat.add_assoc]
    · simp [lineStarts, hc, ih, Nat.add_assoc]

@[simp] theorem length_lineStarts (i : Nat) (cs : List Char) :
    (lineStarts i cs).length = cs.count '\n' := by
  induction cs generalizing i with
  | nil => rfl
  | cons c cs ih => by_cases hc : c = '\n' <;> simp [lineStarts, hc, ih]

theorem mem_lineStarts {i start : Nat} {cs : List Char} (h : start ∈ lineStarts i cs) :
    i < start ∧ start ≤ i + utf8Length cs := by
  induction cs generalizing i with
  | nil => cases h
  | cons c cs ih =>
    have hpos := c.utf8Size_pos
    rw [utf8Length_cons]
    unfold lineStarts at h
    split at h
    next hc =>
      subst hc
      rw [utf8Size_lineFeed]
      rcases List.mem_cons.1 h with rfl | h
      · omega
      · have := ih h
        omega
    next =>
      have := ih h
      omega

theorem takeWhile_lineStarts (cs rest : List Char) :
    (0 :: lineStarts 0 (cs ++ rest)).takeWhile (· ≤ utf8Length cs) = 0 :: lineStarts 0 cs := by
  have hwithin : ∀ start ∈ 0 :: lineStarts 0 cs, decide (start ≤ utf8Length cs) = true := by
    intro start hstart
    rcases List.mem_cons.1 hstart with rfl | hstart
    · simp
    · simpa using (mem_lineStarts hstart).2
  rw [lineStarts_append, ← List.cons_append, List.takeWhile_append_of_pos hwithin]
  cases hrest : lineStarts (0 + utf8Length cs) rest with
  | nil => simp
  | cons start more =>
    -- lines of the rest start behind the offset
    have hstart := (mem_lineStarts (hrest ▸ List.mem_cons_self)).1
    rw [List.takeWhile_cons_of_neg (by simpa using hstart), List.append_nil]

theorem positionOf?_eq (cs rest : List Char) :
    positionOf? (cs ++ rest) (utf8Length cs) = some (Position.behind cs) := by
  rw [positionOf?, takeWhile_lineStarts, List.length_cons, length_lineStarts, Nat.add_sub_cancel]
  rcases Position.line_cases cs with hcs | ⟨whole, last, rfl, hlast⟩
  · have hslice : slice? (cs ++ rest) 0 (utf8Length cs) = some cs :=
      slice?_eq_some_iff.2 ⟨[], rest, rfl, rfl, rfl⟩
    rw [Position.behind_line hcs, List.count_eq_zero.2 hcs, List.getD_cons_zero, hslice]
    rfl
  · have hslice : slice? (whole ++ '\n' :: last ++ rest) (utf8Length whole + 1)
        (utf8Length (whole ++ '\n' :: last)) = some last :=
      slice?_eq_some_iff.2 ⟨whole ++ ['\n'], rest, by simp, by simp, by simp⟩
    have hstart : (0 :: lineStarts 0 (whole ++ '\n' :: last ++ rest)).getD
        ((whole ++ '\n' :: last).count '\n') 0 = utf8Length whole + 1 := by
      simp [lineStarts_append, lineStarts, List.count_eq_zero.2 hlast]
    rw [Position.behind_lines whole hlast, hstart, hslice]
    simp [List.count_eq_zero.2 hlast]

end Offset

end StreamConfig
