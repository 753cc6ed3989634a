import StreamConfig.Document.Positions

/-! # Places in a text

A cursor keeps only what it needs of the text behind it: a line number and the characters of the
current line. Here a cursor is told apart by the whole text behind it and the text that is left, so
that moving it is appending:
* `Position.behind` — the position that follows a text
* `Cursor.between` — the cursor with one text behind it and another one left
* `isKeyAhead_of_lookAt`, `exists_ahead_of_seek` — a search only moves forward, to where its key
  comes next
* `Position.IsUpTo` — not later than another position; what is behind more text is not earlier
-/

namespace StreamConfig

namespace Position

/-- The position that follows a text: one line more than it has line feeds, and one column more than
its last line has characters. -/
def behind (cs : List Char) : Position :=
  ⟨cs.count '\n' + 1, (cs.reverse.takeWhile (· != '\n')).length + 1⟩

/-- A text is one line, or ends in a line behind a line feed. -/
theorem line_cases (cs : List Char) :
    '\n' ∉ cs ∨ ∃ whole last, cs = whole ++ '\n' :: last ∧ '\n' ∉ last := by
  by_cases h : '\n' ∈ cs
  · obtain ⟨last, whole, hreverse, hlast⟩ :=
      List.eq_append_cons_of_mem (List.mem_reverse.2 h)
    refine .inr ⟨whole.reverse, last.reverse, ?_, by simpa using hlast⟩
    simpa using congrArg List.reverse hreverse
  · exact .inl h

theorem takeWhile_reverse_append {last : List Char} (h : '\n' ∉ last) (before : List Char) :
    (last.reverse ++ before).takeWhile (· != '\n') =
      last.reverse ++ before.takeWhile (· != '\n') := by
  apply List.takeWhile_append_of_pos
  intro c hc
  rw [bne_iff_ne]
  rintro rfl
  exact h (List.mem_reverse.1 hc)

theorem takeWhile_reverse_line {cs : List Char} (h : '\n' ∉ cs) :
    cs.reverse.takeWhile (· != '\n') = cs.reverse := by
  simpa using takeWhile_reverse_append h []

theorem takeWhile_reverse_lines (whole : List Char) {last : List Char} (h : '\n' ∉ last) :
    (whole ++ '\n' :: last).reverse.takeWhile (· != '\n') = last.reverse := by
  simpa using takeWhile_reverse_append h ('\n' :: whole.reverse)

theorem behind_line {cs : List Char} (h : '\n' ∉ cs) : behind cs = ⟨1, cs.length + 1⟩ := by
  simp [behind, takeWhile_reverse_line h, List.count_eq_zero.2 h]

theorem behind_lines (whole : List Char) {last : List Char} (h : '\n' ∉ last) :
    behind (whole ++ '\n' :: last) = ⟨whole.count '\n' + 2, last.length + 1⟩ := by
  rw [behind, takeWhile_reverse_lines whole h]
  simp [List.count_eq_zero.2 h]

/-- Not later in the text. -/
def IsUpTo (p q : Position) : Prop := p.line < q.line ∨ (p.line = q.line ∧ p.column ≤ q.column)

theorem IsUpTo.refl (p : Position) : p.IsUpTo p := .inr ⟨rfl, Nat.le_refl _⟩

theorem IsUpTo.trans {p q r : Position} (h : p.IsUpTo q) (h' : q.IsUpTo r) : p.IsUpTo r := by
  unfold IsUpTo at *
  omega

theorem IsUpTo.line_le {p q : Position} (h : p.IsUpTo q) : p.line ≤ q.line := by
  unfold IsUpTo at h
  omega

theorem IsUpTo.of_isBefore {p q : Position} (h : p.isBefore q = true) : p.IsUpTo q := by
  simp only [isBefore, Bool.or_eq_true, decide_eq_true_eq, Bool.and_eq_true, beq_iff_eq] at h
  unfold IsUpTo
  omega

theorem isBefore_eq_false_iff {p q : Position} : q.isBefore p = false ↔ p.IsUpTo q := by
  simp only [isBefore, Bool.or_eq_false_iff, decide_eq_false_iff_not, Bool.and_eq_false_iff,
    beq_eq_false_iff_ne, IsUpTo]
  omega

/-- One more character moves the position on as that character does. -/
theorem behind_snoc (cs : List Char) (c : Char) : behind (cs ++ [c]) = (behind cs).after c := by
  unfold behind after
  by_cases hc : c = '\n'
  · subst hc
    simp
  · have hbne : (c != '\n') = true := bne_iff_ne.2 hc
    simp [hc, hbne]

/-- What is behind more text is not earlier, and is later if the text is not empty. -/
theorem behind_append (cs more : List Char) :
    (behind cs).IsUpTo (behind (cs ++ more)) ∧ (more ≠ [] → behind (cs ++ more) ≠ behind cs) := by
  suffices h : (behind cs).IsUpTo (behind (cs ++ more)) ∧
      (more ≠ [] → ¬ (behind (cs ++ more)).IsUpTo (behind cs)) from
    ⟨h.1, fun hmore heq => h.2 hmore (heq ▸ .refl _)⟩
  induction more generalizing cs with
  | nil => exact ⟨by rw [List.append_nil]; exact .refl _, fun h => absurd rfl h⟩
  | cons c more ih =>
    -- one character leads to a later place, and the characters after it not back
    have hstep : (behind cs).IsUpTo ((behind cs).after c) ∧
        ¬ ((behind cs).after c).IsUpTo (behind cs) := by
      unfold IsUpTo after
      split <;> simp
    have hrest := (ih (cs ++ [c])).1
    rw [List.append_assoc, List.singleton_append, behind_snoc] at hrest
    exact ⟨hstep.1.trans hrest, fun _ h => hstep.2 (hrest.trans h)⟩

theorem behind_ne {cs more : List Char} (h : more ≠ []) : behind (cs ++ more) ≠ behind cs :=
  (behind_append cs more).2 h

theorem isUpTo_of_prefix {cs ds : List Char} (h : cs <+: ds) : (behind cs).IsUpTo (behind ds) := by
  obtain ⟨more, rfl⟩ := h
  exact (behind_append cs more).1

end Position

/-- The key comes next, and a colon comes behind it or behind the quote that closes it. -/
def IsKeyAhead (key left : List Char) : Prop :=
  ∃ quote rest, left = key ++ (quote ++ rest) ∧
    (quote = [] ∨ quote = ['"'] ∨ quote = ['\'']) ∧ isBeforeColon rest = true

/-- A character that is neither a backslash nor the quote itself is passed over. -/
theorem quotedLength?_pass {quote c : Char} (hquote : (c == quote) = false)
    (hslash : (c == '\\') = false) (rest : List Char) :
    quotedLength? quote (c :: rest) = (quotedLength? quote rest).map (· + 1) := by
  cases rest with
  | nil => simp [quotedLength?, hquote]
  | cons d rest => simp [quotedLength?, hquote, hslash]

/-- Behind a quoted text stands its closing quote. -/
theorem getElem?_of_quotedLength? {quote : Char} {cs : List Char} {n : Nat}
    (h : quotedLength? quote cs = some n) : cs[n]? = some quote := by
  induction cs using quotedLength?.induct quote generalizing n with
  | case1 => cases h
  | case2 c hc =>
    rw [quotedLength?, if_pos hc] at h
    cases h
    rw [Bool.and_eq_true, beq_iff_eq] at hc
    rw [hc.1]
    rfl
  | case3 c hc =>
    rw [quotedLength?, if_neg hc] at h
    cases h
  | case4 c d rest hc ih =>
    rw [quotedLength?, if_pos hc] at h
    obtain ⟨m, hm, rfl⟩ := Option.map_eq_some_iff.1 h
    exact ih hm
  | case5 c d rest hc hquote hd ih =>
    rw [quotedLength?, if_neg hc, if_pos hquote, if_pos hd] at h
    obtain ⟨m, hm, rfl⟩ := Option.map_eq_some_iff.1 h
    exact ih hm
  | case6 c d rest hc hquote hd =>
    rw [quotedLength?, if_neg hc, if_pos hquote, if_neg hd] at h
    cases h
    rw [beq_iff_eq.1 hquote]
    rfl
  | case7 c d rest hc hquote ih =>
    rw [quotedLength?, if_neg hc, if_neg hquote] at h
    obtain ⟨m, hm, rfl⟩ := Option.map_eq_some_iff.1 h
    exact ih hm

/-- A look that finds the key has it ahead. -/
theorem isKeyAhead_of_lookAt {key before rest : List Char} {c : Char} {behind : Nat}
    (h : lookAt key before c rest = .key behind) :
    IsKeyAhead key ((c :: rest).drop behind) := by
  unfold lookAt at h
  split at h
  next => cases h
  next =>
    split at h
    next hquote =>
      split at h
      next => cases h
      next n hlength =>
        split at h
        next hkey =>
          -- a key between its quotes
          cases h
          obtain ⟨hbody, hcolon⟩ := Bool.and_eq_true_iff.1 hkey
          have hclose : rest.drop n = rest[n]?.toList ++ rest.drop (n + 1) :=
            List.drop_eq_getElem?_toList_append
          rw [getElem?_of_quotedLength? hlength] at hclose
          refine ⟨[c], rest.drop (n + 1), ?_, ?_, hcolon⟩
          · rw [← beq_iff_eq.1 hbody, List.drop_succ_cons, List.drop_zero]
            exact (List.take_append_drop n rest).symm.trans (congrArg _ hclose)
          · simp only [Bool.and_eq_true, Bool.or_eq_true, beq_iff_eq] at hquote
            rcases hquote.1 with rfl | rfl <;> simp
        next => cases h
    next =>
      split at h
      next => split at h <;> cases h
      next =>
        split at h
        next hkey =>
          cases h
          simp only [Bool.and_eq_true, List.isPrefixOf_iff_prefix] at hkey
          obtain ⟨⟨-, more, hmore⟩, hcolon⟩ := hkey
          refine ⟨[], more, hmore.symm, .inl rfl, ?_⟩
          rwa [← hmore, List.drop_left] at hcolon
        next => cases h

namespace Cursor

/-- The cursor with one text behind it and another one left. -/
def between (cs rest : List Char) : Cursor :=
  ⟨cs.count '\n' + 1, cs.reverse.takeWhile (· != '\n'), rest⟩

theorem position_between (cs rest : List Char) :
    (between cs rest).position = Position.behind cs := rfl

theorem step_between (cs rest : List Char) (c : Char) :
    (between cs (c :: rest)).step = between (cs ++ [c]) rest := by
  unfold between step
  by_cases hc : c = '\n'
  · subst hc
    simp
  · have hbne : (c != '\n') = true := bne_iff_ne.2 hc
    simp [hc, hbne]

theorem advance_between (cs rest : List Char) (n : Nat) :
    (between cs rest).advance n = between (cs ++ rest.take n) (rest.drop n) := by
  induction n generalizing cs rest with
  | zero => simp [advance]
  | succ n ih =>
    cases rest with
    | nil =>
      have hstep : (between cs []).step = between cs [] := rfl
      rw [advance, hstep, ih]
      simp
    | cons c rest =>
      rw [advance, step_between, ih]
      simp

/-! ## Searching -/

/-- A search from a cursor. -/
def seek (key : List Char) (skip : Nat) (c : Cursor) : Option Cursor :=
  search key skip c.line c.before c.rest

theorem find_eq_seek (c : Cursor) (key : String) : c.find key = c.seek key.toList 0 := rfl

theorem seek_nil (key cs : List Char) (skip : Nat) : (between cs []).seek key skip = none := by
  unfold seek between search
  rfl

theorem seek_succ (key cs rest : List Char) (skip : Nat) (c : Char) :
    (between cs (c :: rest)).seek key (skip + 1) = (between (cs ++ [c]) rest).seek key skip := by
  rw [← step_between]
  unfold seek step
  simp only [between, search]
  split <;> rfl

/-- One look at the character that comes next. -/
theorem seek_zero (key cs rest : List Char) (c : Char) :
    (between cs (c :: rest)).seek key 0 =
      match lookAt key (cs.reverse.takeWhile (· != '\n')) c rest with
      | .key behind => some ((between cs (c :: rest)).advance behind)
      | .pass more => (between (cs ++ [c]) rest).seek key more := by
  rw [← step_between]
  unfold seek step
  simp only [between, search]
  cases lookAt key (cs.reverse.takeWhile (· != '\n')) c rest with
  | key behind => rfl
  | pass more =>
    dsimp only
    split <;> rfl

/-- Passing over a number of characters. -/
theorem seek_drop (key cs rest : List Char) (n : Nat) :
    (between cs rest).seek key n = (between (cs ++ rest.take n) (rest.drop n)).seek key 0 := by
  induction rest generalizing cs n with
  | nil => simp [seek_nil]
  | cons c rest ih =>
    cases n with
    | zero => simp
    | succ n => rw [seek_succ, ih, List.take_succ_cons, List.drop_succ_cons, ← List.append_cons]

theorem seek_skip (key cs passed rest : List Char) :
    (between cs (passed ++ rest)).seek key passed.length =
      (between (cs ++ passed) rest).seek key 0 := by
  rw [seek_drop, List.take_left, List.drop_left]

/-- A search ends where the key comes next. -/
theorem exists_ahead_of_seek {key cs rest : List Char} {skip : Nat} {c : Cursor}
    (h : (between cs rest).seek key skip = some c) :
    ∃ passed left, rest = passed ++ left ∧ c = between (cs ++ passed) left ∧
      IsKeyAhead key left := by
  induction rest generalizing cs skip with
  | nil =>
    rw [seek_nil] at h
    cases h
  | cons d rest ih =>
    have hnext : ∀ {more}, (between (cs ++ [d]) rest).seek key more = some c →
        ∃ passed left, d :: rest = passed ++ left ∧ c = between (cs ++ passed) left ∧
          IsKeyAhead key left := by
      intro more hmore
      obtain ⟨passed, left, rfl, rfl, hahead⟩ := ih hmore
      exact ⟨d :: passed, left, rfl, by rw [List.append_assoc]; rfl, hahead⟩
    cases skip with
    | succ skip =>
      rw [seek_succ] at h
      exact hnext h
    | zero =>
      rw [seek_zero] at h
      split at h
      next behind hlook =>
        cases h
        exact ⟨(d :: rest).take behind, (d :: rest).drop behind,
          (List.take_append_drop ..).symm, advance_between .., isKeyAhead_of_lookAt hlook⟩
      next more hlook => exact hnext h

theorem exists_between_of_seek {key cs rest : List Char} {skip : Nat} {c : Cursor}
    (h : (between cs rest).seek key skip = some c) :
    ∃ passed left, rest = passed ++ left ∧ c = between (cs ++ passed) left := by
  obtain ⟨passed, left, hrest, hc, -⟩ := exists_ahead_of_seek h
  exact ⟨passed, left, hrest, hc⟩

theorem exists_between_of_find {cs rest : List Char} {key : String} {c : Cursor}
    (h : (between cs rest).find key = some c) :
    ∃ passed left, rest = passed ++ left ∧ c = between (cs ++ passed) left :=
  exists_between_of_seek h

end Cursor

end StreamConfig
