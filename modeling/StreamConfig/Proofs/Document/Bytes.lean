import StreamConfig.Proofs.Document.Places
import StreamConfig.Proofs.Text.Slices

/-! # What single bytes tell

Looking for keys byte by byte comes to bytes that are no characters. None of them is taken for a
character with a meaning, so what is told of a text is told of its bytes:
* `starts_byteChars` — where tokens and comments start
* `isBeforeColon_byteChars` — before which places a colon comes
* `quotedLength?_byteChars` — where quotes are closed
-/

namespace StreamConfig

namespace Offset

open Text

theorem beq_eq_false {c d : Char} (hc : isAscii c = false) (hd : isAscii d = true) :
    (c == d) = false := by
  rw [beq_eq_false_iff_ne]
  rintro rfl
  rw [hc] at hd
  cases hd

theorem isInlineBlank_eq_false {c : Char} (hc : isAscii c = false) : isInlineBlank c = false := by
  simp (disch := decide) only [isInlineBlank, beq_eq_false hc, Bool.or_self]

theorem isAsciiBlank_eq_false {c : Char} (hc : isAscii c = false) : isAsciiBlank c = false := by
  simp (disch := decide) only [isAsciiBlank, beq_eq_false hc, Bool.or_self]

theorem not_isTokenStart {c : Char} (hc : isAscii c = false) (before : List Char) :
    isTokenStart (c :: before) = false := by
  simp (disch := decide) only [isTokenStart, isAsciiBlank_eq_false hc, beq_eq_false hc,
    Bool.or_self]

theorem not_isCommentStart {c : Char} (hc : isAscii c = false) (before : List Char) :
    isCommentStart (c :: before) = false :=
  isAsciiBlank_eq_false hc

/-- The first byte is told apart from ASCII characters as the first character is. -/
theorem firstByte (c : Char) (rest : List Char) :
    ∃ b behind, byteChars (c :: rest) = b :: behind ∧
      (∀ d, isAscii d = true → (b == d) = (c == d)) ∧
      (isAscii c = true → b = c ∧ behind = byteChars rest) := by
  rcases unitChars_cases c with hc | ⟨hc, u, us, hunits, hwide⟩
  · exact ⟨c, byteChars rest, by rw [byteChars_cons, hc]; rfl, fun _ _ => rfl, fun _ => ⟨rfl, rfl⟩⟩
  · refine ⟨u, us ++ byteChars rest, by rw [byteChars_cons, hunits]; rfl, fun d hd => ?_, ?_⟩
    · rw [beq_eq_false hc hd, beq_eq_false (hwide u List.mem_cons_self) hd]
    · intro h
      rw [hc] at h
      cases h

/-- Only the first byte of a character can be one itself. -/
theorem exists_units (c : Char) :
    ∃ u us, unitChars c = u :: us ∧ ∀ w ∈ us, isAscii w = false := by
  rcases unitChars_cases c with hc | ⟨-, u, us, hunits, hwide⟩
  · exact ⟨c, [], hc, fun _ hw => absurd hw List.not_mem_nil⟩
  · exact ⟨u, us, hunits, fun w hw => hwide w (List.mem_cons_of_mem _ hw)⟩

/-- Where a token starts is told by the last byte as by the last character of the line. -/
theorem starts_byteChars (cs : List Char) :
    isTokenStart (byteChars cs).reverse = isTokenStart (cs.reverse.takeWhile (· != '\n')) ∧
      isCommentStart (byteChars cs).reverse =
        isCommentStart (cs.reverse.takeWhile (· != '\n')) := by
  rcases List.eq_nil_or_concat cs with rfl | ⟨before, c, rfl⟩
  · exact ⟨rfl, rfl⟩
  · rw [List.concat_eq_append, byteChars_append, List.reverse_append, List.reverse_append,
      byteChars_cons, byteChars_nil, List.append_nil, List.reverse_singleton, List.singleton_append]
    rcases unitChars_cases c with hc | ⟨hc, u, us, hunits, hwide⟩
    · rw [hc]
      by_cases hfeed : c = '\n'
      · subst hfeed
        exact ⟨rfl, rfl⟩
      · rw [List.takeWhile_cons_of_pos (p := (· != '\n')) (bne_iff_ne.2 hfeed)]
        exact ⟨rfl, rfl⟩
    · have hfeed : (c != '\n') = true := by rw [bne, beq_eq_false hc rfl, Bool.not_false]
      rw [List.takeWhile_cons_of_pos (p := (· != '\n')) hfeed, hunits]
      obtain ⟨w, ws, hlast⟩ :=
        List.exists_cons_of_ne_nil (List.reverse_ne_nil_iff.2 (List.cons_ne_nil u us))
      have hw := hwide w (List.mem_reverse.1 (hlast ▸ List.mem_cons_self))
      rw [hlast, List.cons_append, not_isTokenStart hc, not_isTokenStart hw, not_isCommentStart hc,
        not_isCommentStart hw]
      exact ⟨rfl, rfl⟩

theorem isBeforeColon_cons (c : Char) (cs : List Char) :
    isBeforeColon (c :: cs) = (c == ':' || isInlineBlank c && isBeforeColon cs) := by
  unfold isBeforeColon
  by_cases hblank : isInlineBlank c = true
  · have hcolon : (c == ':') = false := by
      rw [beq_eq_false_iff_ne]
      rintro rfl
      cases hblank
    rw [List.dropWhile_cons_of_pos hblank, hblank, hcolon, Bool.false_or, Bool.true_and]
  · rw [List.dropWhile_cons_of_neg hblank, Bool.eq_false_iff.2 hblank, Bool.false_and,
      Bool.or_false]
    by_cases hcolon : c = ':'
    · subst hcolon
      rfl
    · simp [hcolon]

theorem isBeforeColon_byteChars (cs : List Char) :
    isBeforeColon (byteChars cs) = isBeforeColon cs := by
  induction cs with
  | nil => rfl
  | cons c cs ih =>
    rcases unitChars_cases c with hc | ⟨hc, u, us, hunits, hwide⟩
    · rw [byteChars_cons, hc, List.singleton_append, isBeforeColon_cons, ih, isBeforeColon_cons]
    · have hu := hwide u List.mem_cons_self
      rw [byteChars_cons, hunits, List.cons_append, isBeforeColon_cons, isBeforeColon_cons,
        beq_eq_false hc rfl, beq_eq_false hu rfl, isInlineBlank_eq_false hc,
        isInlineBlank_eq_false hu]
      rfl

theorem isKey_byteChars (key cs : List Char) :
    ((byteChars key).isPrefixOf (byteChars cs) &&
        isBeforeColon ((byteChars cs).drop (utf8Length key))) =
      (key.isPrefixOf cs && isBeforeColon (cs.drop key.length)) := by
  rw [Bool.eq_iff_iff, Bool.and_eq_true, Bool.and_eq_true, List.isPrefixOf_iff_prefix,
    List.isPrefixOf_iff_prefix, isPrefix_byteChars_iff]
  refine and_congr_right ?_
  rintro ⟨rest, rfl⟩
  rw [byteChars_append, ← length_byteChars, List.drop_left, List.drop_left,
    isBeforeColon_byteChars]

theorem quotedLength?_passes {quote : Char} (hquote : isAscii quote = true) {us : List Char}
    (hwide : ∀ u ∈ us, isAscii u = false) (rest : List Char) :
    quotedLength? quote (us ++ rest) = (quotedLength? quote rest).map (· + us.length) := by
  induction us with
  | nil => simp
  | cons u us ih =>
    obtain ⟨hu, hwide⟩ := List.forall_mem_cons.1 hwide
    rw [List.cons_append, quotedLength?_pass (beq_eq_false hu hquote) (beq_eq_false hu rfl),
      ih hwide, Option.map_map]
    rfl

theorem quotedLength?_byteChars {quote : Char} (hquote : quote = '"' ∨ quote = '\'')
    (cs : List Char) :
    quotedLength? quote (byteChars cs) =
      (quotedLength? quote cs).map fun n => utf8Length (cs.take n) := by
  have hascii : isAscii quote = true := by rcases hquote with rfl | rfl <;> rfl
  -- along the search for the quote, which may be inside of a character only behind a backslash
  induction cs using quotedLength?.induct quote with
  | case1 => rfl
  | case2 c hc =>
    obtain rfl : c = quote := beq_iff_eq.1 (Bool.and_eq_true_iff.1 hc).1
    rw [byteChars_cons, unitChars_of_isAscii hascii, byteChars_nil, List.append_nil, quotedLength?,
      if_pos hc]
    rfl
  | case3 c hc =>
    have hnone : quotedLength? quote [c] = none := by rw [quotedLength?, if_neg hc]
    rw [hnone, byteChars_cons, byteChars_nil]
    rcases unitChars_cases c with hunits | ⟨-, u, us, hunits, hwide⟩
    · rw [hunits]
      exact hnone
    · rw [hunits, quotedLength?_passes hascii hwide]
      rfl
  | case4 c d rest hc ih =>
    -- the backslash takes the first byte with it, and the others are passed over
    obtain ⟨u, us, hunits, hwide⟩ := exists_units d
    have hsize := length_unitChars d
    rw [hunits, List.length_cons] at hsize
    have hslash : isAscii c = true := by
      rw [beq_iff_eq.1 (Bool.and_eq_true_iff.1 hc).2]
      rfl
    rw [byteChars_cons, byteChars_cons, hunits, unitChars_of_isAscii hslash, List.singleton_append,
      List.cons_append, quotedLength?, if_pos hc, quotedLength?, if_pos hc,
      quotedLength?_passes hascii hwide, ih, Option.map_map, Option.map_map, Option.map_map]
    refine congrArg (Option.map · _) (funext fun n => ?_)
    simp [utf8Size_of_isAscii hslash]
    omega
  | case5 c d rest hc hclose hd ih =>
    have hsame : c = quote ∧ d = quote := by
      simp only [Bool.and_eq_true, beq_iff_eq] at hclose hd
      exact ⟨hclose, hd.2.trans hd.1.symm⟩
    obtain ⟨rfl, rfl⟩ := hsame
    rw [byteChars_cons, byteChars_cons, unitChars_of_isAscii hascii, List.singleton_append,
      List.singleton_append, quotedLength?, if_neg hc, if_pos hclose, if_pos hd, quotedLength?,
      if_neg hc, if_pos hclose, if_pos hd, ih, Option.map_map, Option.map_map]
    refine congrArg (Option.map · _) (funext fun n => ?_)
    simp [utf8Size_of_isAscii hascii]
    omega
  | case6 c d rest hc hclose hd =>
    obtain ⟨b, behind, hbytes, hfirst, -⟩ := firstByte d rest
    obtain rfl := beq_iff_eq.1 hclose
    have hfirst : ¬ (c == '\'' && b == '\'') = true := by rwa [hfirst '\'' rfl]
    rw [byteChars_cons, hbytes, unitChars_of_isAscii hascii, List.singleton_append, quotedLength?,
      if_neg hc, if_pos hclose, if_neg hfirst, quotedLength?, if_neg hc, if_pos hclose, if_neg hd]
    rfl
  | case7 c d rest hc hclose ih =>
    have hpass : quotedLength? quote (unitChars c ++ byteChars (d :: rest)) =
        (quotedLength? quote (byteChars (d :: rest))).map (· + c.utf8Size) := by
      have hsize := length_unitChars c
      rcases unitChars_cases c with hunits | ⟨-, u, us, hunits, hwide⟩
      · obtain ⟨b, behind, hbytes, -, -⟩ := firstByte d rest
        rw [← hsize, hunits, hbytes, List.singleton_append, quotedLength?, if_neg hc, if_neg hclose]
        rfl
      · rw [← hsize, hunits, quotedLength?_passes hascii hwide]
    rw [byteChars_cons, hpass, ih, quotedLength?, if_neg hc, if_neg hclose, Option.map_map,
      Option.map_map]
    refine congrArg (Option.map · _) (funext fun n => ?_)
    simp [Nat.add_comm]

end Offset

end StreamConfig
