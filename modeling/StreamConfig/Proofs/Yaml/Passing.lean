import Mathlib.Data.List.Chain
import Mathlib.Data.List.TakeWhile
import StreamConfig.Proofs.Document.Passing
import StreamConfig.Proofs.Yaml.Lines

/-! # Searching through lines

What a search for a key passes over in a text of lines:
* `seek_frame` — margins, colons and ends of lines, in which no name starts
* `Line.blockLength?_eq` — a bar in a scalar: it may start what looks like a block scalar, but that
  ends with the line
* `Line.seek_scalar` — a quiet scalar
* `Line.seek_line` — so everything from behind the key of a line up to the next line
-/

namespace StreamConfig.Yaml

/-- A text without a line feed belongs to the line as a whole. -/
theorem takeWhile_line_append {cs : List Char} (h : '\n' ∉ cs) (rest : List Char) :
    (cs ++ rest).takeWhile (· != '\n') = cs ++ rest.takeWhile (· != '\n') := by
  refine List.takeWhile_append_of_pos fun c hc => ?_
  rw [bne_iff_ne]
  rintro rfl
  exact h hc

/-! ## Margins -/

theorem length_marginText (margin : List Mark) :
    (marginText margin).length = 2 * margin.length := by
  induction margin with
  | nil => rfl
  | cons m margin ih =>
    cases m <;> simp [ih] <;> omega

theorem mem_marginText {margin : List Mark} {c : Char} (h : c ∈ marginText margin) :
    c = ' ' ∨ c = '-' := by
  obtain ⟨m, -, hm⟩ := List.mem_flatMap.1 h
  cases m with
  | spaces => exact .inl (by simpa [Mark.text] using hm)
  | dash => simpa [Mark.text, or_comm] using hm

/-- Characters of a line that belong neither to a key nor to a scalar. -/
def isFrame (c : Char) : Bool := c == ' ' || c == '-' || c == ':' || c == '\n'

theorem isFrame_of_mem_margin {margin : List Mark} {c : Char} (h : c ∈ marginText margin) :
    isFrame c = true := by
  rcases mem_marginText h with rfl | rfl <;> rfl

theorem newline_not_mem_margin (margin : List Mark) : '\n' ∉ marginText margin := by
  intro h
  rcases mem_marginText h with heq | heq <;> cases heq

theorem keyIndent_space (steps : Nat) (cs : List Char) :
    keyIndent steps (' ' :: cs) = keyIndent steps cs + 1 := by
  unfold keyIndent
  simp only [List.takeWhile_cons, beq_self_eq_true, if_true, List.length_cons, List.drop_succ_cons]
  split <;> omega

theorem keyIndent_dash (steps : Nat) (cs : List Char) :
    keyIndent (steps + 1) ('-' :: ' ' :: cs) = keyIndent steps cs + 2 := by
  simp [keyIndent, Nat.add_comm]

/-- The first key of a line is indented at least as far as its margin goes. -/
theorem le_keyIndent (margin : List Mark) {steps : Nat} (h : margin.length ≤ steps)
    (cs : List Char) : 2 * margin.length ≤ keyIndent steps (marginText margin ++ cs) := by
  induction margin generalizing steps with
  | nil => simp
  | cons m margin ih =>
    rw [List.length_cons] at h
    cases m with
    | spaces =>
      have hrest : 2 * margin.length ≤ keyIndent steps (marginText margin ++ cs) := ih (by omega)
      simp only [marginText_spaces, List.cons_append, keyIndent_space, List.length_cons]
      omega
    | dash =>
      obtain ⟨steps, rfl⟩ : ∃ n, steps = n + 1 := ⟨steps - 1, by omega⟩
      have hrest : 2 * margin.length ≤ keyIndent steps (marginText margin ++ cs) := ih (by omega)
      simp only [marginText_dash, List.cons_append, keyIndent_dash, List.length_cons]
      omega

theorem length_le_utf8Length (cs : List Char) : cs.length ≤ Text.utf8Length cs := by
  induction cs with
  | nil => simp
  | cons c cs ih =>
    have hpos := c.utf8Size_pos
    simp only [Text.utf8Length, List.length_cons]
    omega

/-- What owns a block scalar is indented at least as far as the margin goes, if something that is
no blank stands between the margin and the scalar. -/
theorem le_of_ownerIndent? {margin : List Mark} {pre : List Char} {indent : Nat}
    (hpre : ∃ c ∈ pre, Text.isInlineBlank c = false)
    (h : ownerIndent? (marginText margin ++ pre).reverse = some indent) :
    2 * margin.length ≤ indent := by
  have hmargin := length_marginText margin
  -- blanks are dropped from behind, and do not reach the margin
  obtain ⟨c, tail, htail⟩ : ∃ c tail, pre.reverse.dropWhile Text.isInlineBlank = c :: tail := by
    rw [← List.ne_nil_iff_exists_cons, Ne, List.dropWhile_eq_nil_iff]
    obtain ⟨c, hc, hblank⟩ := hpre
    exact fun hall => by simp [hall c (List.mem_reverse.2 hc)] at hblank
  have hdrop : (marginText margin ++ pre).reverse.dropWhile Text.isInlineBlank =
      c :: (tail ++ (marginText margin).reverse) := by
    rw [List.reverse_append, List.dropWhile_append, htail]
    rfl
  unfold ownerIndent? at h
  rw [hdrop] at h
  split at h
  next =>
    obtain rfl := Option.some.inj h
    rw [List.reverse_reverse]
    exact le_keyIndent margin (by simp; omega) pre
  next left heq =>
    obtain rfl := Option.some.inj h
    have hleft := length_le_utf8Length left
    rw [← (List.cons.inj heq).2, List.length_append, List.length_reverse] at hleft
    rw [← (List.cons.inj heq).2]
    omega
  next => cases h

/-- A token may start behind a margin. -/
theorem isTokenStart_margin (margin : List Mark) :
    isTokenStart (marginText margin).reverse = true := by
  rcases List.eq_nil_or_concat margin with rfl | ⟨margin, m, rfl⟩
  · rfl
  · cases m <;> simp [marginText, Mark.text, isTokenStart, Text.isAsciiBlank]

/-- The spaces at the front of a line are those of its margin, unless the margin holds spaces alone
and what follows starts with one. -/
theorem length_takeWhile_space {margin : List Mark} {cs : List Char}
    (h : Mark.dash ∈ margin ∨ cs.head? ≠ some ' ') :
    ((marginText margin ++ cs).takeWhile (· == ' ')).length =
      2 * (margin.takeWhile (· == .spaces)).length := by
  induction margin with
  | nil =>
    have hcs := h.resolve_left List.not_mem_nil
    cases cs with
    | nil => rfl
    | cons c cs => simp_all
  | cons m margin ih =>
    cases m with
    | spaces =>
      have hrest := ih (by simpa using h)
      simp only [marginText_spaces, List.cons_append, List.takeWhile_cons, beq_self_eq_true,
        if_true, List.length_cons]
      omega
    | dash => simp

/-! ## Characters of names and scalars -/

theorem isBare_of_isLabelChar {c : Char} (h : Label.isLabelChar c = true) : isBare c = true := by
  simp only [isBare, Bool.and_eq_true, bne_iff_ne]
  refine ⟨⟨⟨⟨?_, ?_⟩, ?_⟩, ?_⟩, ?_⟩ <;> rintro rfl <;> cases h

/-- Letters, digits and underscores lie apart from all blanks. -/
theorem not_isBlank_of_isLabelChar {c : Char} (h : Label.isLabelChar c = true) :
    Text.isBlank c = false := by
  have hrange : 48 ≤ c.toNat ∧ c.toNat ≤ 122 := by
    simp only [Label.isLabelChar, Bool.or_eq_true, beq_iff_eq] at h
    rcases h with (hlower | hdigit) | rfl
    · obtain ⟨hfirst, hlast⟩ := Bool.and_eq_true_iff.1 hlower
      have hletter : 97 ≤ c.toNat ∧ c.toNat ≤ 122 :=
        ⟨of_decide_eq_true hfirst, of_decide_eq_true hlast⟩
      omega
    · obtain ⟨hfirst, hlast⟩ := Bool.and_eq_true_iff.1 hdigit
      have hdigit : 48 ≤ c.toNat ∧ c.toNat ≤ 57 :=
        ⟨of_decide_eq_true hfirst, of_decide_eq_true hlast⟩
      omega
    · decide
  rw [Bool.eq_false_iff]
  intro hblank
  obtain ⟨r, hr, hle⟩ := Text.inRanges_iff.1 hblank
  simp only [Text.blankRanges, List.mem_cons, List.not_mem_nil, or_false] at hr
  rcases hr with rfl | rfl | rfl | rfl | rfl | rfl | rfl | rfl | rfl | rfl <;> omega

theorem exists_cons_of_isName {key : String} (h : isName key = true) :
    ∃ c cs, key.toList = c :: cs ∧ ∀ d ∈ c :: cs, Label.isLabelChar d = true := by
  simp only [isName, Bool.and_eq_true, bne_iff_ne, List.all_eq_true] at h
  obtain ⟨hne, hall⟩ := h
  cases hkey : key.toList with
  | nil => exact absurd (String.toList_eq_nil_iff.1 hkey) hne
  | cons c cs => exact ⟨c, cs, rfl, hkey ▸ hall⟩

/-- What a scalar without quotes is made of. -/
structure IsPlain (text : List Char) : Prop where
  chars : ∀ c ∈ text, isAllowed c = true ∧ isBreak c = false
  starts : startsPlain text = true
  chain : text.IsChain fun c d => ¬ (c = ':' ∧ isBlank d) ∧ ¬ (isBlank c ∧ d = '#')

theorem isPlain_spec {text : List Char} (h : isPlain text = true) : IsPlain text := by
  simp only [isPlain, Bool.and_eq_true, List.all_eq_true, Bool.not_eq_true', decide_eq_true_eq] at h
  exact ⟨h.1.1.1, h.1.1.2, h.2⟩

/-- No comment starts in a plain scalar. -/
theorem IsPlain.not_isCommentStart {x y : List Char} (h : IsPlain (x ++ '#' :: y)) :
    ∃ d before, x.reverse = d :: before ∧ Text.isAsciiBlank d = false := by
  cases hx : x.reverse with
  | nil =>
    obtain rfl := List.reverse_eq_nil_iff.1 hx
    cases h.starts
  | cons d before =>
    obtain rfl : x = before.reverse ++ [d] := by
      rw [← List.reverse_cons, ← hx, List.reverse_reverse]
    obtain ⟨hallowed, hbreak⟩ := h.chars d (by simp)
    have hchain := h.chain
    rw [List.append_assoc, List.singleton_append, List.isChain_append_cons_cons] at hchain
    have hblank := hchain.2.1.2
    refine ⟨d, before, rfl, ?_⟩
    rw [Bool.eq_false_iff]
    intro hascii
    simp only [Text.isAsciiBlank, Bool.or_eq_true, beq_iff_eq] at hascii
    rcases hascii with (((rfl | rfl) | rfl) | rfl) | rfl
    · exact hblank ⟨rfl, rfl⟩
    · exact hblank ⟨rfl, rfl⟩
    · cases hbreak
    · cases hallowed
    · cases hbreak

/-- No bar and no blank starts one. -/
theorem IsPlain.starts_inside {c : Char} {x y : List Char} (h : IsPlain (x ++ c :: y))
    (hc : c = '|' ∨ c = '>') : ∃ d ∈ x, Text.isInlineBlank d = false := by
  cases x with
  | nil => rcases hc with rfl | rfl <;> cases h.starts
  | cons d x =>
    refine ⟨d, List.mem_cons_self, ?_⟩
    rw [Bool.eq_false_iff]
    intro hblank
    simp only [Text.isInlineBlank, Bool.or_eq_true, beq_iff_eq] at hblank
    rcases hblank with rfl | rfl <;> cases h.starts

/-! ## Lines -/

namespace Line

/-- How many levels of spaces the line starts with. -/
def depth (l : Line) : Nat := (l.margin.takeWhile (· == .spaces)).length

/-- The second line may follow on the first one. What looks like a block scalar in the scalar of the
first one does not reach it, since it starts no deeper than the margin of the first one goes. -/
def Precedes (l below : Line) : Prop :=
  l.content.scalar ≠ [] →
    below.depth ≤ l.margin.length ∧ (below.content.key? = none → Mark.dash ∈ below.margin)

variable {l below : Line}

theorem isPlain_scalar (h : l.content.isWellFormed = true) (hne : l.content.scalar ≠ []) :
    IsPlain l.content.scalar := by
  cases hcontent : l.content with
  | opening p key => simp [hcontent, Content.scalar] at hne
  | entry p key scalar =>
    rw [hcontent] at h
    exact isPlain_spec (Bool.and_eq_true_iff.1 h).2
  | item scalar =>
    rw [hcontent] at h
    exact isPlain_spec h

theorem isName_of_key? (h : l.content.isWellFormed = true) {k : Pointer × String}
    (hkey : l.content.key? = some k) : isName k.2 = true ∧ l.content.name = k.2.toList := by
  cases hcontent : l.content with
  | opening p key =>
    rw [hcontent] at h hkey
    obtain rfl := Option.some.inj hkey
    exact ⟨h, rfl⟩
  | entry p key scalar =>
    rw [hcontent] at h hkey
    obtain rfl := Option.some.inj hkey
    exact ⟨(Bool.and_eq_true_iff.1 h).1, rfl⟩
  | item scalar =>
    rw [hcontent] at hkey
    cases hkey

theorem isLabelChar_of_mem_name (h : l.content.isWellFormed = true) {c : Char}
    (hc : c ∈ l.content.name) : Label.isLabelChar c = true := by
  cases hkey : l.content.key? with
  | none =>
    rw [Content.name_eq_nil hkey] at hc
    cases hc
  | some k =>
    obtain ⟨hname, heq⟩ := isName_of_key? h hkey
    obtain ⟨d, cs, hcs, hall⟩ := exists_cons_of_isName hname
    exact hall c (hcs ▸ heq ▸ hc)

/-- A line ends where it says. -/
theorem newline_not_mem (h : l.content.isWellFormed = true) {x y : List Char}
    (hscalar : l.content.scalar = x ++ y) : '\n' ∉ l.upTo x := by
  simp only [upTo, List.mem_append, not_or]
  refine ⟨newline_not_mem_margin _, fun hmem => ?_, fun hmem => ?_, fun hmem => ?_⟩
  · cases isLabelChar_of_mem_name h hmem
  · cases hcontent : l.content <;> simp [hcontent, Content.colon] at hmem
  · have hmem' : '\n' ∈ l.content.scalar := hscalar ▸ List.mem_append_left _ hmem
    obtain ⟨-, hbreak⟩ := (isPlain_scalar h (List.ne_nil_of_mem hmem')).chars _ hmem'
    cases hbreak

theorem takeWhile_textOf (h : below.content.isWellFormed = true) (ls : List Line) :
    (textOf (below :: ls)).takeWhile (· != '\n') = below.upTo below.content.scalar := by
  have htext : textOf (below :: ls) =
      below.upTo below.content.scalar ++ '\n' :: textOf ls := by
    simp [textOf, text]
  rw [htext, takeWhile_line_append (newline_not_mem h (List.append_nil _).symm)]
  simp

/-- A line with a key or a dash is not blank, and the spaces at its front are those of its
margin. -/
theorem not_isBlankText (h : below.content.isWellFormed = true)
    (hdash : below.content.key? = none → Mark.dash ∈ below.margin) :
    Text.isBlankText (below.upTo below.content.scalar) = false ∧
      ((below.upTo below.content.scalar).takeWhile (· == ' ')).length = 2 * below.depth := by
  have hblank : ∀ c ∈ below.upTo below.content.scalar, Text.isBlank c = false →
      Text.isBlankText (below.upTo below.content.scalar) = false := by
    intro c hc hblank
    simpa [Text.isBlankText] using ⟨c, hc, hblank⟩
  cases hkey : below.content.key? with
  | none =>
    have hmem := hdash hkey
    refine ⟨hblank '-' (List.mem_append_left _ ?_) (by decide), length_takeWhile_space (.inl hmem)⟩
    exact List.mem_flatMap.2 ⟨.dash, hmem, List.mem_cons_self⟩
  | some k =>
    obtain ⟨hname, heq⟩ := isName_of_key? h hkey
    obtain ⟨c, cs, hcs, hall⟩ := exists_cons_of_isName hname
    have hc := hall c List.mem_cons_self
    have hupTo : below.upTo below.content.scalar =
        marginText below.margin ++ c :: (cs ++ (below.content.colon ++ below.content.scalar)) := by
      rw [upTo, heq, hcs, List.cons_append]
    refine ⟨hblank c (by simp [hupTo]) (not_isBlank_of_isLabelChar hc), ?_⟩
    rw [hupTo]
    refine length_takeWhile_space (.inr ?_)
    rintro heq
    obtain rfl := Option.some.inj heq
    cases hc

/-- No line below belongs to a block scalar. -/
theorem blockLines_eq_zero (hbelow : below.content.isWellFormed = true) (h : l.Precedes below)
    (hscalar : l.content.scalar ≠ []) {indent : Nat} (hindent : 2 * l.margin.length ≤ indent)
    (left : Nat) (ls : List Line) : blockLines indent left ('\n' :: textOf (below :: ls)) = 0 := by
  obtain ⟨hdepth, hdash⟩ := h hscalar
  obtain ⟨hblank, hspaces⟩ := not_isBlankText hbelow hdash
  cases left with
  | zero => rfl
  | succ left =>
    have hends : 2 * below.depth ≤ indent := by omega
    simp [blockLines, takeWhile_textOf hbelow, hblank, hspaces, hends]

/-- What a bar starts ends with its line. -/
theorem blockLength?_eq (hl : l.content.isWellFormed = true)
    (hbelow : below.content.isWellFormed = true) (h : l.Precedes below) {c : Char} {x y : List Char}
    (hc : c = '|' ∨ c = '>') (hscalar : l.content.scalar = x ++ c :: y) {ls : List Line} {n : Nat}
    (hn : blockLength? (l.upTo x).reverse (y ++ '\n' :: textOf (below :: ls)) = some n) :
    n = y.length := by
  have hne : l.content.scalar ≠ [] := by simp [hscalar]
  have hplain := isPlain_scalar hl hne
  rw [hscalar] at hplain
  have hheader : lineLength (y ++ '\n' :: textOf (below :: ls)) = y.length := by
    have hnewline : '\n' ∉ y := by
      intro hmem
      cases (hplain.chars _ (List.mem_append_right x (List.mem_cons_of_mem c hmem))).2
    rw [lineLength, takeWhile_line_append hnewline]
    simp
  unfold blockLength? at hn
  split at hn
  next => cases hn
  next indent howner =>
    have hinside : ∃ d ∈ l.content.name ++ (l.content.colon ++ x),
        Text.isInlineBlank d = false := by
      obtain ⟨d, hd, hblank⟩ := hplain.starts_inside hc
      exact ⟨d, by simp [hd], hblank⟩
    have hindent := le_of_ownerIndent? hinside howner
    simp only [hheader, List.drop_left, blockLines_eq_zero hbelow h hne hindent] at hn
    split at hn
    next => exact (Option.some.inj hn).symm
    next => cases hn

/-! ## Looks inside a scalar -/

/-- Where a token may start in a scalar can be told from the scalar alone. -/
theorem isTokenStart_upTo (hne : l.content.scalar ≠ []) (x : List Char) :
    isTokenStart (l.upTo x).reverse = isTokenStart x.reverse := by
  cases hx : x.reverse with
  | cons d before =>
    have hupTo : (l.upTo x).reverse =
        d :: (before ++ (marginText l.margin ++ (l.content.name ++ l.content.colon)).reverse) := by
      simp [upTo, hx]
    rw [hupTo]
    rfl
  | nil =>
    obtain rfl := List.reverse_eq_nil_iff.1 hx
    cases hcontent : l.content with
    | opening p key => simp [hcontent, Content.scalar] at hne
    | entry p key scalar =>
      simp [upTo, hcontent, Content.name, Content.colon, isTokenStart, Text.isAsciiBlank]
    | item scalar =>
      have hmargin : isTokenStart (marginText l.margin).reverse = isTokenStart [] :=
        isTokenStart_margin l.margin
      simpa [upTo, hcontent, Content.name, Content.colon] using hmargin

/-- A look at a character of a quiet scalar passes over it, over a quoted part of the scalar, or
over all that is left of it. -/
theorem lookAt_scalar (hl : l.content.isWellFormed = true)
    (hbelow : below.content.isWellFormed = true) (h : l.Precedes below) {c : Char} {x y : List Char}
    (hscalar : l.content.scalar = x ++ c :: y) (ls : List Line) {key : List Char}
    (hquiet : isQuiet key ('\n' :: textOf (below :: ls)) 0 x.reverse (c :: y) = true) :
    ∃ more, lookAt key (l.upTo x).reverse c (y ++ '\n' :: textOf (below :: ls)) = .pass more ∧
      (isQuiet key ('\n' :: textOf (below :: ls)) more (c :: x.reverse) y = true ∨
        more = y.length) := by
  have hne : l.content.scalar ≠ [] := by simp [hscalar]
  have hplain := isPlain_scalar hl hne
  rw [hscalar] at hplain
  have hcomment : (c == '#' && isCommentStart (l.upTo x).reverse) = false := by
    rw [Bool.and_eq_false_iff, Classical.or_iff_not_imp_left]
    intro hc
    obtain rfl : c = '#' := by simpa using hc
    obtain ⟨d, before, hx, hd⟩ := hplain.not_isCommentStart
    simp [upTo, hx, isCommentStart, hd]
  simp only [lookAt, hcomment, isTokenStart_upTo hne, isQuiet] at hquiet ⊢
  cases hstart : isTokenStart x.reverse with
  | false =>
    simp only [hstart] at hquiet ⊢
    exact ⟨0, by simp, .inl hquiet⟩
  | true =>
    simp only [hstart, if_true, Bool.and_true, Bool.true_and] at hquiet ⊢
    by_cases hquote : (c == '"' || c == '\'') = true
    · simp only [hquote, if_true] at hquiet ⊢
      cases hlength : quotedLength? c (y ++ '\n' :: textOf (below :: ls)) with
      | none =>
        simp only [hlength] at hquiet
        exact ⟨0, by simp, .inl hquiet⟩
      | some n =>
        simp only [hlength, Bool.and_eq_true, Bool.not_eq_true'] at hquiet
        refine ⟨n + 1, ?_, .inl hquiet.2⟩
        simp [hquiet.1]
    · simp only [hquote] at hquiet ⊢
      obtain ⟨hkey, hrest⟩ := Bool.and_eq_true_iff.1 hquiet
      rw [List.cons_append, Bool.not_eq_true'] at hkey
      by_cases hbar : (c == '|' || c == '>') = true
      · simp only [hbar, if_true]
        have hc : c = '|' ∨ c = '>' := by simpa using hbar
        cases hblock : blockLength? (l.upTo x).reverse (y ++ '\n' :: textOf (below :: ls)) with
        | none => exact ⟨0, by simp, .inl hrest⟩
        | some n =>
          exact ⟨n, by simp, .inr (blockLength?_eq hl hbelow h hc hscalar hblock)⟩
      · simp only [hbar, hkey]
        exact ⟨0, by simp, .inl hrest⟩

end Line

/-! ## Searching -/

/-- Nothing of the current line stands behind. -/
def EndsLine (behind : List Char) : Prop := behind.reverse.takeWhile (· != '\n') = []

theorem EndsLine.takeWhile_append {behind cs : List Char} (h : EndsLine behind)
    (hcs : '\n' ∉ cs) : (behind ++ cs).reverse.takeWhile (· != '\n') = cs.reverse := by
  rw [List.reverse_append, takeWhile_line_append (by simpa using hcs), h, List.append_nil]

theorem EndsLine.text (behind : List Char) (l : Line) : EndsLine (behind ++ l.text) := by
  simp [EndsLine, Line.text]

open Cursor

section Search

variable {key : String} (hkey : isName key = true)

include hkey

theorem seek_frame (cs rest : List Char) {passed : List Char}
    (hpassed : ∀ c ∈ passed, isFrame c = true) :
    (between cs (passed ++ rest)).seek key.toList 0 =
      (between (cs ++ passed) rest).seek key.toList 0 := by
  obtain ⟨d, ds, hds, hall⟩ := exists_cons_of_isName hkey
  have hd := hall d List.mem_cons_self
  induction passed generalizing cs with
  | nil => simp
  | cons c passed ih =>
    have hframe := hpassed c List.mem_cons_self
    have hbare : isBare c = true := by
      simp only [isFrame, Bool.or_eq_true, beq_iff_eq] at hframe
      rcases hframe with ((rfl | rfl) | rfl) | rfl <;> rfl
    -- no name starts with it
    have hne : d ≠ c := by
      rintro rfl
      simp only [isFrame, Bool.or_eq_true, beq_iff_eq] at hframe
      rcases hframe with ((rfl | rfl) | rfl) | rfl <;> cases hd
    have hlook : lookAt key.toList (cs.reverse.takeWhile (· != '\n')) c (passed ++ rest) =
        .pass 0 := by
      rw [lookAt_bare hbare, hds]
      simp [hne]
    rw [List.cons_append, seek_zero, hlook, List.append_cons cs c passed]
    exact ih (cs ++ [c]) fun e he => hpassed e (List.mem_cons_of_mem _ he)

/-- A key before a colon is found where a token may start. -/
theorem seek_name {cs : List Char} (hstart : StartsToken cs) (rest : List Char) :
    (between cs (key.toList ++ ':' :: rest)).seek key.toList 0 =
      some (between cs (key.toList ++ ':' :: rest)) := by
  obtain ⟨d, ds, hds, hall⟩ := exists_cons_of_isName hkey
  have hbare := isBare_of_isLabelChar (hall d List.mem_cons_self)
  have hlook : lookAt key.toList (cs.reverse.takeWhile (· != '\n')) d (ds ++ ':' :: rest) =
      .key 0 := by
    have hhere : key.toList.isPrefixOf (d :: (ds ++ ':' :: rest)) = true := by
      rw [List.isPrefixOf_iff_prefix, ← List.cons_append, ← hds]
      exact List.prefix_append ..
    have hcolon : isBeforeColon ((d :: (ds ++ ':' :: rest)).drop key.toList.length) = true := by
      rw [← List.cons_append, ← hds, List.drop_left]
      rfl
    have hstart : isTokenStart (cs.reverse.takeWhile (· != '\n')) = true := hstart
    rw [lookAt_bare hbare, hstart, hhere, hcolon]
    rfl
  rw [hds, List.cons_append, seek_zero, ← hds, hlook]
  rfl

end Search

namespace Line

variable {l below : Line} {ls : List Line} {key : String} {behind : List Char}

theorem seek_scalar (hl : l.content.isWellFormed = true)
    (hbelow : below.content.isWellFormed = true) (h : l.Precedes below) (hbehind : EndsLine behind)
    {x y : List Char} (hscalar : l.content.scalar = x ++ y) {skip : Nat}
    (hquiet : isQuiet key.toList ('\n' :: textOf (below :: ls)) skip x.reverse y = true) :
    (between (behind ++ l.upTo x) (y ++ '\n' :: textOf (below :: ls))).seek key.toList skip =
      (between (behind ++ l.upTo l.content.scalar)
        ('\n' :: textOf (below :: ls))).seek key.toList 0 := by
  induction y generalizing x skip with
  | nil =>
    obtain rfl : skip = 0 := by simpa [isQuiet] using hquiet
    rw [hscalar, List.append_nil]
    rfl
  | cons c y ih =>
    have hupTo : behind ++ l.upTo x ++ [c] = behind ++ l.upTo (x ++ [c]) := by simp [upTo]
    have hnext : l.content.scalar = x ++ [c] ++ y := by simp [hscalar]
    have hreverse : (x ++ [c]).reverse = c :: x.reverse := by simp
    cases skip with
    | succ skip =>
      rw [isQuiet] at hquiet
      rw [List.cons_append, seek_succ, hupTo]
      exact ih hnext (hreverse ▸ hquiet)
    | zero =>
      obtain ⟨more, hlook, hmore⟩ := lookAt_scalar hl hbelow h hscalar ls hquiet
      rw [List.cons_append, seek_zero, hbehind.takeWhile_append (newline_not_mem hl hscalar), hlook]
      dsimp only
      rw [hupTo]
      rcases hmore with hrest | rfl
      · exact ih hnext (hreverse ▸ hrest)
      · rw [seek_skip]
        simp [upTo, hscalar]

/-- From behind the key of a line a search gets to the next line. -/
theorem seek_line (hkey : isName key = true) (hl : l.content.isWellFormed = true)
    (hbelow : below.content.isWellFormed = true) (h : l.Precedes below) (hbehind : EndsLine behind)
    (hquiet : isQuiet key.toList ('\n' :: textOf (below :: ls)) 0 [] l.content.scalar = true) :
    (between (behind ++ (marginText l.margin ++ l.content.name))
        (l.content.colon ++ (l.content.scalar ++ '\n' :: textOf (below :: ls)))).seek key.toList 0 =
      (between (behind ++ l.text) (textOf (below :: ls))).seek key.toList 0 := by
  have hcolon : ∀ c ∈ l.content.colon, isFrame c = true := by
    cases l.content <;> simp [Content.colon, isFrame]
  have hend : ∀ c ∈ ['\n'], isFrame c = true := by simp [isFrame]
  have hupTo : behind ++ (marginText l.margin ++ l.content.name) ++ l.content.colon =
      behind ++ l.upTo [] := by
    simp [upTo]
  rw [seek_frame hkey _ _ hcolon, hupTo, seek_scalar hl hbelow h hbehind rfl hquiet]
  have hpass := seek_frame hkey (behind ++ l.upTo l.content.scalar) (textOf (below :: ls)) hend
  simpa [text] using hpass

end Line

end StreamConfig.Yaml
