import StreamConfig.Proofs.Document.Places

/-! # What a search for a key passes over

A search for a plain key, one that holds no quote and ends inside a token, passes over everything
that is not a key:
* `seek_bare` — characters outside of quotes, as long as no colon can belong to a key among them
* `seek_quoted` — a quoted text that no colon follows on its line
* `seek_closing` — the quote that closes the key which was found last

and stops at the key itself, `seek_quoted_key`. Which colons can belong to an unquoted key is
`Keyless`; it says nothing about the key, so one invariant serves the search for any key.
-/

namespace StreamConfig

/-- A key that is written without quotes inside and whose last character no token can follow. -/
structure IsPlainKey (key : List Char) : Prop where
  noQuote : '"' ∉ key
  endsInside : isTokenStart key.reverse = false

/-! ## Starts of tokens -/

/-- A token may start behind this text. -/
def StartsToken (cs : List Char) : Prop :=
  isTokenStart (cs.reverse.takeWhile (· != '\n')) = true

theorem startsToken_nil : StartsToken [] := rfl

theorem startsToken_snoc (cs : List Char) {c : Char} (h : isTokenStart [c] = true) :
    StartsToken (cs ++ [c]) := by
  unfold StartsToken
  by_cases hc : c = '\n'
  · subst hc
    simp [isTokenStart]
  · have hbne : (c != '\n') = true := bne_iff_ne.2 hc
    rw [List.reverse_append, List.reverse_singleton, List.singleton_append,
      List.takeWhile_cons_of_pos (p := (· != '\n')) hbne]
    exact h

theorem StartsToken.append {cs : List Char} (h : StartsToken cs) {more : List Char}
    (hmore : ∀ c ∈ more, isTokenStart [c] = true) : StartsToken (cs ++ more) := by
  induction more generalizing cs with
  | nil => rwa [List.append_nil]
  | cons c more ih =>
    rw [List.append_cons]
    exact ih (startsToken_snoc cs (hmore c List.mem_cons_self))
      fun d hd => hmore d (List.mem_cons_of_mem _ hd)

/-- No token starts right behind a plain key. -/
theorem isTokenStart_behind_key (cs : List Char) {key : List Char}
    (h : isTokenStart key.reverse = false) :
    isTokenStart ((cs ++ key).reverse.takeWhile (· != '\n')) = false := by
  rw [List.reverse_append]
  cases hkey : key.reverse with
  | nil =>
    rw [hkey] at h
    cases h
  | cons c before =>
    rw [hkey] at h
    have hc : (c != '\n') = true := by
      rw [bne_iff_ne]
      rintro rfl
      cases h
    rw [List.cons_append, List.takeWhile_cons_of_pos (p := (· != '\n')) hc]
    exact h

/-! ## Colons -/

/-- No colon stands before the next double quote. -/
def isColonFree : List Char → Bool
  | [] => true
  | c :: rest => c == '"' || (c != ':' && isColonFree rest)

/-- Every colon before the next double quote has nothing but blanks in front of it. -/
def Keyless (cs : List Char) : Prop :=
  ∀ x y, cs = x ++ ':' :: y → '"' ∉ x → ∀ c ∈ x, Text.isAsciiBlank c = true

theorem isColonFree_append {xs rest : List Char} (hxs : ∀ c ∈ xs, c ≠ ':')
    (h : isColonFree rest = true) : isColonFree (xs ++ rest) = true := by
  induction xs with
  | nil => exact h
  | cons c xs ih =>
    have hc := hxs c List.mem_cons_self
    have hrest := ih fun d hd => hxs d (List.mem_cons_of_mem _ hd)
    simp [isColonFree, hc, hrest]

theorem not_isColonFree {x y : List Char} (hx : '"' ∉ x) : isColonFree (x ++ ':' :: y) = false := by
  induction x with
  | nil => rfl
  | cons c x ih =>
    obtain ⟨hc, hx⟩ := List.ne_and_not_mem_of_not_mem_cons hx
    simp [isColonFree, Ne.symm hc, ih hx]

theorem keyless_of_isColonFree {cs : List Char} (h : isColonFree cs = true) : Keyless cs := by
  rintro x y rfl hx
  rw [not_isColonFree hx] at h
  cases h

/-- The colon behind a key has nothing but blanks in front of it once the key is passed. -/
theorem keyless_of_blanks {gap cs : List Char} (hgap : ∀ c ∈ gap, Text.isAsciiBlank c = true)
    (h : isColonFree cs = true) : Keyless (gap ++ ':' :: cs) := by
  intro x y heq hx
  induction gap generalizing x with
  | nil =>
    cases x with
    | nil => exact fun _ hc => absurd hc List.not_mem_nil
    | cons c x =>
      obtain ⟨-, hcs⟩ := List.cons.inj heq
      rw [hcs, List.append_eq, not_isColonFree (List.ne_and_not_mem_of_not_mem_cons hx).2] at h
      cases h
  | cons d gap ih =>
    cases x with
    | nil => exact fun _ hc => absurd hc List.not_mem_nil
    | cons c x =>
      obtain ⟨rfl, hrest⟩ := List.cons.inj heq
      have hblanks := ih (fun e he => hgap e (List.mem_cons_of_mem _ he)) x hrest
        (List.ne_and_not_mem_of_not_mem_cons hx).2
      exact List.forall_mem_cons.2 ⟨hgap d List.mem_cons_self, hblanks⟩

theorem Keyless.tail {c : Char} {cs : List Char} (h : Keyless (c :: cs)) (hc : c ≠ '"') :
    Keyless cs := by
  rintro x y rfl hx
  have hcons : '"' ∉ c :: x := List.not_mem_cons_of_ne_of_not_mem (Ne.symm hc) hx
  exact fun d hd => h (c :: x) y rfl hcons d (List.mem_cons_of_mem _ hd)

theorem isBeforeColon_iff {cs : List Char} :
    isBeforeColon cs = true ↔
      ∃ gap rest, (∀ c ∈ gap, Text.isInlineBlank c = true) ∧ cs = gap ++ ':' :: rest := by
  constructor
  · intro h
    unfold isBeforeColon at h
    split at h
    next rest heq =>
      refine ⟨cs.takeWhile Text.isInlineBlank, rest, fun c hc => ?_, ?_⟩
      · exact List.all_eq_true.1 List.all_takeWhile c hc
      · rw [← heq, List.takeWhile_append_dropWhile]
    next => cases h
  · rintro ⟨gap, rest, hgap, rfl⟩
    unfold isBeforeColon
    rw [List.dropWhile_append_of_pos hgap]
    rfl

theorem isBeforeColon_eq_false {cs : List Char} (h : isColonFree cs = true) :
    isBeforeColon cs = false := by
  cases hcolon : isBeforeColon cs with
  | false => rfl
  | true =>
    obtain ⟨gap, rest, hgap, rfl⟩ := isBeforeColon_iff.1 hcolon
    -- a quote is no blank, so the colon found would stand before the next quote
    have hquote : '"' ∉ gap := fun hmem => absurd (hgap _ hmem) (by decide)
    rw [not_isColonFree hquote] at h
    cases h

/-- A colon is next on the line only if all blanks before it are on the line. -/
theorem isBeforeColon_blanks_colon {gap : List Char} (hgap : ∀ c ∈ gap, c ≠ ':')
    (rest : List Char) : isBeforeColon (gap ++ ':' :: rest) = gap.all Text.isInlineBlank := by
  induction gap with
  | nil => rfl
  | cons c gap ih =>
    have hrest := ih fun d hd => hgap d (List.mem_cons_of_mem _ hd)
    rw [List.all_cons, ← hrest, List.cons_append]
    unfold isBeforeColon
    by_cases hc : Text.isInlineBlank c = true
    · rw [List.dropWhile_cons_of_pos hc, hc, Bool.true_and]
    · rw [List.dropWhile_cons_of_neg hc, Bool.eq_false_iff.2 hc, Bool.false_and]
      split
      next heq => exact absurd (List.cons.inj heq).1 (hgap c List.mem_cons_self)
      next => rfl

/-- Where no colon can belong to a key, no plain key stands. -/
theorem not_key_of_keyless {key cs : List Char} (hkey : IsPlainKey key) (h : Keyless cs) :
    (key.isPrefixOf cs && isBeforeColon (cs.drop key.length)) = false := by
  rw [Bool.and_eq_false_iff, Classical.or_iff_not_imp_left, Bool.not_eq_false, Bool.eq_false_iff]
  rintro hprefix hcolon
  obtain ⟨rest, rfl⟩ := List.isPrefixOf_iff_prefix.1 hprefix
  rw [List.drop_left] at hcolon
  obtain ⟨gap, rest, hgap, rfl⟩ := isBeforeColon_iff.1 hcolon
  have hquote : '"' ∉ key ++ gap := by
    rw [List.mem_append, not_or]
    exact ⟨hkey.noQuote, fun hmem => absurd (hgap _ hmem) (by decide)⟩
  have hblank := h (key ++ gap) rest (List.append_assoc ..).symm hquote
  -- the key's last character would be a blank, behind which a token starts
  have hends := hkey.endsInside
  cases hrev : key.reverse with
  | nil =>
    rw [hrev] at hends
    cases hends
  | cons c before =>
    have hc : c ∈ key := by
      rw [← List.mem_reverse, hrev]
      exact List.mem_cons_self
    rw [hrev, isTokenStart, hblank c (List.mem_append_left _ hc)] at hends
    cases hends

/-! ## Quoted texts -/

/-- The text stands between double quotes as one piece: every backslash takes the next character
with it, and no other character is a double quote. -/
def isQuotedBody : List Char → Bool
  | [] => true
  | ['\\'] => false
  | '\\' :: _ :: rest => isQuotedBody rest
  | c :: rest => c != '"' && isQuotedBody rest

theorem quotedLength?_cons {c : Char} (hquote : c ≠ '"') (hslash : c ≠ '\\') (rest : List Char) :
    quotedLength? '"' (c :: rest) = (quotedLength? '"' rest).map (· + 1) :=
  quotedLength?_pass (beq_eq_false_iff_ne.2 hquote) (beq_eq_false_iff_ne.2 hslash) rest

theorem quotedLength?_of_isQuotedBody {body : List Char} (h : isQuotedBody body = true)
    (rest : List Char) : quotedLength? '"' (body ++ '"' :: rest) = some body.length := by
  induction body using isQuotedBody.induct with
  | case1 =>
    cases rest with
    | nil => rfl
    | cons d rest => rfl
  | case2 => cases h
  | case3 c body ih =>
    rw [isQuotedBody] at h
    rw [List.cons_append, List.cons_append, quotedLength?]
    simp [ih h]
  | case4 c body hlast hslash ih =>
    rw [isQuotedBody] at h
    · obtain ⟨hquote, hbody⟩ := Bool.and_eq_true_iff.1 h
      have hslash : c ≠ '\\' := by
        rintro rfl
        cases body with
        | nil => exact hlast rfl rfl
        | cons d body => exact hslash d body rfl rfl
      rw [List.cons_append, quotedLength?_cons (bne_iff_ne.1 hquote) hslash, ih hbody]
      rfl
    · exact hlast
    · exact hslash

theorem not_mem_of_isQuotedBody {body : List Char} (h : isQuotedBody body = true)
    (hslash : '\\' ∉ body) : '"' ∉ body := by
  induction body using isQuotedBody.induct with
  | case1 => exact List.not_mem_nil
  | case2 => cases h
  | case3 c body ih => exact absurd List.mem_cons_self hslash
  | case4 c body hlast hslash' ih =>
    rw [isQuotedBody] at h
    · obtain ⟨hquote, hbody⟩ := Bool.and_eq_true_iff.1 h
      exact List.not_mem_cons_of_ne_of_not_mem (Ne.symm (bne_iff_ne.1 hquote))
        (ih hbody (List.ne_and_not_mem_of_not_mem_cons hslash).2)
    · exact hlast
    · exact hslash'

/-! ## Searching -/

/-- A character that opens nothing: no quote, no comment and no block scalar. -/
def isBare (c : Char) : Bool := c != '"' && c != '\'' && c != '#' && c != '|' && c != '>'

/-- A bare character is looked at as the start of an unquoted key at most. -/
theorem lookAt_bare {c : Char} (hc : isBare c = true) (key before rest : List Char) :
    lookAt key before c rest =
      if isTokenStart before && key.isPrefixOf (c :: rest) &&
        isBeforeColon ((c :: rest).drop key.length) then .key 0 else .pass 0 := by
  simp only [isBare, Bool.and_eq_true, bne_iff_ne] at hc
  obtain ⟨⟨⟨⟨hdouble, hsingle⟩, hcomment⟩, hliteral⟩, hfolded⟩ := hc
  simp [lookAt, hdouble, hsingle, hcomment, hliteral, hfolded]

theorem lookAt_quote (key rest : List Char) {before body : List Char}
    (hbefore : isTokenStart before = true) (hbody : isQuotedBody body = true) :
    lookAt key before '"' (body ++ '"' :: rest) =
      if body == key && isBeforeColon rest then .key 1 else .pass (body.length + 1) := by
  have hlength := quotedLength?_of_isQuotedBody hbody rest
  have hdrop : (body ++ '"' :: rest).drop (body.length + 1) = rest := by
    rw [← List.drop_drop, List.drop_left]
    rfl
  simp only [lookAt, hbefore, hlength, hdrop, List.take_left]
  rfl

/-- A quote behind a plain key opens nothing. -/
theorem lookAt_closing {before : List Char} (hbefore : isTokenStart before = false)
    (key rest : List Char) : lookAt key before '"' rest = .pass 0 := by
  simp [lookAt, hbefore]

namespace Cursor

variable {key cs : List Char}

theorem seek_bare (hkey : IsPlainKey key) {passed rest : List Char}
    (hpassed : ∀ c ∈ passed, isBare c = true) (h : Keyless (passed ++ rest)) :
    (between cs (passed ++ rest)).seek key 0 = (between (cs ++ passed) rest).seek key 0 := by
  induction passed generalizing cs with
  | nil => rw [List.append_nil, List.nil_append]
  | cons c passed ih =>
    have hc := hpassed c List.mem_cons_self
    have hlook : lookAt key (cs.reverse.takeWhile (· != '\n')) c (passed ++ rest) = .pass 0 := by
      rw [lookAt_bare hc, Bool.and_assoc, ← List.cons_append, not_key_of_keyless hkey h,
        Bool.and_false]
      rfl
    have hquote : c ≠ '"' := by
      rintro rfl
      cases hc
    have hrest : (between (cs ++ [c]) (passed ++ rest)).seek key 0 =
        (between (cs ++ [c] ++ passed) rest).seek key 0 :=
      ih (fun d hd => hpassed d (List.mem_cons_of_mem _ hd)) (Keyless.tail h hquote)
    rw [List.cons_append, seek_zero, hlook, List.append_cons cs c passed, ← hrest]

theorem seek_quoted (key rest : List Char) {body : List Char} (hstart : StartsToken cs)
    (hbody : isQuotedBody body = true) (h : (body == key && isBeforeColon rest) = false) :
    (between cs ('"' :: body ++ '"' :: rest)).seek key 0 =
      (between (cs ++ '"' :: body ++ ['"']) rest).seek key 0 := by
  have hlook := lookAt_quote key rest hstart hbody
  rw [h, if_neg Bool.false_ne_true] at hlook
  -- the look passes over the body and its closing quote
  have hpassed : body.length + 1 = (body ++ ['"']).length := by simp
  rw [List.cons_append, seek_zero, hlook]
  dsimp only
  rw [hpassed, List.append_cons body '"' rest, seek_skip]
  simp

theorem seek_quoted_key (hstart : StartsToken cs) {rest : List Char}
    (hbody : isQuotedBody key = true) (h : isBeforeColon rest = true) :
    (between cs ('"' :: key ++ '"' :: rest)).seek key 0 =
      some (between (cs ++ ['"']) (key ++ '"' :: rest)) := by
  have hlook := lookAt_quote key rest hstart hbody
  rw [h, beq_self_eq_true, Bool.and_true, if_pos rfl] at hlook
  rw [List.cons_append, seek_zero, hlook]
  exact congrArg some (advance_between ..)

theorem seek_closing {found : List Char} (hfound : isTokenStart found.reverse = false)
    (rest : List Char) :
    (between (cs ++ found) ('"' :: rest)).seek key 0 =
      (between (cs ++ found ++ ['"']) rest).seek key 0 := by
  rw [seek_zero, lookAt_closing (isTokenStart_behind_key cs hfound)]

end Cursor

end StreamConfig
