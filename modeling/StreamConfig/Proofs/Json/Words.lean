import StreamConfig.Proofs.Json.Spelling

/-! # Numbers and words

A number takes the characters of numbers and words only, and at least one of them:
* `Takes` — a run of such characters, closed under reading on
* `takes_numberEnd`, `takes_numberRest`, … — one lemma for each part of a number
* `exists_word_of_number`, `exists_word_of_expect` — a whole number, a whole word
-/

namespace StreamConfig.Json

/-- Between `cs` and `rest` stand characters of numbers and words only. -/
def Takes (cs rest : List Char) : Prop :=
  ∃ taken, cs = taken ++ rest ∧ taken.all isWordChar = true

namespace Takes

theorem refl (cs : List Char) : Takes cs cs := ⟨[], rfl, rfl⟩

theorem cons {c : Char} {cs rest : List Char} (hc : isWordChar c = true) (h : Takes cs rest) :
    Takes (c :: cs) rest := by
  obtain ⟨taken, rfl, htaken⟩ := h
  exact ⟨c :: taken, rfl, by rw [List.all_cons, hc, htaken]; rfl⟩

theorem trans {cs ds rest : List Char} (h : Takes cs ds) (h' : Takes ds rest) :
    Takes cs rest := by
  obtain ⟨taken, rfl, htaken⟩ := h
  obtain ⟨taken', rfl, htaken'⟩ := h'
  refine ⟨taken ++ taken', (List.append_assoc ..).symm, ?_⟩
  simp [htaken, htaken']

end Takes

theorem isWordChar_of_isDigit {c : Char} (h : c.isDigit = true) : isWordChar c = true := by
  simp [isWordChar, Char.isAlphanum, h]

theorem takes_dropWhile_isDigit (cs : List Char) : Takes cs (cs.dropWhile Char.isDigit) := by
  refine ⟨cs.takeWhile Char.isDigit, List.takeWhile_append_dropWhile.symm, ?_⟩
  rw [List.all_eq_true]
  exact fun c hc => isWordChar_of_isDigit (List.all_eq_true.1 List.all_takeWhile c hc)

theorem takes_exponentDigits (value : Option Nat) (cs : List Char) :
    Takes cs (exponentDigits value cs).2 := by
  induction cs generalizing value with
  | nil => exact .refl _
  | cons c rest ih =>
    rw [exponentDigits]
    split
    next hc => exact .cons (isWordChar_of_isDigit hc) (ih _)
    next => exact .refl _

theorem takes_exponentPart {n : Numeral} {cs rest : List Char} {x : Number}
    (h : exponentPart n cs = some (x, rest)) : Takes cs rest := by
  unfold exponentPart at h
  split at h
  next isDown digits hsign =>
    have hcs : Takes cs digits := by
      split at hsign <;> cases hsign
      · exact .cons (by decide) (.refl _)
      · exact .cons (by decide) (.refl _)
      · exact .refl _
    refine hcs.trans ?_
    split at h
    next => cases h
    next c ds =>
      split at h
      next hc =>
        refine .cons (isWordChar_of_isDigit hc) ?_
        have htakes := takes_exponentDigits (some (digitValue c)) ds
        split at h
        next e left hdigits =>
          obtain ⟨y, -, hy⟩ := Option.map_eq_some_iff.1 h
          cases hy
          rwa [hdigits] at htakes
        next left hdigits =>
          split at h
          · cases h
            rwa [hdigits] at htakes
          · cases h
      next => cases h

theorem takes_numberEnd {n : Numeral} {whole : Numeral → Option Number} {cs rest : List Char}
    {x : Number} (h : numberEnd n whole cs = some (x, rest)) : Takes cs rest := by
  unfold numberEnd at h
  split at h
  · exact .cons (by decide) (takes_exponentPart h)
  · exact .cons (by decide) (takes_exponentPart h)
  · obtain ⟨y, -, hy⟩ := Option.map_eq_some_iff.1 h
    cases hy
    exact .refl _

theorem takes_fractionDigits (n : Numeral) (cs : List Char) :
    Takes cs (fractionDigits n cs).2 := by
  induction cs generalizing n with
  | nil => exact .refl _
  | cons c rest ih =>
    rw [fractionDigits]
    split
    next hc =>
      refine .cons (isWordChar_of_isDigit hc) ?_
      split
      · exact ih _
      · exact takes_dropWhile_isDigit rest
    next => exact .refl _

theorem takes_numberRest {n : Numeral} {whole : Numeral → Option Number} {cs rest : List Char}
    {x : Number} (h : numberRest n whole cs = some (x, rest)) : Takes cs rest := by
  unfold numberRest at h
  split at h
  · refine .cons (by decide) ?_
    split at h
    next c ds =>
      split at h
      · exact (takes_fractionDigits n (c :: ds)).trans (takes_numberEnd h)
      · cases h
    next => cases h
  · exact takes_numberEnd h

theorem takes_integerDigits {n : Numeral} {cs rest : List Char} {x : Number}
    (h : integerDigits n cs = some (x, rest)) : Takes cs rest := by
  induction cs generalizing n with
  | nil =>
    obtain ⟨y, -, hy⟩ := Option.map_eq_some_iff.1 h
    cases hy
    exact .refl _
  | cons c ds ih =>
    unfold integerDigits at h
    split at h
    next hc =>
      refine .cons (isWordChar_of_isDigit hc) ?_
      split at h
      · exact ih h
      · exact (takes_dropWhile_isDigit ds).trans (takes_numberRest h)
    next => exact takes_numberRest h

/-- A number has at least one character. -/
theorem takes_unsigned {isNegative : Bool} {cs rest : List Char} {x : Number}
    (h : unsigned isNegative cs = some (x, rest)) :
    ∃ c ds, cs = c :: ds ∧ isWordChar c = true ∧ Takes ds rest := by
  unfold unsigned at h
  split at h
  next c ds =>
    split at h
    · cases h
    · exact ⟨'0', c :: ds, rfl, by decide, takes_numberRest h⟩
  next =>
    obtain ⟨y, -, hy⟩ := Option.map_eq_some_iff.1 h
    cases hy
    exact ⟨'0', [], rfl, by decide, .refl _⟩
  next c ds _ _ =>
    split at h
    next hc => exact ⟨c, ds, rfl, isWordChar_of_isDigit hc, takes_integerDigits h⟩
    next => cases h
  next => cases h

theorem exists_word_of_number {cs rest : List Char} {x : Number}
    (h : number cs = some (x, rest)) :
    ∃ chars, cs = chars ++ rest ∧ chars ≠ [] ∧ chars.all isWordChar = true := by
  have hword : ∀ {c : Char} {ds : List Char}, isWordChar c = true → Takes ds rest →
      ∃ chars, c :: ds = chars ++ rest ∧ chars ≠ [] ∧ chars.all isWordChar = true := by
    rintro c _ hc ⟨taken, rfl, htaken⟩
    exact ⟨c :: taken, rfl, List.cons_ne_nil _ _, by rw [List.all_cons, hc, htaken]; rfl⟩
  unfold number at h
  split at h
  · obtain ⟨c, ds, rfl, hc, htakes⟩ := takes_unsigned h
    exact hword (by decide) (.cons hc htakes)
  · obtain ⟨c, ds, rfl, hc, htakes⟩ := takes_unsigned h
    exact hword hc htakes

theorem exists_word_of_expect {word cs rest : List Char} (h : expect word cs = some rest) :
    cs = word ++ rest := by
  unfold expect at h
  split at h
  next hprefix =>
    obtain ⟨left, rfl⟩ := List.isPrefixOf_iff_prefix.1 hprefix
    rw [List.drop_left] at h
    rw [Option.some.inj h]
  next => cases h

end StreamConfig.Json
