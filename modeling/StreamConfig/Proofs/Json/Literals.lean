import StreamConfig.Json.Writer
import StreamConfig.Proofs.Json.Words

/-! # Strings and integers read back

What is written character by character is read so:
* `stringRest_escaped` — a string, whatever its characters are
* `EndsWord` — where a number may end
* `integerDigits_digits`, `unsigned_toDigits` — digits, as long as the number fits
* `number_toString` — an integer of 64 bits
-/

namespace StreamConfig.Json

/-! ## Strings -/

theorem number?_padded {n : Nat} (h : n < 0x20) :
    Text.Hex.number? (Text.Hex.padded .lower 4 n) = some n := by
  revert n
  decide

/-- The escape of a control character that has no letter. -/
theorem stringRest_unicode {n : Nat} (h : n < 0x20) (done cs : List Char) :
    stringRest done ('\\' :: 'u' :: (Text.Hex.padded .lower 4 n ++ cs)) =
      stringRest (Char.ofNat n :: done) cs := by
  have hn := number?_padded h
  simp only [Text.Hex.padded, List.nil_append, List.cons_append] at hn ⊢
  have hhigh : isHighHalf n = false := by
    simp only [isHighHalf, Bool.and_eq_false_iff, decide_eq_false_iff_not]
    omega
  have hlow : isLowHalf n = false := by
    simp only [isLowHalf, Bool.and_eq_false_iff, decide_eq_false_iff_not]
    omega
  rw [stringRest, hn]
  simp only [hhigh, hlow, Bool.false_eq_true, if_false]

theorem stringRest_escaped_cons (done : List Char) (c : Char) (cs : List Char) :
    stringRest done (escaped c ++ cs) = stringRest (c :: done) cs := by
  unfold escaped
  split
  case h_8 hquote hslash _ _ _ _ _ =>
    split
    next hcontrol =>
      have hread := stringRest_unicode hcontrol done cs
      rwa [Char.ofNat_toNat] at hread
    next hplain =>
      have hgood : ¬ (decide (c.toNat < 0x20) || c == '\\') = true := by
        simpa [hplain] using hslash
      rw [List.singleton_append, stringRest, if_neg hgood]
      · exact hquote
      · exact fun _ _ _ _ _ heq _ => hslash heq
      · exact fun _ _ heq _ => hslash heq
  all_goals rfl

theorem stringRest_escaped (done cs rest : List Char) :
    stringRest done (cs.flatMap escaped ++ '"' :: rest) =
      some (String.ofList (done.reverse ++ cs), rest) := by
  induction cs generalizing done with
  | nil => rw [List.append_nil]; rfl
  | cons c cs ih =>
    rw [List.flatMap_cons, List.append_assoc, stringRest_escaped_cons, ih, List.reverse_cons,
      List.append_assoc]
    rfl

/-! ## Integers -/

/-- No number or word goes on here. -/
def EndsWord (rest : List Char) : Prop := ∀ c ∈ rest.head?, isWordChar c = false

theorem endsWord_cons {c : Char} (hc : isWordChar c = false) (rest : List Char) :
    EndsWord (c :: rest) := by
  rintro _ ⟨⟩
  exact hc

theorem isWordChar_eq_false_of_isSpace {c : Char} (h : isSpace c = true) :
    isWordChar c = false := by
  simp only [isSpace, Bool.or_eq_true, beq_iff_eq] at h
  obtain ((rfl | rfl) | rfl) | rfl := h <;> decide

theorem endsWord_spaces {gap : List Char} {c : Char} (hgap : gap.all isSpace = true)
    (hc : isWordChar c = false) (rest : List Char) : EndsWord (gap ++ c :: rest) := by
  cases gap with
  | nil => exact endsWord_cons hc rest
  | cons d gap =>
    have hd : isSpace d = true := List.all_eq_true.1 hgap d List.mem_cons_self
    exact endsWord_cons (isWordChar_eq_false_of_isSpace hd) _

theorem isDigit_eq_false_of_endsWord {c : Char} {rest : List Char} (h : EndsWord (c :: rest)) :
    c.isDigit = false := by
  refine Bool.eq_false_iff.2 fun hc => ?_
  have hword := h c rfl
  rw [isWordChar_of_isDigit hc] at hword
  cases hword

theorem numberRest_of_endsWord {rest : List Char} (h : EndsWord rest) (n : Numeral)
    (whole : Numeral → Option Number) : numberRest n whole rest = (whole n).map (·, rest) := by
  unfold numberRest
  split
  next => exact absurd (h '.' rfl) (by decide)
  next =>
    unfold numberEnd
    split
    next => exact absurd (h 'e' rfl) (by decide)
    next => exact absurd (h 'E' rfl) (by decide)
    next => rfl

theorem le_ofDigitChars (ds : List Char) (n : Nat) : n ≤ Nat.ofDigitChars 10 ds n := by
  induction ds generalizing n with
  | nil => exact Nat.le_of_eq Nat.ofDigitChars_nil.symm
  | cons c ds ih =>
    rw [Nat.ofDigitChars_cons]
    have := ih (10 * n + (c.toNat - '0'.toNat))
    omega

/-- Digits whose number fits are taken one by one. -/
theorem integerDigits_digits {ds rest : List Char} (hds : ∀ c ∈ ds, c.isDigit = true)
    (hrest : EndsWord rest) {isNegative : Bool} {n : Nat}
    (hfits : Nat.ofDigitChars 10 ds n ≤ maxSignificand) :
    integerDigits ⟨isNegative, n, 0⟩ (ds ++ rest) =
      (Numeral.toInteger ⟨isNegative, Nat.ofDigitChars 10 ds n, 0⟩).map (·, rest) := by
  induction ds generalizing n with
  | nil =>
    rw [Nat.ofDigitChars_nil, List.nil_append]
    cases rest with
    | nil => rfl
    | cons c rest =>
      rw [integerDigits, isDigit_eq_false_of_endsWord hrest]
      exact numberRest_of_endsWord hrest _ _
  | cons c ds ih =>
    obtain ⟨hc, hds⟩ := List.forall_mem_cons.1 hds
    rw [Nat.ofDigitChars_cons] at hfits ⊢
    have hnext : n * 10 + digitValue c = 10 * n + (c.toNat - '0'.toNat) := by
      rw [Nat.mul_comm]
      rfl
    have hroom : n * 10 + digitValue c ≤ maxSignificand := by
      rw [hnext]
      exact Nat.le_trans (le_ofDigitChars ds _) hfits
    have hpush : Numeral.push? ⟨isNegative, n, 0⟩ c = some (n * 10 + digitValue c) := by
      unfold Numeral.push?
      exact if_pos hroom
    rw [List.cons_append, integerDigits, if_pos hc, hpush, hnext]
    exact ih hds hfits

/-- A number starts with a digit, which is not zero if the number is not. -/
theorem exists_toDigits (m : Nat) :
    ∃ c ds, Nat.toDigits 10 m = c :: ds ∧ (∀ d ∈ c :: ds, d.isDigit = true) ∧
      (0 < m → c ≠ '0') := by
  have hdigits : ∀ d ∈ Nat.toDigits 10 m, d.isDigit = true := fun d hd =>
    Nat.isDigit_of_mem_toDigits (b := 10) (n := m) (by decide) (by decide) hd
  suffices hfirst : ∃ c ds, Nat.toDigits 10 m = c :: ds ∧ (0 < m → c ≠ '0') by
    obtain ⟨c, ds, heq, hc⟩ := hfirst
    exact ⟨c, ds, heq, heq ▸ hdigits, hc⟩
  clear hdigits
  induction m using Nat.strongRecOn with
  | ind m ih =>
    by_cases hsmall : m < 10
    · refine ⟨m.digitChar, [], Nat.toDigits_of_lt_base hsmall, fun hm => ?_⟩
      rw [ne_eq, Nat.digitChar_eq_zero]
      omega
    · obtain ⟨c, ds, heq, hc⟩ := ih (m / 10) (by omega)
      refine ⟨c, ds ++ [(m % 10).digitChar], ?_, fun _ => hc (by omega)⟩
      rw [Nat.toDigits_of_base_le (by decide) (by omega), heq]
      rfl

theorem unsigned_toDigits {m : Nat} (h : m ≤ maxSignificand) {rest : List Char}
    (hrest : EndsWord rest) (isNegative : Bool) :
    unsigned isNegative (Nat.toDigits 10 m ++ rest) =
      (Numeral.toInteger ⟨isNegative, m, 0⟩).map (·, rest) := by
  obtain rfl | hm := Nat.eq_zero_or_pos m
  · rw [Nat.toDigits_zero]
    cases rest with
    | nil => rfl
    | cons c rest =>
      rw [List.singleton_append, unsigned, isDigit_eq_false_of_endsWord hrest]
      exact numberRest_of_endsWord hrest _ _
  · obtain ⟨c, ds, hdigits, hall, hc⟩ := exists_toDigits m
    obtain ⟨hfirst, hds⟩ := List.forall_mem_cons.1 hall
    have hvalue : Nat.ofDigitChars 10 ds (digitValue c) = m := by
      have hwhole := @Nat.ofDigitChars_ten_toDigits m
      rw [hdigits, Nat.ofDigitChars_cons, Nat.mul_zero, Nat.zero_add] at hwhole
      exact hwhole
    rw [hdigits, List.cons_append, unsigned, if_pos hfirst]
    · rw [integerDigits_digits hds hrest (hvalue.symm ▸ h), hvalue]
    · exact fun _ _ heq _ => hc hm heq
    · exact fun heq _ => hc hm heq

/-- An integer starts with a minus or a digit. -/
theorem exists_toString (n : Int) :
    ∃ c cs, (toString n).toList = c :: cs ∧ (c = '-' ∨ c.isDigit = true) := by
  rw [Int.toString_eq_repr, Int.repr_eq_if]
  split
  · obtain ⟨c, ds, hdigits, hall, -⟩ := exists_toDigits n.toNat
    exact ⟨c, ds, Nat.toList_repr.trans hdigits, .inr (hall c List.mem_cons_self)⟩
  · exact ⟨'-', (-n).toNat.repr.toList, String.toList_append, .inl rfl⟩

theorem number_toString {n : Int} (hmin : Number.minSigned ≤ n) (hmax : n ≤ Number.maxUnsigned)
    {rest : List Char} (hrest : EndsWord rest) :
    number ((toString n).toList ++ rest) = some (.int n, rest) := by
  unfold Number.minSigned at hmin
  unfold Number.maxUnsigned at hmax
  rw [Int.toString_eq_repr, Int.repr_eq_if]
  split
  next hsign =>
    have hfits : n.toNat ≤ maxSignificand := by
      unfold maxSignificand
      omega
    have hread := unsigned_toDigits hfits hrest false
    obtain ⟨c, ds, hdigits, hall, -⟩ := exists_toDigits n.toNat
    rw [Nat.toList_repr, hdigits, List.cons_append, number]
    · rw [← List.cons_append, ← hdigits, hread]
      show some (Number.int n.toNat, rest) = _
      rw [Int.toNat_of_nonneg hsign]
    · rintro _ ⟨⟩
      exact absurd (hall '-' List.mem_cons_self) (by decide)
  next hsign =>
    have hfits : (-n).toNat ≤ maxSignificand := by
      unfold maxSignificand
      omega
    have hread := unsigned_toDigits hfits hrest true
    have hsmall :
        (decide (0 < (-n).toNat) && decide ((-n).toNat ≤ 9223372036854775808)) = true := by
      simp only [Bool.and_eq_true, decide_eq_true_eq]
      omega
    rw [String.toList_append, Nat.toList_repr]
    refine hread.trans ?_
    rw [Numeral.toInteger, if_pos rfl, if_pos hsmall]
    show some (Number.int (-((-n).toNat : Int)), rest) = _
    rw [Int.toNat_of_nonneg (by omega), Int.neg_neg]

end StreamConfig.Json
