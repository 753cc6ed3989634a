import StreamConfig.Proofs.Text.ByteOrder
import StreamConfig.Text.Bytes

/-! # Slices by bytes

Places in a text can be counted in the bytes of UTF-8. A slice between two such places exists only
if both lie at characters; single bytes can be looked at anywhere.
* `slice?` — the characters between two places
* `slice?_eq_some_iff` — the places that have characters between them
* `byteChars` — the bytes of a text as characters: an ASCII character stands for itself, and the
  bytes of all others are no ASCII characters
* `isPrefix_byteChars_iff` — texts start with one another as their bytes do
-/

namespace StreamConfig.Text

/-! ## Slices -/

@[simp] theorem utf8Length_nil : utf8Length [] = 0 := rfl

@[simp] theorem utf8Length_cons (c : Char) (cs : List Char) :
    utf8Length (c :: cs) = c.utf8Size + utf8Length cs := rfl

attribute [simp] utf8Length_append

@[simp] theorem utf8Length_reverse (cs : List Char) : utf8Length cs.reverse = utf8Length cs := by
  induction cs with
  | nil => rfl
  | cons c cs ih => simp [ih, Nat.add_comm]

theorem utf8Length_eq_zero {cs : List Char} : utf8Length cs = 0 ↔ cs = [] := by
  cases cs with
  | nil => simp
  | cons c cs =>
    have hpos := c.utf8Size_pos
    simp only [utf8Length_cons, reduceCtorEq, iff_false]
    omega

theorem dropBytes?_eq_some_iff {n : Nat} {cs rest : List Char} :
    dropBytes? n cs = some rest ↔ ∃ before, cs = before ++ rest ∧ n = utf8Length before := by
  constructor
  · induction cs generalizing n with
    | nil =>
      intro h
      unfold dropBytes? at h
      split at h
      next hn =>
        cases h
        exact ⟨[], rfl, hn⟩
      next => cases h
    | cons c cs ih =>
      intro h
      unfold dropBytes? at h
      split at h
      next hn =>
        cases h
        exact ⟨[], rfl, hn⟩
      next =>
        split at h
        next hle =>
          obtain ⟨before, rfl, hn⟩ := ih h
          refine ⟨c :: before, rfl, ?_⟩
          rw [utf8Length_cons]
          omega
        next => cases h
  · rintro ⟨before, rfl, rfl⟩
    exact dropBytes?_utf8Length before rest

/-- The characters between two places. -/
def slice? (cs : List Char) (start stop : Nat) : Option (List Char) :=
  if start ≤ stop then do
    let behind ← dropBytes? start cs
    let rest ← dropBytes? (stop - start) behind
    return behind.take (behind.length - rest.length)
  else none

/-- Both places lie at characters, and the second is not before the first. -/
theorem slice?_eq_some_iff {cs part : List Char} {start stop : Nat} :
    slice? cs start stop = some part ↔
      ∃ before after, cs = before ++ (part ++ after) ∧ start = utf8Length before ∧
        stop = utf8Length (before ++ part) := by
  unfold slice?
  constructor
  · intro h
    split at h
    next hle =>
      simp only [Option.bind_eq_bind, Option.pure_def, Option.bind_eq_some_iff,
        Option.some.injEq] at h
      obtain ⟨behind, hbehind, rest, hrest, hpart⟩ := h
      obtain ⟨before, rfl, rfl⟩ := dropBytes?_eq_some_iff.1 hbehind
      obtain ⟨inside, rfl, hstop⟩ := dropBytes?_eq_some_iff.1 hrest
      obtain rfl : inside = part := by simpa using hpart
      refine ⟨before, rest, rfl, rfl, ?_⟩
      rw [utf8Length_append]
      omega
    next => cases h
  · rintro ⟨before, after, rfl, rfl, rfl⟩
    rw [utf8Length_append, if_pos (Nat.le_add_right _ _), Nat.add_sub_cancel_left,
      dropBytes?_utf8Length]
    simp [dropBytes?_utf8Length]

example : slice? ['é', 'a'] 1 2 = none := by decide

theorem slice?_append {before part after : List Char} {start stop : Nat}
    (hstart : start = utf8Length before) (hstop : stop = start + utf8Length part) :
    slice? (before ++ (part ++ after)) start stop = some part :=
  slice?_eq_some_iff.2 ⟨before, after, rfl, hstart, by rw [hstop, hstart, utf8Length_append]⟩

/-! ## Bytes as characters -/

/-- The bytes of a character, each read as the character with its number. -/
def unitChars (c : Char) : List Char := (String.utf8EncodeChar c).map Char.ofUInt8

def byteChars (cs : List Char) : List Char := cs.flatMap unitChars

@[simp] theorem byteChars_nil : byteChars [] = [] := rfl

@[simp] theorem byteChars_cons (c : Char) (cs : List Char) :
    byteChars (c :: cs) = unitChars c ++ byteChars cs := rfl

@[simp] theorem byteChars_append (cs ds : List Char) :
    byteChars (cs ++ ds) = byteChars cs ++ byteChars ds := List.flatMap_append

@[simp] theorem length_unitChars (c : Char) : (unitChars c).length = c.utf8Size := by
  simp [unitChars, String.length_utf8EncodeChar]

@[simp] theorem length_byteChars (cs : List Char) : (byteChars cs).length = utf8Length cs := by
  induction cs with
  | nil => rfl
  | cons c cs ih => simp [ih]

theorem drop_byteChars (cs rest : List Char) (k : Nat) :
    (byteChars (cs ++ rest)).drop (utf8Length cs + k) = (byteChars rest).drop k := by
  rw [byteChars_append, ← length_byteChars, List.drop_length_add_append]

theorem drop_byteChars_left (cs rest : List Char) :
    (byteChars (cs ++ rest)).drop (utf8Length cs) = byteChars rest :=
  drop_byteChars cs rest 0

theorem take_byteChars (cs rest : List Char) (k : Nat) :
    (byteChars (cs ++ rest)).take (utf8Length cs + k) =
      byteChars cs ++ (byteChars rest).take k := by
  rw [byteChars_append, ← length_byteChars, List.take_length_add_append]

theorem take_byteChars_left (cs rest : List Char) :
    (byteChars (cs ++ rest)).take (utf8Length cs) = byteChars cs := by
  rw [← Nat.add_zero (utf8Length cs), take_byteChars, List.take_zero, List.append_nil]

/-- The characters that are their own bytes. -/
def isAscii (c : Char) : Bool := decide (c.toNat < 128)

theorem toNat_ofUInt8 (b : UInt8) : (Char.ofUInt8 b).toNat = b.toNat := rfl

theorem ofUInt8_injective : Function.Injective Char.ofUInt8 := fun _ _ h =>
  UInt8.toNat_inj.1 (congrArg Char.toNat h)

theorem toNat_ofNat {n : Nat} (h : n < 256) : (UInt8.ofNat n).toNat = n :=
  UInt8.toNat_ofNat_of_lt' h

theorem unitChars_of_isAscii {c : Char} (h : isAscii c = true) : unitChars c = [c] := by
  have hc : c.toNat < 128 := of_decide_eq_true h
  have hencode : String.utf8EncodeChar c = [UInt8.ofNat c.toNat] := by
    unfold String.utf8EncodeChar
    exact if_pos (Nat.le_of_lt_succ hc)
  have hsame : Char.ofUInt8 (UInt8.ofNat c.toNat) = c := by
    rw [← Char.toNat_inj, toNat_ofUInt8, toNat_ofNat (by omega)]
  rw [unitChars, hencode, List.map_singleton, hsame]

theorem utf8Size_of_isAscii {c : Char} (h : isAscii c = true) : c.utf8Size = 1 := by
  rw [← length_unitChars, unitChars_of_isAscii h]
  rfl

/-- Every byte of the other characters has the highest bit. -/
theorem le_of_mem_utf8EncodeChar {c : Char} (h : ¬ c.val.toNat ≤ 127) :
    ∀ b ∈ String.utf8EncodeChar c, 128 ≤ b.toNat := by
  unfold String.utf8EncodeChar
  generalize c.val.toNat = n at h ⊢
  simp only [if_neg h]
  split_ifs
  all_goals
    simp (disch := omega) only [List.forall_mem_cons, toNat_ofNat, List.not_mem_nil, false_implies,
      implies_true, and_true]
    omega

/-- No other character has a byte that could be taken for a character. -/
theorem isAscii_of_mem_unitChars {c u : Char} (h : isAscii c = false) (hu : u ∈ unitChars c) :
    isAscii u = false := by
  have hc : ¬ c.val.toNat ≤ 127 := fun hle => of_decide_eq_false h (Nat.lt_succ_of_le hle)
  obtain ⟨b, hb, rfl⟩ := List.mem_map.1 hu
  have hwide := le_of_mem_utf8EncodeChar hc b hb
  rw [isAscii, toNat_ofUInt8, decide_eq_false_iff_not]
  omega

/-- The bytes of a character: itself alone, or none that is a character. -/
theorem unitChars_cases (c : Char) :
    unitChars c = [c] ∨
      isAscii c = false ∧ ∃ u us, unitChars c = u :: us ∧ ∀ w ∈ u :: us, isAscii w = false := by
  cases hc : isAscii c with
  | true => exact .inl (unitChars_of_isAscii hc)
  | false =>
    refine .inr ⟨rfl, ?_⟩
    have hpos : 0 < (unitChars c).length := by simp [c.utf8Size_pos]
    obtain ⟨u, us, hunits⟩ := List.exists_cons_of_length_pos hpos
    exact ⟨u, us, hunits, fun w hw => isAscii_of_mem_unitChars hc (hunits ▸ hw)⟩

theorem byteChars_eq_map (cs : List Char) :
    byteChars cs = (cs.flatMap String.utf8EncodeChar).map Char.ofUInt8 :=
  List.map_flatMap.symm

/-- The bytes of two characters never start alike, whatever follows them. -/
theorem eq_of_utf8EncodeChar_append {c d : Char} {xs ys : List UInt8}
    (h : String.utf8EncodeChar c ++ xs = String.utf8EncodeChar d ++ ys) : c = d := by
  rcases lt_trichotomy c d with hlt | heq | hlt
  · exact absurd (utf8EncodeChar_append_lt hlt xs ys) (h ▸ List.lt_irrefl _)
  · exact heq
  · exact absurd (utf8EncodeChar_append_lt hlt ys xs) (h ▸ List.lt_irrefl _)

theorem isPrefix_byteChars_iff {ks cs : List Char} : byteChars ks <+: byteChars cs ↔ ks <+: cs := by
  rw [byteChars_eq_map, byteChars_eq_map, List.prefix_map_iff_of_injective ofUInt8_injective]
  induction ks generalizing cs with
  | nil => simp
  | cons k ks ih =>
    cases cs with
    | nil => simp
    | cons c cs =>
      rw [List.flatMap_cons, List.flatMap_cons, List.cons_prefix_cons]
      constructor
      · rintro ⟨more, hmore⟩
        rw [List.append_assoc] at hmore
        obtain rfl := eq_of_utf8EncodeChar_append hmore
        exact ⟨rfl, ih.1 ⟨more, List.append_cancel_left hmore⟩⟩
      · rintro ⟨rfl, h⟩
        exact (List.prefix_append_right_inj _).2 (ih.2 h)

theorem byteChars_inj {ks cs : List Char} : byteChars ks = byteChars cs ↔ ks = cs := by
  constructor
  · intro h
    have hprefix : byteChars ks <+: byteChars cs := h ▸ List.prefix_refl (byteChars ks)
    obtain ⟨more, rfl⟩ := isPrefix_byteChars_iff.1 hprefix
    have hmore : byteChars more = [] := by simpa using h
    have hlength : utf8Length more = 0 := by rw [← length_byteChars, hmore, List.length_nil]
    rw [utf8Length_eq_zero.1 hlength, List.append_nil]
  · rintro rfl
    rfl

end StreamConfig.Text
