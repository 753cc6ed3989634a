import Mathlib.Data.String.Basic
import StreamConfig.Text.Sorted

/-! # The order of bytes

Texts are compared by the code points of their characters. Comparing the bytes of their UTF-8 comes
to the same, because a later character never starts with an earlier byte:
* `bytes` — the bytes of a text
* `bytes_lt` — texts in order have bytes in order
* `pairwise_sortBy_text` — sorting by texts that all differ puts their bytes in strict order
-/

namespace StreamConfig.Text

/-- The bytes of a text in UTF-8. -/
def bytes (s : String) : List UInt8 := s.toList.flatMap String.utf8EncodeChar

theorem toByteArray_bytes (s : String) : (bytes s).toByteArray = s.toUTF8 := by
  calc (bytes s).toByteArray = (String.ofList s.toList).toByteArray := rfl
    _ = s.toUTF8 := by rw [String.ofList_toList, String.toUTF8_eq_toByteArray]

theorem ofNat_cons_lt_iff {a b : Nat} (ha : a < 256) (hb : b < 256) {xs ys : List UInt8} :
    UInt8.ofNat a :: xs < UInt8.ofNat b :: ys ↔ a < b ∨ a = b ∧ xs < ys := by
  rw [List.cons_lt_cons_iff, UInt8.lt_iff_toNat_lt, ← UInt8.toNat_inj, UInt8.toNat_ofNat_of_lt' ha,
    UInt8.toNat_ofNat_of_lt' hb]

/-- The first byte tells how many there are, and more bytes stand for later characters; of as many
bytes, each is a digit to the base 64. -/
theorem utf8EncodeChar_append_lt {c d : Char} (h : c < d) (xs ys : List UInt8) :
    String.utf8EncodeChar c ++ xs < String.utf8EncodeChar d ++ ys := by
  have hlt : c.val.toNat < d.val.toNat := h
  have hmax : d.val.toNat < 1114112 := by
    have hvalid := d.valid
    simp only [UInt32.isValidChar, Nat.isValidChar] at hvalid
    omega
  unfold String.utf8EncodeChar
  generalize c.val.toNat = m at hlt ⊢
  generalize d.val.toNat = n at hlt hmax ⊢
  have hdigits : ∀ k : Nat, k / 4096 = k / 64 / 64 ∧ k / 262144 = k / 64 / 64 / 64 := by omega
  simp only [(hdigits m).1, (hdigits n).1, (hdigits m).2, (hdigits n).2]
  -- one case for each pair of lengths
  split_ifs
  all_goals
    simp (disch := omega) only [List.cons_append, List.nil_append, ofNat_cons_lt_iff]
    omega

theorem nil_lt_utf8EncodeChar_append (d : Char) (ys : List UInt8) :
    [] < String.utf8EncodeChar d ++ ys := by
  have hlength := String.length_utf8EncodeChar d
  have hpos := d.utf8Size_pos
  cases hd : String.utf8EncodeChar d with
  | nil =>
    rw [hd, List.length_nil] at hlength
    omega
  | cons b bs => exact List.nil_lt_cons b _

/-- Texts in order have bytes in order. -/
theorem bytes_lt {s t : String} (h : s < t) : bytes s < bytes t := by
  rw [String.lt_iff_toList_lt] at h
  unfold bytes
  generalize s.toList = cs at h ⊢
  generalize t.toList = ds at h ⊢
  induction cs generalizing ds with
  | nil =>
    cases ds with
    | nil => cases h
    | cons d ds => exact nil_lt_utf8EncodeChar_append d _
  | cons c cs ih =>
    cases ds with
    | nil => cases h
    | cons d ds =>
      -- the first characters that differ decide the order, and so do their bytes
      rcases List.cons_lt_cons_iff.1 h with hchar | ⟨rfl, hrest⟩
      · exact utf8EncodeChar_append_lt hchar _ _
      · exact List.append_left_lt (ih ds hrest)

/-- Sorted by texts that all differ, things have texts whose bytes are in strict order. -/
theorem pairwise_sortBy_text {α : Type} (text : α → String) {xs : List α}
    (h : (xs.map text).Nodup) :
    ((sortBy (fun a b => decide (text a < text b)) xs).map fun a => bytes (text a)).Pairwise
      (· < ·) := by
  have hdistinct : (sortBy (fun a b => decide (text a < text b)) xs).Pairwise
      fun a b => text a ≠ text b := by
    rw [← List.pairwise_map]
    exact ((perm_sortBy _ xs).map text).nodup_iff.2 h
  rw [List.pairwise_map]
  refine ((pairwise_sortBy_le text xs).and hdistinct).imp ?_
  rintro a b ⟨hle, hne⟩
  exact bytes_lt (lt_of_le_of_ne hle hne)

end StreamConfig.Text
