/-! # A stable sort

`sortBy before` puts a list in order by inserting its elements from the last to the first, each in
front of the first element that does not have to stand before it. Elements that may stand in either
order keep the order they came in.

* `mem_sortBy` — sorting neither adds nor loses elements;
* `length_sortBy` — nor does it change their number;
* `perm_sortBy` — it only moves them;
* `filter_sortBy` — it moves none past another that may stand on either side of it;
* `pairwise_sortBy` — afterwards no element has to stand before an earlier one;
* `pairwise_sortBy_le` — in particular, things sorted by a text have their texts in order;
* `sortTexts_eq_of_perm` — sorted texts do not show the order they came in.
-/

namespace StreamConfig.Text

variable {α : Type}

/-- Puts `x` in front of the first element that need not stand before it; `before a b` says that
`a` must stand before `b`. -/
def insertBy (before : α → α → Bool) (x : α) : List α → List α
  | [] => [x]
  | y :: rest => if before y x then y :: insertBy before x rest else x :: y :: rest

/-- The list in order, ties as they came. -/
def sortBy (before : α → α → Bool) (xs : List α) : List α := xs.foldr (insertBy before) []

/-- Texts in the order of their code points, which is also the order of their UTF-8 bytes. -/
def sortTexts (xs : List String) : List String := sortBy (fun a b => decide (a < b)) xs

@[simp] theorem mem_insertBy {before : α → α → Bool} {x a : α} {xs : List α} :
    a ∈ insertBy before x xs ↔ a = x ∨ a ∈ xs := by
  induction xs with
  | nil => simp [insertBy]
  | cons y rest ih =>
    unfold insertBy
    split
    · simp only [List.mem_cons, ih]
      constructor
      · rintro (h | h | h) <;> simp [h]
      · rintro (h | h | h) <;> simp [h]
    · simp

@[simp] theorem mem_sortBy {before : α → α → Bool} {a : α} {xs : List α} :
    a ∈ sortBy before xs ↔ a ∈ xs := by
  induction xs with
  | nil => simp [sortBy]
  | cons y rest ih =>
    simp only [sortBy, List.foldr_cons, mem_insertBy, List.mem_cons] at ih ⊢
    rw [ih]

@[simp] theorem length_insertBy {before : α → α → Bool} {x : α} {xs : List α} :
    (insertBy before x xs).length = xs.length + 1 := by
  induction xs with
  | nil => rfl
  | cons y rest ih => unfold insertBy; split <;> simp [ih]

@[simp] theorem length_sortBy {before : α → α → Bool} {xs : List α} :
    (sortBy before xs).length = xs.length := by
  induction xs with
  | nil => rfl
  | cons y rest ih =>
    simp only [sortBy, List.foldr_cons, length_insertBy, List.length_cons] at ih ⊢
    rw [ih]

theorem perm_insertBy (before : α → α → Bool) (x : α) (xs : List α) :
    (insertBy before x xs).Perm (x :: xs) := by
  induction xs with
  | nil => exact .refl _
  | cons y rest ih =>
    unfold insertBy
    split
    · exact (ih.cons y).trans (.swap x y rest)
    · exact .refl _

theorem perm_sortBy (before : α → α → Bool) (xs : List α) : (sortBy before xs).Perm xs := by
  induction xs with
  | nil => exact .refl _
  | cons y rest ih => exact (perm_insertBy before y _).trans (ih.cons y)

section Ties

variable {before : α → α → Bool} {tied : α → Bool}
  (htied : ∀ a b, tied a = true → tied b = true → before a b = false)

include htied

theorem filter_insertBy (x : α) (xs : List α) :
    (insertBy before x xs).filter tied = (x :: xs).filter tied := by
  induction xs with
  | nil => rfl
  | cons y rest ih =>
    unfold insertBy
    split
    next hbefore =>
      rw [List.filter_cons, ih]
      -- `x` has passed `y`, so one of the two is left out
      cases hx : tied x with
      | false => simp [List.filter_cons, hx]
      | true =>
        have hy : tied y = false := by
          rw [← Bool.not_eq_true]
          intro hy
          rw [htied y x hy hx] at hbefore
          cases hbefore
        simp [hx, hy]
    next => rfl

/-- Elements none of which has to stand before another keep the order they came in. -/
theorem filter_sortBy (xs : List α) : (sortBy before xs).filter tied = xs.filter tied := by
  induction xs with
  | nil => rfl
  | cons y rest ih =>
    have hinsert : sortBy before (y :: rest) = insertBy before y (sortBy before rest) := rfl
    rw [hinsert, filter_insertBy htied, List.filter_cons, List.filter_cons, ih]

end Ties

section Order

variable {before : α → α → Bool} (hasymm : ∀ a b, before a b = true → before b a = false)
  (htrans : ∀ a b c, before b a = false → before c b = false → before c a = false)

include hasymm htrans

theorem pairwise_insertBy {x : α} {xs : List α}
    (h : xs.Pairwise fun a b => before b a = false) :
    (insertBy before x xs).Pairwise fun a b => before b a = false := by
  induction xs with
  | nil => exact List.pairwise_singleton _ x
  | cons y rest ih =>
    obtain ⟨hy, hrest⟩ := List.pairwise_cons.1 h
    unfold insertBy
    split
    next hbefore =>
      apply List.Pairwise.cons _ (ih hrest)
      intro a ha
      rcases mem_insertBy.1 ha with rfl | ha
      · exact hasymm y a hbefore
      · exact hy a ha
    next hbefore =>
      rw [Bool.not_eq_true] at hbefore
      apply List.Pairwise.cons _ h
      intro a ha
      rcases List.mem_cons.1 ha with rfl | ha
      · exact hbefore
      · exact htrans x y a hbefore (hy a ha)

theorem pairwise_sortBy (xs : List α) :
    (sortBy before xs).Pairwise fun a b => before b a = false := by
  induction xs with
  | nil => exact List.Pairwise.nil
  | cons y rest ih => exact pairwise_insertBy hasymm htrans ih

end Order

/-- Things sorted by a text have their texts in order. -/
theorem pairwise_sortBy_le (text : α → String) (xs : List α) :
    (sortBy (fun a b => decide (text a < text b)) xs).Pairwise fun a b => text a ≤ text b := by
  have hsorted : (sortBy (fun a b => decide (text a < text b)) xs).Pairwise
      fun a b => decide (text b < text a) = false := by
    apply pairwise_sortBy
    · intro a b hab
      exact decide_eq_false (String.lt_asymm (of_decide_eq_true hab))
    · intro a b c hab hbc
      simp only [decide_eq_false_iff_not, String.not_lt] at hab hbc ⊢
      exact String.le_trans hab hbc
  simpa only [decide_eq_false_iff_not, String.not_lt] using hsorted

/-- Texts that are the same but for their order are sorted alike. -/
theorem sortTexts_eq_of_perm {xs ys : List String} (h : xs.Perm ys) :
    sortTexts xs = sortTexts ys := by
  have hsorted : ∀ zs, (sortTexts zs).Pairwise fun a b => a ≤ b := pairwise_sortBy_le fun s => s
  apply List.Perm.eq_of_pairwise _ (hsorted xs) (hsorted ys)
  · exact ((perm_sortBy _ xs).trans h).trans (perm_sortBy _ ys).symm
  · exact fun a b _ _ hab hba => String.le_antisymm hab hba

end StreamConfig.Text
