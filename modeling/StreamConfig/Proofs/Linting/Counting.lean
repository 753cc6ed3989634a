import Mathlib.Data.List.Forall2
import StreamConfig.Proofs.Linting.Labels
import StreamConfig.Proofs.Pruning.Faces

/-! # Counting errors

How many errors remarks come to does not depend on positions, as long as linters are steady. It does
not grow when remarks are dropped either: a label that is dropped makes no error any more, and the
labels that stay collide with fewer others.

* `Linter.IsSteady` — as many errors of one value as of any other
* `LabelBook.Covers` — a book with more labels, beside which more labels collide
* `Remark.Echoes` — the same remark on a value with the same face
* `Remark.errors_settle_le` — by induction on remarks of which some are dropped
-/

namespace StreamConfig

/-- Of every value, at every position, the linter makes the same number of errors. It is not enough
that the number of findings is the same, as `lint_pruned_needs` shows. Whether a label is an error
depends on the labels before it, and the book of labels takes care of that. -/
def Linter.IsSteady : Linter → Prop
  | .label => True
  | .report check => ∀ p v p' v',
      (check p v).countP Finding.isError = (check p' v').countP Finding.isError

/-- One book knows all labels of another. -/
def LabelBook.Covers (book' book : LabelBook) : Prop :=
  ∀ s, book'.line? s = none → book.line? s = none

theorem LabelBook.Covers.trans {a b c : LabelBook} (h : a.Covers b) (h' : b.Covers c) :
    a.Covers c := fun s hs => h' s (h s hs)

/-- Labels are only ever entered. -/
theorem LabelBook.covers_lint (book : LabelBook) (p : Position) (v : Value) :
    LabelBook.Covers (book.lint p v).2 book := by
  have hself : LabelBook.Covers book book := fun _ hs => hs
  cases hlabel : v.label? with
  | none => simpa [lint_of_none book p hlabel] using hself
  | some s =>
    cases hform : Label.isWellFormed s with
    | false => simpa [lint_of_malformed book p hlabel hform] using hself
    | true =>
      cases hline : book.line? s with
      | some line => simpa [lint_of_known book p hlabel hform hline] using hself
      | none =>
        rw [lint_of_new book p hlabel hform hline]
        intro t ht
        rw [line?_append, Option.or_eq_none_iff] at ht
        exact ht.1

/-- A label is an error at most where it is one beside more labels. -/
theorem LabelBook.lint_le {book book' : LabelBook} (h : book'.Covers book) (p p' : Position)
    {v w : Value} (hlabel : w.label? = v.label?) :
    (book.lint p w).1.countP Finding.isError ≤ (book'.lint p' v).1.countP Finding.isError ∧
      LabelBook.Covers (book'.lint p' v).2 (book.lint p w).2 := by
  cases hv : v.label? with
  | none => simpa [lint_of_none _ _ (hlabel.trans hv), lint_of_none _ _ hv] using h
  | some s =>
    have hw := hlabel.trans hv
    cases hform : Label.isWellFormed s with
    | false =>
      rw [lint_of_malformed _ _ hw hform, lint_of_malformed _ _ hv hform]
      exact ⟨Nat.le_refl _, h⟩
    | true =>
      cases hline : book.line? s with
      | some line =>
        -- a label that is in the book is in the other one, too
        obtain ⟨line', hline'⟩ : ∃ line', book'.line? s = some line' := by
          rw [← Option.ne_none_iff_exists']
          intro hnone
          rw [h s hnone] at hline
          cases hline
        rw [lint_of_known _ _ hw hform hline, lint_of_known _ _ hv hform hline']
        exact ⟨Nat.le_refl _, h⟩
      | none =>
        rw [lint_of_new _ _ hw hform hline]
        cases hline' : book'.line? s with
        | some line' =>
          rw [lint_of_known _ _ hv hform hline']
          refine ⟨Nat.zero_le _, fun t ht => ?_⟩
          have hne : s ≠ t := by
            intro hst
            rw [← hst, hline'] at ht
            cases ht
          simp [line?_append, h t ht, hne]
        | none =>
          rw [lint_of_new _ _ hv hform hline']
          refine ⟨Nat.le_refl _, fun t ht => ?_⟩
          rw [line?_append, Option.or_eq_none_iff] at ht ⊢
          refine ⟨h t ht.1, ?_⟩
          by_cases hst : s = t <;> simp_all

theorem Value.Alike.label?_eq {v w : Value} (h : v.Alike w) : w.label? = v.label? := by
  cases h <;> rfl

namespace Remark

def IsSteady : Remark → Prop
  | .finding _ _ _ => True
  | .check _ linter _ => linter.IsSteady

/-- The same remark, perhaps on a value that keeps no more than its face. -/
inductive Echoes : Remark → Remark → Prop
  | finding (place : Pointer) (level : Level) (text : String) :
      Echoes (.finding place level text) (.finding place level text)
  | check (place : Pointer) (linter : Linter) {v w : Value} (h : v.Alike w) :
      Echoes (.check place linter w) (.check place linter v)

theorem Echoes.refl (x : Remark) : Echoes x x := by
  cases x with
  | finding place level text => exact .finding place level text
  | check place linter v => exact .check place linter (.refl v)

variable (ps ps' : Positions) {book book' : LabelBook}

theorem covers_report (book : LabelBook) (x : Remark) :
    LabelBook.Covers (x.report ps book).2 book := by
  cases x with
  | finding => exact fun _ hs => hs
  | check place linter v =>
    cases linter with
    | label => exact book.covers_lint _ v
    | report => exact fun _ hs => hs

theorem errors_report_le {x y : Remark} (hxy : x.Echoes y) (hsteady : y.IsSteady)
    (h : book'.Covers book) :
    (x.report ps book).1.countP Finding.isError ≤ (y.report ps' book').1.countP Finding.isError ∧
      LabelBook.Covers (y.report ps' book').2 (x.report ps book).2 := by
  cases hxy with
  | finding place level text =>
    refine ⟨?_, h⟩
    simp only [report, List.countP_singleton, Finding.isError]
    exact Nat.le_refl _
  | check place linter halike =>
    cases linter with
    | label => exact LabelBook.lint_le h _ _ halike.label?_eq
    | report check => exact ⟨Nat.le_of_eq (hsteady _ _ _ _), h⟩

/-- Remarks of which some are dropped come to no more errors, wherever they stand in a text. -/
theorem errors_settle_le {rs rs' : List Remark} (hrs : List.SublistForall₂ Echoes rs rs')
    (hsteady : ∀ y ∈ rs', y.IsSteady) (h : book'.Covers book) :
    (settle ps book rs).countP Finding.isError ≤
      (settle ps' book' rs').countP Finding.isError := by
  induction hrs generalizing book book' with
  | nil => simp [settle]
  | @cons x y rs rs' hxy _ ih =>
    obtain ⟨hhere, hcovers⟩ := errors_report_le ps ps' hxy (hsteady y List.mem_cons_self) h
    have hrest := ih (fun z hz => hsteady z (List.mem_cons_of_mem _ hz)) hcovers
    rw [settle, settle, List.countP_append, List.countP_append]
    omega
  | @cons_right y rs rs' _ ih =>
    have hrest := ih (fun z hz => hsteady z (List.mem_cons_of_mem _ hz))
      ((covers_report ps' book' y).trans h)
    rw [settle, List.countP_append]
    omega

end Remark

theorem Remark.echoes_self (rs : List Remark) : List.SublistForall₂ Echoes rs rs := by
  induction rs with
  | nil => exact .nil
  | cons x rest ih => exact .cons (.refl x) ih

theorem Remark.sublistForall₂_append {R : Remark → Remark → Prop} {xs ys xs' ys' : List Remark}
    (h : List.SublistForall₂ R xs ys) (h' : List.SublistForall₂ R xs' ys') :
    List.SublistForall₂ R (xs ++ xs') (ys ++ ys') := by
  induction h with
  | @nil ys =>
    induction ys with
    | nil => exact h'
    | cons y ys ih => exact .cons_right ih
  | cons hxy _ ih => exact .cons hxy ih
  | cons_right _ ih => exact .cons_right ih

/-- Sorting findings by position loses none of them. -/
theorem Finding.countP_inOrder (fs : List Finding) :
    (inOrder fs).countP isError = fs.countP isError :=
  (Text.perm_sortBy _ fs).countP_eq _

end StreamConfig
