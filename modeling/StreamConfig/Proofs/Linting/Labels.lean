import StreamConfig.Document.Remark

/-! # Labels while remarks are settled

* `Value.label?` — the label that a value sets, if it sets any;
* `LabelBook.lint_of_none`, `lint_of_malformed`, `lint_of_known`, `lint_of_new` — the four things
  that can happen to a value that should be a label;
* `Remark.settle_eq_nil_iff` — nothing is reported exactly if no remark reports anything of its own
  and the labels are well formed and all different.
-/

namespace StreamConfig

/-- The label that a value sets; the empty text sets none. -/
def Value.label? (v : Value) : Option String :=
  match v with
  | .string s => if s = "" then none else some s
  | _ => none

theorem Value.label?_eq_some {v : Value} {s : String} :
    v.label? = some s ↔ v = .string s ∧ s ≠ "" := by
  cases v with
  | string t =>
    simp only [label?, string.injEq]
    split
    next h => simp only [reduceCtorEq, false_iff]; rintro ⟨rfl, hs⟩; exact hs h
    next h =>
      rw [Option.some.injEq]
      exact ⟨fun ht => ⟨ht, ht ▸ h⟩, fun ht => ht.1⟩
  | null | bool | number | array | object => simp [label?]

namespace LabelBook

/-- A label entered at the end is found unless an entry before it has the same label. -/
theorem line?_append (book : LabelBook) (s t : String) (line : Nat) :
    line? (book ++ [(s, line)]) t = (line? book t).or (if s = t then some line else none) := by
  unfold line?
  rw [List.find?_append, Option.map_or]
  by_cases h : s = t <;> simp [h]

variable (book : LabelBook) (at' : Position) {v : Value} {s : String}

theorem lint_of_none (h : v.label? = none) : book.lint at' v = ([], book) := by
  have hblank : v.text?.getD "" = "" := by
    cases v with
    | string t =>
      by_cases ht : t = ""
      · exact ht
      · simp [Value.label?, ht] at h
    | null | bool | number | array | object => rfl
  unfold lint
  rw [if_pos hblank]

private theorem lint_of_some (h : v.label? = some s) :
    book.lint at' v = match Label.validate s with
      | .error fault => ([⟨at', .error, "Invalid label '" ++ s ++ "': " ++ fault.message⟩], book)
      | .ok () =>
        match book.line? s with
        | some line => ([⟨at', .error, (Label.Fault.collision s line).message⟩], book)
        | none => ([], book ++ [(s, at'.line)]) := by
  obtain ⟨rfl, hs⟩ := Value.label?_eq_some.1 h
  unfold lint
  rw [if_neg (show ¬ (Value.string s).text?.getD "" = "" from hs)]
  rfl

theorem validate_of_wellFormed (h : Label.isWellFormed s = true) : Label.validate s = .ok () := by
  unfold Label.validate
  split
  · rfl
  · rfl

theorem lint_of_malformed (h : v.label? = some s) (hform : Label.isWellFormed s = false) :
    book.lint at' v =
      ([⟨at', .error, "Invalid label '" ++ s ++ "': " ++ Label.Fault.malformed.message⟩],
        book) := by
  have hvalidate : Label.validate s = .error .malformed := by
    unfold Label.validate
    rw [if_neg (Value.label?_eq_some.1 h).2, if_neg (by simp [hform])]
  rw [lint_of_some book at' h, hvalidate]

theorem lint_of_known (h : v.label? = some s) (hform : Label.isWellFormed s = true) {line : Nat}
    (hline : book.line? s = some line) :
    book.lint at' v = ([⟨at', .error, (Label.Fault.collision s line).message⟩], book) := by
  rw [lint_of_some book at' h, validate_of_wellFormed hform, hline]

theorem lint_of_new (h : v.label? = some s) (hform : Label.isWellFormed s = true)
    (hline : book.line? s = none) : book.lint at' v = ([], book ++ [(s, at'.line)]) := by
  rw [lint_of_some book at' h, validate_of_wellFormed hform, hline]

end LabelBook

namespace Remark

/-- The remark reports nothing, whatever labels have been met. -/
def IsQuiet (ps : Positions) : Remark → Prop
  | .finding _ _ _ => False
  | .check _ .label _ => True
  | .check p (.report run) v => run (ps.nearest p) v = []

/-- The label that a remark brings up. -/
def label? : Remark → Option String
  | .check _ .label v => v.label?
  | _ => none

/-- The labels that a list of remarks brings up. -/
def labels (rs : List Remark) : List String := rs.filterMap label?

/-- Nothing is reported exactly if no remark reports anything of its own and the labels are well
formed, new, and all different. -/
theorem settle_eq_nil_iff {ps : Positions} {book : LabelBook} {rs : List Remark} :
    settle ps book rs = [] ↔ (∀ r ∈ rs, r.IsQuiet ps) ∧ (labels rs).Nodup ∧
      ∀ s ∈ labels rs, Label.isWellFormed s = true ∧ book.line? s = none := by
  induction rs generalizing book with
  | nil => simp [settle, labels]
  | cons r rest ih =>
    rw [settle, List.append_eq_nil_iff, List.forall_mem_cons]
    cases r with
    | finding place level text => simp [report, IsQuiet]
    | check place linter v =>
      cases linter with
      | report run =>
        have hlabels : labels (.check place (.report run) v :: rest) = labels rest := rfl
        rw [hlabels, and_assoc, ← ih]
        rfl
      | label =>
        have hquiet : IsQuiet ps (.check place .label v) := trivial
        have hreport : report ps book (.check place .label v) =
            book.lint (ps.nearest place) v := rfl
        simp only [hquiet, hreport, true_and]
        cases hv : v.label? with
        | none =>
          have hlabels : labels (.check place .label v :: rest) = labels rest :=
            List.filterMap_cons_none hv
          rw [LabelBook.lint_of_none book _ hv, hlabels, ih]
          simp
        | some s =>
          have hlabels : labels (.check place .label v :: rest) = s :: labels rest :=
            List.filterMap_cons_some hv
          rw [hlabels, List.nodup_cons, List.forall_mem_cons]
          cases hform : Label.isWellFormed s with
          | false => simp [LabelBook.lint_of_malformed book _ hv hform]
          | true =>
            cases hline : book.line? s with
            | some line => simp [LabelBook.lint_of_known book _ hv hform hline]
            | none =>
              rw [LabelBook.lint_of_new book _ hv hform hline, ih]
              -- the labels that come later must differ from `s`, which is in the book now
              have hlater : (∀ t ∈ labels rest, Label.isWellFormed t = true ∧
                  LabelBook.line? (book ++ [(s, (ps.nearest place).line)]) t = none) ↔
                  s ∉ labels rest ∧
                    ∀ t ∈ labels rest, Label.isWellFormed t = true ∧ book.line? t = none := by
                simp only [LabelBook.line?_append, Option.or_eq_none_iff]
                constructor
                · intro h
                  refine ⟨fun hs => ?_, fun t ht => ⟨(h t ht).1, (h t ht).2.1⟩⟩
                  simpa using (h s hs).2.2
                · rintro ⟨hs, h⟩ t ht
                  refine ⟨(h t ht).1, (h t ht).2, if_neg ?_⟩
                  rintro rfl
                  exact hs ht
              simp only [hlater, and_self, true_and]
              constructor
              · rintro ⟨hrest, hnodup, hs, hfresh⟩
                exact ⟨hrest, ⟨hs, hnodup⟩, hfresh⟩
              · rintro ⟨hrest, ⟨hs, hnodup⟩, hfresh⟩
                exact ⟨hrest, hnodup, hs, hfresh⟩

end Remark

end StreamConfig
