import StreamConfig.Proofs.Linting.Labels

/-! # Runs of the label linter

One book of labels serves all calls of the label linter on a document. After any calls it holds the
labels that they have set, each with the line of the call that set it first, and from these lines
every later call is answered:
* `Label.HasForm` — the form of a label, character by character
* `LabelBook.run` — calls one after the other
* `Records`, `IsAnswered` — what the book holds, what a call reports, given the calls before it
* `Records.lint` — one call: it is answered, and the book records it too
* `run_history` — every run
-/

namespace StreamConfig

/-! ## The form of labels -/

namespace Label

/-- A lower-case ASCII letter or a decimal digit. -/
def IsLowerOrDigit (c : Char) : Prop := ('a' ≤ c ∧ c ≤ 'z') ∨ ('0' ≤ c ∧ c ≤ '9')

/-- A lower-case ASCII letter or a digit, and then, up to the end of the text, any number of those
and of underscores. -/
def HasForm (s : String) : Prop :=
  ∃ first rest, s.toList = first :: rest ∧ IsLowerOrDigit first ∧
    ∀ c ∈ rest, IsLowerOrDigit c ∨ c = '_'

theorem isLabelChar_iff (c : Char) : isLabelChar c = true ↔ IsLowerOrDigit c ∨ c = '_' := by
  have hlower : c.isLower = true ↔ 'a' ≤ c ∧ c ≤ 'z' :=
    Bool.and_eq_true_iff.trans (and_congr decide_eq_true_iff decide_eq_true_iff)
  have hdigit : c.isDigit = true ↔ '0' ≤ c ∧ c ≤ '9' :=
    Bool.and_eq_true_iff.trans (and_congr decide_eq_true_iff decide_eq_true_iff)
  simp [isLabelChar, IsLowerOrDigit, hlower, hdigit]

theorem underscore_not_isLowerOrDigit : ¬ IsLowerOrDigit '_' := by
  unfold IsLowerOrDigit
  decide

theorem isWellFormed_iff (s : String) : isWellFormed s = true ↔ HasForm s := by
  have hempty : s = "" ↔ s.toList = [] := String.toList_eq_nil_iff.symm
  unfold isWellFormed HasForm
  cases hs : s.toList with
  | nil => simp [hempty, hs]
  | cons c cs =>
    simp only [bne_iff_ne, ne_eq, hempty, hs, Bool.and_eq_true, List.head?_cons, Option.some.injEq,
      List.all_cons, List.all_eq_true, isLabelChar_iff, List.cons.injEq]
    constructor
    · rintro ⟨⟨-, hfirst⟩, hc, hcs⟩
      exact ⟨c, cs, ⟨rfl, rfl⟩, hc.resolve_right hfirst, hcs⟩
    · rintro ⟨_, _, ⟨rfl, rfl⟩, hc, hcs⟩
      refine ⟨⟨by simp, ?_⟩, .inl hc, hcs⟩
      rintro rfl
      exact underscore_not_isLowerOrDigit hc

end Label

/-! ## Runs -/

/-- One call of the label linter. -/
structure LabelCall where
  position : Position
  value : Value

namespace LabelBook

/-- Checks the values of some calls one after the other: what each call reports, and the book after
all of them. -/
def run (book : LabelBook) : List LabelCall → List (List Finding) × LabelBook
  | [] => ([], book)
  | c :: rest =>
    let (found, book) := book.lint c.position c.value
    let (others, book) := run book rest
    (found :: others, book)

@[simp] theorem run_nil (book : LabelBook) : run book [] = ([], book) := rfl

@[simp] theorem run_cons (book : LabelBook) (c : LabelCall) (rest : List LabelCall) :
    run book (c :: rest) =
      ((book.lint c.position c.value).1 :: (run (book.lint c.position c.value).2 rest).1,
        (run (book.lint c.position c.value).2 rest).2) := rfl

theorem run_append (book : LabelBook) (before later : List LabelCall) :
    run book (before ++ later) =
      ((run book before).1 ++ (run (run book before).2 later).1,
        (run (run book before).2 later).2) := by
  induction before generalizing book with
  | nil => simp
  | cons c before ih => simp [ih]

theorem length_run (book : LabelBook) (calls : List LabelCall) :
    (run book calls).1.length = calls.length := by
  induction calls generalizing book with
  | nil => rfl
  | cons c rest ih => simp [ih]

/-- The line of the first call with a text. -/
def firstLine? (calls : List LabelCall) (s : String) : Option Nat :=
  (calls.find? fun c => c.value.text? == some s).map (·.position.line)

theorem firstLine?_snoc (calls : List LabelCall) (c : LabelCall) (s : String) :
    firstLine? (calls ++ [c]) s =
      (firstLine? calls s).or (if c.value.text? = some s then some c.position.line else none) := by
  unfold firstLine?
  rw [List.find?_append, Option.map_or]
  by_cases h : c.value.text? = some s <;> simp [h]

/-- The book holds the labels among the texts of the calls, each of them once and with the line of
the first call with it. -/
structure Records (book : LabelBook) (calls : List LabelCall) : Prop where
  distinct : (book.map (·.1)).Nodup
  label : ∀ s, Label.HasForm s → book.line? s = firstLine? calls s
  other : ∀ s, ¬ Label.HasForm s → book.line? s = none

/-- How a call is answered, given the calls before it: what it reports, and what it makes of the
book. -/
structure IsAnswered (before : List LabelCall) (c : LabelCall) (book : LabelBook)
    (found : List Finding) (book' : LabelBook) : Prop where
  /-- Only texts that are not empty are looked at. -/
  unset : (∀ s, c.value = .string s → s = "") → found = [] ∧ book' = book
  malformed : ∀ s, c.value = .string s → s ≠ "" → ¬ Label.HasForm s →
    found = [⟨c.position, .error,
      "Invalid label '" ++ s ++ "': " ++ Label.Fault.malformed.message⟩] ∧
      book' = book
  fresh : ∀ s, c.value = .string s → Label.HasForm s → firstLine? before s = none →
    found = [] ∧ book' = book ++ [(s, c.position.line)]
  repeated : ∀ s line, c.value = .string s → Label.HasForm s → firstLine? before s = some line →
    found = [⟨c.position, .error,
      "Label '" ++ s ++ "' collides with a previously defined label at line " ++ toString line⟩] ∧
      book' = book

end LabelBook

theorem Label.HasForm.ne_empty {s : String} (h : Label.HasForm s) : s ≠ "" := by
  rintro rfl
  obtain ⟨first, rest, hs, -⟩ := h
  cases hs

theorem Value.label?_eq_none {v : Value} :
    v.label? = none ↔ ∀ s, v = .string s → s = "" := by
  cases v with
  | string t => simp [label?]
  | null | bool | number | array | object => simp [label?]

namespace LabelBook

namespace Records

variable {book : LabelBook} {calls : List LabelCall} {c : LabelCall}

theorem nil : Records [] [] := ⟨List.nodup_nil, fun _ _ => rfl, fun _ _ => rfl⟩

theorem of_no_label (h : Records book calls)
    (hc : ∀ s, c.value = .string s → ¬ Label.HasForm s) : Records book (calls ++ [c]) := by
  refine ⟨h.distinct, fun s hs => ?_, h.other⟩
  have hne : c.value.text? ≠ some s := by
    intro htext
    cases hv : c.value with
    | string t =>
      simp only [hv, Value.text?, Option.some.injEq] at htext
      exact hc s (htext ▸ hv) hs
    | null | bool | number | array | object => simp [hv, Value.text?] at htext
  rw [firstLine?_snoc, if_neg hne, Option.or_none, h.label s hs]

theorem of_known (h : Records book calls) {s : String} {line : Nat} (hc : c.value = .string s)
    (hs : book.line? s = some line) : Records book (calls ++ [c]) := by
  refine ⟨h.distinct, fun t ht => ?_, h.other⟩
  rw [firstLine?_snoc, h.label t ht]
  by_cases hst : s = t
  · subst hst
    -- a call with the label has come before, so this one is not the first
    rw [← h.label s ht, hs, Option.some_or]
  · simp [hc, Value.text?, hst]

theorem of_new (h : Records book calls) {s : String} (hc : c.value = .string s)
    (hform : Label.HasForm s) (hs : book.line? s = none) :
    Records (book ++ [(s, c.position.line)]) (calls ++ [c]) := by
  have hnew : s ∉ book.map (·.1) := by
    intro hmem
    obtain ⟨e, he, rfl⟩ := List.mem_map.1 hmem
    unfold line? at hs
    rw [Option.map_eq_none_iff, List.find?_eq_none] at hs
    simpa using hs e he
  refine ⟨?_, fun t ht => ?_, fun t ht => ?_⟩
  · rw [List.map_append, List.map_singleton]
    refine List.nodup_append.2 ⟨h.distinct, by simp, fun t ht t' ht' => ?_⟩
    rw [List.mem_singleton.1 ht']
    rintro rfl
    exact hnew ht
  · rw [line?_append, firstLine?_snoc, h.label t ht]
    simp [hc, Value.text?]
  · have hne : s ≠ t := by
      rintro rfl
      exact ht hform
    rw [line?_append, h.other t ht, if_neg hne]
    rfl

/-- One call: it is answered, and the book records it afterwards. -/
theorem lint (h : Records book calls) (c : LabelCall) :
    IsAnswered calls c book (book.lint c.position c.value).1 (book.lint c.position c.value).2 ∧
      Records (book.lint c.position c.value).2 (calls ++ [c]) := by
  cases hlabel : c.value.label? with
  | none =>
    have hunset := Value.label?_eq_none.1 hlabel
    rw [lint_of_none book c.position hlabel]
    refine ⟨⟨fun _ => ⟨rfl, rfl⟩, ?_, ?_, ?_⟩, h.of_no_label fun s hs hform => ?_⟩
    · exact fun s hs hne => absurd (hunset s hs) hne
    · exact fun s hs hform => absurd (hunset s hs) hform.ne_empty
    · exact fun s line hs hform => absurd (hunset s hs) hform.ne_empty
    · exact hform.ne_empty (hunset s hs)
  | some s =>
    obtain ⟨hv, hne⟩ := Value.label?_eq_some.1 hlabel
    -- any text that the call has is this one
    have hsame : ∀ {t}, c.value = .string t → t = s := fun ht => Value.string.inj (ht.symm.trans hv)
    have hset : ¬ ∀ t, c.value = .string t → t = "" := fun hunset => hne (hunset s hv)
    by_cases hform : Label.HasForm s
    · have hwell := (Label.isWellFormed_iff s).2 hform
      cases hline : book.line? s with
      | none =>
        rw [lint_of_new book c.position hlabel hwell hline]
        refine ⟨⟨fun hunset => absurd hunset hset, ?_, ?_, ?_⟩, h.of_new hv hform hline⟩
        · rintro t ht - hmalformed
          exact absurd (hsame ht ▸ hform) hmalformed
        · rintro t ht - -
          rw [hsame ht]
          exact ⟨rfl, rfl⟩
        · rintro t line ht - hfirst
          rw [hsame ht, ← h.label s hform, hline] at hfirst
          cases hfirst
      | some line =>
        rw [lint_of_known book c.position hlabel hwell hline]
        refine ⟨⟨fun hunset => absurd hunset hset, ?_, ?_, ?_⟩, h.of_known hv hline⟩
        · rintro t ht - hmalformed
          exact absurd (hsame ht ▸ hform) hmalformed
        · rintro t ht - hfirst
          rw [hsame ht, ← h.label s hform, hline] at hfirst
          cases hfirst
        · rintro t line' ht - hfirst
          rw [hsame ht, ← h.label s hform, hline] at hfirst
          cases hfirst
          rw [hsame ht]
          exact ⟨rfl, rfl⟩
    · have hwell : Label.isWellFormed s = false := by
        rw [← Bool.not_eq_true, Label.isWellFormed_iff]
        exact hform
      rw [lint_of_malformed book c.position hlabel hwell]
      refine ⟨⟨fun hunset => absurd hunset hset, ?_, ?_, ?_⟩, h.of_no_label fun t ht hlabel => ?_⟩
      · rintro t ht - -
        rw [hsame ht]
        exact ⟨rfl, rfl⟩
      · exact fun t ht hlabel => absurd (hsame ht ▸ hlabel) hform
      · exact fun t line ht hlabel => absurd (hsame ht ▸ hlabel) hform
      · exact hform (hsame ht ▸ hlabel)

theorem run (h : Records book calls) (later : List LabelCall) :
    Records (book.run later).2 (calls ++ later) := by
  induction later generalizing book calls with
  | nil => rwa [List.append_nil]
  | cons c later ih =>
    rw [run_cons, List.append_cons]
    exact ih (h.lint c).2

end Records

/-- In a run of calls that starts with an empty book, the book records after any number of calls
what they have brought up, and the next call is answered from it. -/
theorem run_history (before : List LabelCall) (c : LabelCall) (later : List LabelCall) :
    Records (run [] before).2 before ∧
      ∃ found, (run [] (before ++ c :: later)).1[before.length]? = some found ∧
        IsAnswered before c (run [] before).2 found (run [] (before ++ [c])).2 := by
  have hrecords : Records (run [] before).2 before := Records.nil.run before
  refine ⟨hrecords, ((run [] before).2.lint c.position c.value).1, ?_, ?_⟩
  · rw [run_append, List.getElem?_append_right (Nat.le_of_eq (length_run [] before)),
      length_run, run_cons, Nat.sub_self]
    rfl
  · rw [run_append]
    exact (hrecords.lint c).1

/-- A label stays with the line of its first call, also when a call in between is refused. -/
example :
    (run [] [⟨⟨7, 3⟩, .string "a_1"⟩, ⟨⟨2, 1⟩, .string "_a"⟩, ⟨⟨4, 9⟩, .string "a_1"⟩]).2 =
      [("a_1", 7)] := by decide

end LabelBook

end StreamConfig
