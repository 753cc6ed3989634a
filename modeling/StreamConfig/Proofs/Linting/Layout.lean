import Mathlib.Data.List.Perm.Basic
import StreamConfig.Proofs.Command.LintRuns
import StreamConfig.Proofs.Document.Places
import StreamConfig.Proofs.Linting.Walks
import StreamConfig.Proofs.Snapshot

/-! # The layout of a source text

A document is a value with a source text, and all that the text has to say is where things stand.
Lines do get into the book of labels and from there into messages, but never into the question
whether there is something to report: the labels that a book knows do not depend on lines.

* `Finding.Elsewhere` — the same finding with another layout: a collision cites another line
* `Linter.IsPlaceless` — a linter that reports the same wherever a value stands
* `LabelBook.Matches` — two books of the same labels
* `Remark.elsewhere_report`, `Remark.elsewhere_settle` — one remark beside itself in another layout,
  and by induction all remarks of a walk
* `Finding.pairwise_inOrder`, `Finding.filter_inOrder` — the order in which findings are listed
* `lintDocument_layout` — whole documents, and whole runs
-/

namespace StreamConfig

/-- The same finding in another layout: it may stand elsewhere, and the label that it collides with,
too. -/
inductive Finding.Elsewhere : Finding → Finding → Prop
  | same (p p' : Position) (level : Level) (text : String) :
      Elsewhere ⟨p, level, text⟩ ⟨p', level, text⟩
  | collision (p p' : Position) (level : Level) (label : String) (line line' : Nat) :
      Elsewhere ⟨p, level, (Label.Fault.collision label line).message⟩
        ⟨p', level, (Label.Fault.collision label line').message⟩

/-- Apart from labels, which the book of labels takes care of, the linter looks at the value alone
and reports at the position that it is given. -/
def Linter.IsPlaceless : Linter → Prop
  | .label => True
  | .report check => ∀ p p' v, check p' v = (check p v).map fun f => { f with position := p' }

def Field.IsPlaceless (f : Field) : Prop := ∀ linter, f.linter = some linter → linter.IsPlaceless

namespace Remark

def IsPlaceless : Remark → Prop
  | .finding _ _ _ => True
  | .check _ linter _ => linter.IsPlaceless

theorem placeless_fieldRelation :
    FieldRelation (fun rs _ => ∀ x ∈ rs, x.IsPlaceless) Field.IsPlaceless :=
  .ofLinters (fun _ _ _ => trivial) (fun _ _ _ h => h) trivial

end Remark

/-! ## Two layouts side by side -/

/-- Two books know the same labels, with lines that may differ. -/
def LabelBook.Matches (book book' : LabelBook) : Prop :=
  ∀ s, book.line? s = none ↔ book'.line? s = none

/-- One value that should be a label, in two layouts. -/
theorem LabelBook.Matches.lint {book book' : LabelBook} (h : book.Matches book')
    (p p' : Position) (v : Value) :
    List.Forall₂ Finding.Elsewhere (book.lint p v).1 (book'.lint p' v).1 ∧
      LabelBook.Matches (book.lint p v).2 (book'.lint p' v).2 := by
  cases hlabel : v.label? with
  | none =>
    rw [lint_of_none _ _ hlabel, lint_of_none _ _ hlabel]
    exact ⟨.nil, h⟩
  | some s =>
    cases hform : Label.isWellFormed s with
    | false =>
      rw [lint_of_malformed _ _ hlabel hform, lint_of_malformed _ _ hlabel hform]
      exact ⟨.cons (.same ..) .nil, h⟩
    | true =>
      cases hline : book.line? s with
      | none =>
        rw [lint_of_new _ _ hlabel hform hline, lint_of_new _ _ hlabel hform ((h s).1 hline)]
        -- it is entered in both books, with a line of its own in each
        refine ⟨.nil, fun t => ?_⟩
        by_cases ht : s = t <;> simp [line?_append, ht, h t]
      | some line =>
        -- the label is known in the other layout, too: if it were not, it would not be here
        obtain ⟨line', hline'⟩ : ∃ line', book'.line? s = some line' := by
          rw [← Option.ne_none_iff_exists', ne_eq, ← h s, hline]
          exact nofun
        rw [lint_of_known _ _ hlabel hform hline, lint_of_known _ _ hlabel hform hline']
        exact ⟨.cons (.collision ..) .nil, h⟩

namespace Remark

variable (ps ps' : Positions) {book book' : LabelBook}

theorem elsewhere_report {x : Remark} (hx : x.IsPlaceless) (h : book.Matches book') :
    List.Forall₂ Finding.Elsewhere (x.report ps book).1 (x.report ps' book').1 ∧
      LabelBook.Matches (x.report ps book).2 (x.report ps' book').2 := by
  cases x with
  | finding place level text => exact ⟨.cons (.same ..) .nil, h⟩
  | check place linter v =>
    cases linter with
    | label => exact h.lint _ _ v
    | report check =>
      refine ⟨?_, h⟩
      show List.Forall₂ _ (check _ v) (check _ v)
      rw [hx (ps.nearest place) (ps'.nearest place) v, List.forall₂_map_right_iff,
        List.forall₂_same]
      exact fun f _ => .same ..

/-- By induction on the remarks: the books go on matching, so there is the same to report. -/
theorem elsewhere_settle {rs : List Remark} (hrs : ∀ x ∈ rs, x.IsPlaceless)
    (h : book.Matches book') :
    List.Forall₂ Finding.Elsewhere (settle ps book rs) (settle ps' book' rs) := by
  induction rs generalizing book book' with
  | nil => exact .nil
  | cons x rest ih =>
    obtain ⟨hx, hrest⟩ := List.forall_mem_cons.1 hrs
    obtain ⟨hhere, hmatches⟩ := elsewhere_report ps ps' hx h
    rw [settle, settle]
    exact List.rel_append hhere (ih hrest hmatches)

end Remark

/-! ## The order of findings

Sorting findings by position is stable, so at one position they stay in the order they came in. -/

namespace Finding

theorem Elsewhere.countP_eq {fs gs : List Finding} (h : List.Forall₂ Elsewhere fs gs) :
    fs.countP isError = gs.countP isError := by
  induction h with
  | nil => rfl
  | cons hfg _ ih =>
    rw [List.countP_cons, List.countP_cons, ih]
    cases hfg <;> rfl

theorem pairwise_inOrder (fs : List Finding) :
    (inOrder fs).Pairwise fun f g => f.position.IsUpTo g.position := by
  have hsorted : (inOrder fs).Pairwise fun f g => g.position.isBefore f.position = false := by
    apply Text.pairwise_sortBy
    · intro f g hfg
      rw [Position.isBefore_eq_false_iff]
      exact .of_isBefore hfg
    · intro f g h hfg hgh
      rw [Position.isBefore_eq_false_iff] at *
      exact hfg.trans hgh
  exact hsorted.imp Position.isBefore_eq_false_iff.1

theorem filter_inOrder (fs : List Finding) (p : Position) :
    (inOrder fs).filter (fun f => f.position = p) = fs.filter fun f => f.position = p := by
  apply Text.filter_sortBy
  intro f g hf hg
  rw [of_decide_eq_true hf, of_decide_eq_true hg]
  simp [Position.isBefore]

end Finding

/-! ## Documents and runs -/

/-- The findings on a document in the order of the walk. -/
def Registry.walked (r : Registry) (source : String) (v : Value) : List Finding :=
  Remark.settle (Positions.scan source v) [] (remarksOn (m := Id) r.refreshed.resolver v)

theorem lintDocument_eq_inOrder (r : Registry) (source : String) (v : Value) :
    ((lintDocument source v).run r).1 = Finding.inOrder (r.walked source v) :=
  (Snapshot.lintDocument source v r).1

/-- Finding by finding, a walk is the same in every layout. -/
theorem Registry.elsewhere_walked {r : Registry} (hr : ∀ f ∈ r.fields, f.IsPlaceless) (v : Value)
    (source source' : String) :
    List.Forall₂ Finding.Elsewhere (r.walked source v) (r.walked source' v) := by
  have hr' : ∀ f ∈ r.refreshed.fields, f.IsPlaceless :=
    forall_mem_fields_refreshed (fun _ h => nomatch h) hr
  apply Remark.elsewhere_settle _ _ _ fun _ => Iff.rfl
  exact Remark.placeless_fieldRelation.remarksOn hr' (Nat.le_refl v.depth)

theorem countP_lintDocument {r : Registry} (hr : ∀ f ∈ r.fields, f.IsPlaceless) (v : Value)
    (source source' : String) :
    ((lintDocument source v).run r).1.countP Finding.isError =
      ((lintDocument source' v).run r).1.countP Finding.isError := by
  rw [lintDocument_eq_inOrder, lintDocument_eq_inOrder, Finding.countP_inOrder,
    Finding.countP_inOrder]
  exact Finding.Elsewhere.countP_eq (r.elsewhere_walked hr v source source')

theorem Builtin.isPlaceless_of_mem_fields : ∀ f ∈ Builtin.registry.fields, f.IsPlaceless := by
  intro f hf linter hlinter
  rw [linter_of_mem_fields hf] at hlinter
  cases hlinter

def Files.HoldSame (files files' : Files) (path path' : String) : Prop :=
  ∃ source source' v, files.load path = .ok (source, v) ∧ files'.load path' = .ok (source', v)

theorem Files.errorCount_eq {files files' : Files} {paths paths' : List String}
    (h : List.Forall₂ (files.HoldSame files') paths paths') :
    files.errorCount paths = files'.errorCount paths' := by
  induction h with
  | nil => rfl
  | @cons path path' paths paths' hpath _ ih =>
    obtain ⟨source, source', v, hload, hload'⟩ := hpath
    have hcount : ((files.findings path).countP fun f => f.level = .error) =
        (files'.findings path').countP fun f => f.level = .error := by
      rw [Files.findings_of_load hload, Files.findings_of_load hload']
      exact countP_lintDocument Builtin.isPlaceless_of_mem_fields v source source'
    unfold errorCount at ih ⊢
    rw [List.flatMap_cons, List.flatMap_cons, List.countP_append, List.countP_append, hcount, ih]

theorem Files.loads_of_holdSame {files files' : Files} {paths paths' : List String}
    (h : List.Forall₂ (files.HoldSame files') paths paths') :
    (∀ path ∈ paths, files.Loads path) ∧ ∀ path ∈ paths', files'.Loads path := by
  induction h with
  | nil => simp
  | cons hpath _ ih =>
    obtain ⟨source, source', v, hload, hload'⟩ := hpath
    exact ⟨List.forall_mem_cons.2 ⟨⟨_, hload⟩, ih.1⟩, List.forall_mem_cons.2 ⟨⟨_, hload'⟩, ih.2⟩⟩

theorem Files.exit_lint {files files' : Files} {paths paths' : List String}
    (h : List.Forall₂ (files.HoldSame files') paths paths') (style style' : ReportStyle) :
    ((Command.lint paths style).run files).exit =
      ((Command.lint paths' style').run files').exit := by
  obtain ⟨hloads, hloads'⟩ := loads_of_holdSame h
  rw [lintOutcome_loaded style hloads, lintOutcome_loaded style' hloads', errorCount_eq h]
  split <;> rfl

/-- A value linted with two source texts, which may have nothing to do with it. The findings are the
same but for the order and for where things stand, and as many of them are errors. With either text
they are listed by position, and at one position in the order of the walk. So lint runs end alike if
their files hold the same values. -/
theorem lintDocument_layout {r : Registry} (hr : ∀ f ∈ r.fields, f.IsPlaceless) (v : Value)
    (source source' : String) :
    let findings text := ((lintDocument text v).run r).1
    (∃ fs, (findings source).Perm fs ∧ List.Forall₂ Finding.Elsewhere fs (findings source')) ∧
      (findings source).countP Finding.isError = (findings source').countP Finding.isError ∧
      (∀ text, (findings text).Pairwise (fun f g => f.position.IsUpTo g.position) ∧
        ∀ p, (findings text).filter (fun f => f.position = p) =
          (r.walked text v).filter fun f => f.position = p) ∧
      ∀ (files files' : Files) (paths paths' : List String) (style style' : ReportStyle),
        List.Forall₂ (files.HoldSame files') paths paths' →
        ((Command.lint paths style).run files).exit =
          ((Command.lint paths' style').run files').exit := by
  intro findings
  refine ⟨?_, countP_lintDocument hr v source source', fun text => ?_, ?_⟩
  · have hwalked := r.elsewhere_walked hr v source source'
    have hmoved : ∀ text, (findings text).Perm (r.walked text v) := fun text => by
      show ((lintDocument text v).run r).1.Perm _
      rw [lintDocument_eq_inOrder]
      exact Text.perm_sortBy _ _
    -- of two lists that agree one by one, one may be put in another order if the other one is, too
    obtain ⟨fs, hperm, helsewhere⟩ : (Relation.Comp List.Perm (List.Forall₂ Finding.Elsewhere))
        (r.walked source v) (findings source') := by
      rw [← List.forall₂_comp_perm_eq_perm_comp_forall₂]
      exact ⟨_, hwalked, (hmoved source').symm⟩
    exact ⟨fs, (hmoved source).trans hperm, helsewhere⟩
  · have hlisted : findings text = Finding.inOrder (r.walked text v) :=
      lintDocument_eq_inOrder r text v
    rw [hlisted]
    exact ⟨Finding.pairwise_inOrder _, Finding.filter_inOrder _⟩
  · exact fun files files' paths paths' style style' h => Files.exit_lint h style style'

/-- An input with a linter of its own and the label that an output has, too. Without the text there
is no telling where they stand. A list where an object should be is an error on any line. -/
theorem lintDocument_layout_lost :
    let note : Linter := .report fun p _ => [⟨p, .warning, "mind the gap"⟩]
    let r : Registry := ⟨[.ofConfig "gap" .input "" ((Field.string "" "").linted note)],
      [("later", .output)]⟩
    let v : Value := .object [("input", .object [("label", .string "a"), ("gap", .string "b")]),
      ("output", .object [("label", .string "a"), ("later", .object [])])]
    let source := "input:\n  label: a\n  gap: b\noutput:\n  label: a\n  later: \x7b\x7d\n"
    let findings text := ((lintDocument text v).run r).1
    let exit text := ((Command.lint ["list"] .text).run fun _ => some text).exit
    findings source = [⟨⟨3, 3⟩, .warning, "mind the gap"⟩,
        ⟨⟨5, 3⟩, .error, "Label 'a' collides with a previously defined label at line 2"⟩] ∧
      findings "" = [⟨⟨1, 1⟩, .warning, "mind the gap"⟩,
        ⟨⟨1, 1⟩, .error, "Label 'a' collides with a previously defined label at line 1"⟩] ∧
      (∃ fs, (findings source).Perm fs ∧ List.Forall₂ Finding.Elsewhere fs (findings "")) ∧
      (findings source).countP Finding.isError = (findings "").countP Finding.isError ∧
      exit "[]" = exit "\n\n[]" ∧ exit "[]" = 1 := by
  intro note r v source findings exit
  have hr : ∀ f ∈ r.fields, f.IsPlaceless := by
    have hfields : r.fields = [(Field.string "" "").linted note] := rfl
    intro f hf linter hlinter
    rw [hfields, List.mem_singleton] at hf
    rw [hf] at hlinter
    obtain rfl : note = linter := Option.some.inj hlinter
    exact fun p p' v => rfl
  obtain ⟨hsame, herrors, -, hexit⟩ := lintDocument_layout hr v source ""
  have hlists : List.Forall₂ (Files.HoldSame (fun _ => some "[]") fun _ => some "\n\n[]")
      ["list"] ["list"] := .cons ⟨"[]", "\n\n[]", .array [], rfl, rfl⟩ .nil
  exact ⟨by decide, by decide, hsame, herrors, hexit _ _ _ _ .text .text hlists, by decide⟩

end StreamConfig
