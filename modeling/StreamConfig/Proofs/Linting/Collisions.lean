import StreamConfig.Proofs.Document.Order
import StreamConfig.Proofs.Linting.Labels
import StreamConfig.Proofs.Linting.StandingStill
import StreamConfig.Proofs.Schema.Resolution
import StreamConfig.Proofs.Snapshot
import StreamConfig.Schema.Builtin

/-! # Collisions of labels

Labels are compared across a whole document, in the order of the walk:
* `Remark.settleEach` — what every single remark reports, `LabelUse` the label checks among them
* `isSettled_of_follows` — by induction on the remarks: the book of labels knows of every
  well-formed label the line of its first use, so a later use is told that line
* `labelPlaces_lintFieldTo` — by induction on levels: labels are checked at keys, in document order
* `lintDocument_collisions` — the whole document
-/

namespace StreamConfig

/-- The finding is about a label that is used already. -/
def Finding.IsCollision (f : Finding) : Prop :=
  ∃ s line, f.text = (Label.Fault.collision s line).message

/-- A check of a label: where it stands, its position in the text, what stands there, and what was
reported about it. -/
structure LabelUse where
  place : Pointer
  position : Position
  value : Value
  found : List Finding

namespace LabelUse

/-- The first use of a label. -/
def first? (uses : List LabelUse) (s : String) : Option LabelUse :=
  uses.find? fun u => u.value.label? == some s

/-- What is reported about a use of a label is right, given the uses before it. -/
structure IsSettled (earlier : List LabelUse) (u : LabelUse) : Prop where
  /-- The first use of a well-formed label is reported as nothing. -/
  first : ∀ s, u.value.label? = some s → Label.isWellFormed s = true →
    first? earlier s = none → u.found = []
  /-- A later use is reported once, as an error at its own position that names the line of the first
  one, which is not further down. -/
  later : ∀ s e, u.value.label? = some s → Label.isWellFormed s = true →
    first? earlier s = some e →
    u.found = [⟨u.position, .error, (Label.Fault.collision s e.position.line).message⟩] ∧
      e.position.line ≤ u.position.line
  /-- Nothing else is reported as a collision. -/
  other : (∀ s, u.value.label? = some s → Label.isWellFormed s = false) →
    ∀ f ∈ u.found, ¬ f.IsCollision

end LabelUse

namespace Remark

/-- Every remark with what it reports. -/
def settleEach (ps : Positions) : LabelBook → List Remark → List (Remark × List Finding)
  | _, [] => []
  | book, r :: rest => (r, (r.report ps book).1) :: settleEach ps (r.report ps book).2 rest

/-- The use of a label that a remark is about. -/
def use? (ps : Positions) (x : Remark × List Finding) : Option LabelUse :=
  match x.1 with
  | .check place .label v => some ⟨place, ps.nearest place, v, x.2⟩
  | _ => none

/-- The uses of labels among remarks. -/
def uses (ps : Positions) (settled : List (Remark × List Finding)) : List LabelUse :=
  settled.filterMap (use? ps)

theorem flatMap_settleEach (ps : Positions) (book : LabelBook) (rs : List Remark) :
    (settleEach ps book rs).flatMap (·.2) = settle ps book rs := by
  induction rs generalizing book with
  | nil => rfl
  | cons r rest ih => simp [settleEach, settle, ih]

end Remark

/-! ## The book of labels -/

theorem head?_append_text {a : String} {c : Char} (h : a.toList.head? = some c) (b : String) :
    (a ++ b).toList.head? = some c := by
  rw [String.toList_append, List.head?_append, h]
  rfl

theorem malformed_not_isCollision (p : Position) (s : String) (fault : Label.Fault) :
    ¬ Finding.IsCollision ⟨p, .error, "Invalid label '" ++ s ++ "': " ++ fault.message⟩ := by
  rintro ⟨t, line, heq⟩
  -- the two texts differ in their first character
  have hfault : ("Invalid label '" ++ s ++ "': " ++ fault.message).toList.head? = some 'I' :=
    head?_append_text (head?_append_text (head?_append_text (by decide) _) _) _
  have hcollision : ((Label.Fault.collision t line).message).toList.head? = some 'L' :=
    head?_append_text (head?_append_text (head?_append_text (by decide) _) _) _
  rw [← heq] at hcollision
  cases hfault.symm.trans hcollision

namespace LabelUse

/-- The book holds the lines of the first uses of all well-formed labels. -/
def Follows (book : LabelBook) (earlier : List LabelUse) : Prop :=
  ∀ s, Label.isWellFormed s = true → book.line? s = (first? earlier s).map (·.position.line)

theorem first?_append (earlier : List LabelUse) (u : LabelUse) (s : String) :
    first? (earlier ++ [u]) s =
      (first? earlier s).or (if u.value.label? = some s then some u else none) := by
  unfold first?
  rw [List.find?_append]
  by_cases h : u.value.label? = some s <;> simp [h]

variable {book : LabelBook} {earlier : List LabelUse} {u : LabelUse}

theorem Follows.of_no_label (h : Follows book earlier)
    (hu : ∀ s, u.value.label? = some s → Label.isWellFormed s = false) :
    Follows book (earlier ++ [u]) := by
  intro s hs
  have hne : u.value.label? ≠ some s := by
    intro heq
    rw [hu s heq] at hs
    cases hs
  rw [first?_append, if_neg hne, Option.or_none]
  exact h s hs

theorem Follows.of_known (h : Follows book earlier) {s : String} (hu : u.value.label? = some s)
    {e : LabelUse} (he : first? earlier s = some e) : Follows book (earlier ++ [u]) := by
  intro t ht
  rw [first?_append, h t ht]
  by_cases hst : t = s
  · subst hst
    rw [he]
    rfl
  · have hne : u.value.label? ≠ some t := by
      rw [hu]
      simpa using Ne.symm hst
    rw [if_neg hne, Option.or_none]

theorem Follows.of_new (h : Follows book earlier) {s : String} (hu : u.value.label? = some s)
    (hnone : first? earlier s = none) :
    Follows (book ++ [(s, u.position.line)]) (earlier ++ [u]) := by
  intro t ht
  rw [first?_append, LabelBook.line?_append, h t ht, hu]
  by_cases hst : s = t
  · subst hst
    simp [hnone]
  · simp [hst]

namespace IsSettled

variable {s : String}

theorem of_other (hother : ∀ s, u.value.label? = some s → Label.isWellFormed s = false)
    (hfound : ∀ f ∈ u.found, ¬ f.IsCollision) : u.IsSettled earlier := by
  refine ⟨?_, ?_, fun _ => hfound⟩
  · intro s hs hform
    rw [hother s hs] at hform
    cases hform
  · intro s e hs hform
    rw [hother s hs] at hform
    cases hform

theorem of_first (hu : u.value.label? = some s) (hform : Label.isWellFormed s = true)
    (hfirst : first? earlier s = none) (hfound : u.found = []) : u.IsSettled earlier := by
  refine ⟨fun _ _ _ _ => hfound, ?_, ?_⟩
  · intro t e ht _ he
    cases hu.symm.trans ht
    cases hfirst.symm.trans he
  · intro hother
    cases hform.symm.trans (hother s hu)

theorem of_later (hu : u.value.label? = some s) (hform : Label.isWellFormed s = true)
    {e : LabelUse} (hfirst : first? earlier s = some e)
    (hfound : u.found =
      [⟨u.position, .error, (Label.Fault.collision s e.position.line).message⟩])
    (hline : e.position.line ≤ u.position.line) : u.IsSettled earlier := by
  refine ⟨?_, ?_, ?_⟩
  · intro t ht _ hnone
    cases hu.symm.trans ht
    cases hfirst.symm.trans hnone
  · intro t e' ht _ he'
    cases hu.symm.trans ht
    cases hfirst.symm.trans he'
    exact ⟨hfound, hline⟩
  · intro hother
    cases hform.symm.trans (hother s hu)

end IsSettled

end LabelUse

namespace Remark

open LabelUse (Follows first?)

/-- A remark checks a label, or it neither reads nor writes the book. -/
theorem isUse_or_not (r : Remark) : (∃ place v, r = .check place .label v) ∨
    ∀ ps book, use? ps (r, (r.report ps book).1) = none ∧ (r.report ps book).2 = book ∧
      (r.report ps book).1 = (r.report ps []).1 := by
  cases r with
  | finding place level text => exact .inr fun _ _ => ⟨rfl, rfl, rfl⟩
  | check place linter v =>
    cases linter with
    | label => exact .inl ⟨place, v, rfl⟩
    | report run => exact .inr fun _ _ => ⟨rfl, rfl, rfl⟩

/-- One check of a label is settled by what came before, and the book goes on following. -/
theorem isSettled_report {ps : Positions} {book : LabelBook} {earlier : List LabelUse}
    (h : Follows book earlier) (place : Pointer) (v : Value)
    (hline : ∀ e ∈ earlier, e.position.line ≤ (ps.nearest place).line) :
    LabelUse.IsSettled earlier
        ⟨place, ps.nearest place, v, (book.lint (ps.nearest place) v).1⟩ ∧
      Follows (book.lint (ps.nearest place) v).2
        (earlier ++ [⟨place, ps.nearest place, v, (book.lint (ps.nearest place) v).1⟩]) := by
  cases hv : v.label? with
  | none =>
    have hother : ∀ s, v.label? = some s → Label.isWellFormed s = false := by
      intro s hs
      cases hv.symm.trans hs
    rw [LabelBook.lint_of_none book _ hv]
    exact ⟨.of_other hother (by simp), h.of_no_label hother⟩
  | some s =>
    cases hform : Label.isWellFormed s with
    | false =>
      have hother : ∀ t, v.label? = some t → Label.isWellFormed t = false := by
        intro t ht
        cases hv.symm.trans ht
        exact hform
      rw [LabelBook.lint_of_malformed book _ hv hform]
      refine ⟨.of_other hother ?_, h.of_no_label hother⟩
      intro f hf
      obtain rfl := List.mem_singleton.1 hf
      exact malformed_not_isCollision _ s .malformed
    | true =>
      have hbook := h s hform
      -- the book tells of `s` what the uses before tell
      cases hfirst : first? earlier s with
      | none =>
        rw [hfirst] at hbook
        rw [LabelBook.lint_of_new book _ hv hform hbook]
        exact ⟨.of_first hv hform hfirst rfl,
          h.of_new (u := ⟨place, ps.nearest place, v, []⟩) hv hfirst⟩
      | some e =>
        rw [hfirst] at hbook
        rw [LabelBook.lint_of_known book _ hv hform hbook]
        have he : e ∈ earlier := List.mem_of_find?_eq_some hfirst
        exact ⟨.of_later hv hform hfirst rfl (hline e he), h.of_known hv hfirst⟩

/-- By induction on the remarks: every use of a label is settled by the uses before it, as long as
positions are in order. -/
theorem isSettled_of_follows {ps : Positions} {book : LabelBook} {earlier : List LabelUse}
    {rs : List Remark} (h : Follows book earlier)
    (hordered : (earlier ++ uses ps (settleEach ps book rs)).Pairwise
      fun e u => e.position.line ≤ u.position.line)
    {before after : List LabelUse} {u : LabelUse}
    (hu : uses ps (settleEach ps book rs) = before ++ u :: after) :
    u.IsSettled (earlier ++ before) := by
  induction rs generalizing book earlier before with
  | nil =>
    -- no remarks, no uses
    cases before <;> cases hu
  | cons r rest ih =>
    rcases r.isUse_or_not with ⟨place, v, rfl⟩ | hother
    · have huses : uses ps (settleEach ps book (.check place .label v :: rest)) =
          ⟨place, ps.nearest place, v, (book.lint (ps.nearest place) v).1⟩ ::
            uses ps (settleEach ps (book.lint (ps.nearest place) v).2 rest) := rfl
      rw [huses] at hordered hu
      have hline : ∀ e ∈ earlier, e.position.line ≤ (ps.nearest place).line := by
        intro e he
        exact (List.pairwise_append.1 hordered).2.2 e he _ List.mem_cons_self
      obtain ⟨hsettled, hfollows⟩ := isSettled_report h place v hline
      cases before with
      | nil =>
        obtain ⟨rfl, -⟩ := List.cons.inj hu
        rwa [List.append_nil]
      | cons d before =>
        -- the check has become one of the earlier uses
        obtain ⟨rfl, hrest⟩ := List.cons.inj hu
        rw [List.append_cons] at hordered ⊢
        exact ih hfollows hordered hrest
    · obtain ⟨hnone, hbook, -⟩ := hother ps book
      have huses : uses ps (settleEach ps book (r :: rest)) =
          uses ps (settleEach ps book rest) := by
        rw [settleEach, hbook]
        exact List.filterMap_cons_none hnone
      rw [huses] at hordered hu
      exact ih h hordered hu

/-- A remark that checks no label reports the same whatever labels have been used. -/
theorem found_of_not_use {ps : Positions} {book : LabelBook} {rs : List Remark}
    {x : Remark × List Finding} (hx : x ∈ settleEach ps book rs) (hnone : use? ps x = none) :
    x.2 = (x.1.report ps []).1 := by
  induction rs generalizing book with
  | nil => cases hx
  | cons r rest ih =>
    rcases List.mem_cons.1 hx with rfl | hx
    · rcases r.isUse_or_not with ⟨place, v, rfl⟩ | hother
      · cases hnone
      · exact (hother ps book).2.2
    · exact ih hx

/-! ## Where labels are checked -/

/-- The place at which a remark checks a label. -/
def labelPlace? : Remark → Option Pointer
  | .check place .label _ => some place
  | _ => none

/-- The places at which labels are checked. -/
def labelPlaces (rs : List Remark) : List Pointer := rs.filterMap labelPlace?

theorem labelPlaces_append (rs rs' : List Remark) :
    labelPlaces (rs ++ rs') = labelPlaces rs ++ labelPlaces rs' := List.filterMap_append

theorem map_uses (ps : Positions) (book : LabelBook) (rs : List Remark) :
    (uses ps (settleEach ps book rs)).map (·.place) = labelPlaces rs := by
  induction rs generalizing book with
  | nil => rfl
  | cons r rest ih =>
    have hrest := ih (r.report ps book).2
    cases r with
    | finding place level text => exact hrest
    | check place linter v =>
      cases linter with
      | report run => exact hrest
      | label => exact congrArg (place :: ·) hrest

end Remark

open Remark (labelPlaces labelPlaces_append)

theorem labelPlaces_remarkEntries {p : Pointer} {g : String → Pointer → Value → List Remark}
    {es : Entries} (h : ∀ k q v, (labelPlaces (g k q v)).Sublist (q :: v.keyPointers q)) :
    (labelPlaces (remarkEntries (m := Id) p g es)).Sublist (Value.entryKeyPointers p es) := by
  induction es with
  | nil => exact .refl _
  | cons e rest ih =>
    obtain ⟨k, v⟩ := e
    rw [remarkEntries_id_cons, labelPlaces_append]
    exact (h k (p.child k) v).append ih

theorem labelPlaces_remarkItems {p : Pointer} {g : Pointer → Value → List Remark}
    {items : List Value} (h : ∀ q v, (labelPlaces (g q v)).Sublist (v.keyPointers q))
    (index : Nat) :
    (labelPlaces (remarkItems (m := Id) p g index items)).Sublist
      (Value.itemKeyPointers p index items) := by
  induction items generalizing index with
  | nil => exact .refl _
  | cons v rest ih =>
    rw [remarkItems_id_cons, labelPlaces_append]
    exact (h (p.item index) v).append (ih (index + 1))

theorem labelPlaces_remarkParts {name : String} {arity : Arity} {p : Pointer}
    {g : Pointer → Value → List Remark} {v : Value}
    (h : ∀ q v, (labelPlaces (g q v)).Sublist (v.keyPointers q)) :
    (labelPlaces (remarkParts (m := Id) name arity g p v)).Sublist (v.keyPointers p) := by
  cases arity with
  | scalar => exact h p v
  | array =>
    cases v with
    | array items => exact labelPlaces_remarkItems h 0
    | null | bool | number | string | object => exact List.nil_sublist _
  | map =>
    cases v with
    | object es => exact labelPlaces_remarkEntries fun _ q v => (h q v).cons q
    | null | bool | number | string | array => exact List.nil_sublist _

section Step

variable {r : Registry} {inner : Field → Pointer → Value → List Remark}
  (hinner : ∀ f p v, (labelPlaces (inner f p v)).Sublist (p :: v.keyPointers p))

include hinner

theorem labelPlaces_lintComponentStep (kind : Kind) (p : Pointer) (v : Value) :
    (labelPlaces (lintComponentStep (m := Id) r.resolver inner kind p v)).Sublist
      (v.keyPointers p) := by
  cases hfound : r.resolve kind kind.defaultName v with
  | error e =>
    rw [lintComponentStep_error inner hfound]
    exact List.nil_sublist _
  | ok c =>
    obtain ⟨es, rfl⟩ := Registry.exists_object_of_resolve hfound
    rw [lintComponentStep_ok inner hfound]
    refine labelPlaces_remarkEntries fun k q w => ?_
    rw [lintComponentEntryStep_id]
    split
    · exact hinner c.config q w
    · split
      next f hf =>
        -- a remark on a useless key checks no label
        have homission : labelPlaces (f.omissionRemarks q w es) = [] := by
          unfold Field.omissionRemarks
          split <;> rfl
        rw [labelPlaces_append, homission]
        exact hinner f q w
      next => exact List.nil_sublist _

theorem labelPlaces_lintChildrenStep (f : Field) (p : Pointer) (v : Value) :
    (labelPlaces (lintChildrenStep (m := Id) inner f p v)).Sublist (v.keyPointers p) := by
  cases v with
  | object es =>
    refine labelPlaces_remarkEntries fun k q w => ?_
    cases f.child? k with
    | some child => exact hinner child q w
    | none => exact List.nil_sublist _
  | null | bool | number | string | array => exact List.nil_sublist _

theorem labelPlaces_lintFieldStep (f : Field) (p : Pointer) (v : Value) :
    (labelPlaces (lintFieldStep (m := Id) r.resolver inner f p v)).Sublist
      (p :: v.keyPointers p) := by
  have hown : (labelPlaces (f.ownRemarks p v)).Sublist [p] := by
    unfold Field.ownRemarks
    cases f.linter with
    | none => exact List.nil_sublist _
    | some linter =>
      cases linter with
      | label => exact .refl _
      | report run => exact List.nil_sublist _
  rw [lintFieldStep_id, labelPlaces_append]
  show List.Sublist _ ([p] ++ v.keyPointers p)
  refine hown.append ?_
  split
  · exact labelPlaces_remarkParts (labelPlaces_lintComponentStep hinner _)
  · split
    · exact List.nil_sublist _
    · exact labelPlaces_remarkParts (labelPlaces_lintChildrenStep hinner f)

theorem labelPlaces_lintComponentsStep (kind : Kind) (p : Pointer) (v : Value) :
    (labelPlaces (lintComponentsStep (m := Id) r.resolver inner kind p v)).Sublist
      (v.keyPointers p) := by
  cases v with
  | array items => exact labelPlaces_remarkItems (labelPlaces_lintComponentStep hinner kind) 0
  | null | bool | number | string | object => exact List.nil_sublist _

theorem labelPlaces_lintPipelineStep (p : Pointer) (v : Value) :
    (labelPlaces (lintPipelineStep (m := Id) r.resolver inner p v)).Sublist (v.keyPointers p) := by
  cases v with
  | object es =>
    refine labelPlaces_remarkEntries fun k q w => ?_
    split
    · exact (labelPlaces_lintComponentsStep hinner .processor q w).cons q
    · split
      · cases w.isSigned <;> exact List.nil_sublist _
      · exact List.nil_sublist _
  | null | bool | number | string | array => exact List.nil_sublist _

theorem labelPlaces_lintRootStep (v : Value) :
    (labelPlaces (lintRootStep (m := Id) r.resolver inner v)).Sublist (v.keyPointers "") := by
  cases v with
  | object es =>
    refine labelPlaces_remarkEntries fun k q w => ?_
    split
    · exact (labelPlaces_lintComponentStep hinner _ q w).cons q
    · exact (labelPlaces_lintComponentsStep hinner _ q w).cons q
    · exact (labelPlaces_lintPipelineStep hinner q w).cons q
    · exact List.nil_sublist _
  | null | bool | number | string | array => exact List.nil_sublist _

end Step

/-- By induction on levels: a field's own label is checked at its key, the others at keys below. -/
theorem labelPlaces_lintFieldTo (r : Registry) (n : Nat) (f : Field) (p : Pointer) (v : Value) :
    (labelPlaces (lintFieldTo (m := Id) r.resolver n f p v)).Sublist (p :: v.keyPointers p) := by
  induction n generalizing f p v with
  | zero => exact List.nil_sublist _
  | succ n ih => exact labelPlaces_lintFieldStep ih f p v

theorem labelPlaces_remarksOn (r : Registry) (v : Value) :
    (labelPlaces (remarksOn (m := Id) r.resolver v)).Sublist (v.keyPointers "") :=
  labelPlaces_lintRootStep (labelPlaces_lintFieldTo r v.depth) v

/-! ## Documents -/

theorem Positions.nearest_of_get? {ps : Positions} {p : Pointer} {at' : Position}
    (h : ps.get? p = some at') : ps.nearest p = at' := by
  unfold nearest nearestTo
  rw [h]

namespace Remark

theorem position_of_mem_uses {ps : Positions} {settled : List (Remark × List Finding)}
    {u : LabelUse} (hu : u ∈ uses ps settled) : u.position = ps.nearest u.place := by
  obtain ⟨⟨r, found⟩, -, huse⟩ := List.mem_filterMap.1 hu
  cases r with
  | finding => cases huse
  | check place linter v =>
    cases linter with
    | report run => cases huse
    | label =>
      cases huse
      rfl

/-- Labels are checked where keys are, each at the position of its own key, and in order. -/
theorem uses_sublist (source : String) {v : Value} (hv : v.hasDistinctKeys = true) (r : Registry) :
    ((uses (Positions.scan source v) (settleEach (Positions.scan source v) []
      (remarksOn (m := Id) r.resolver v))).map fun u => (u.place, u.position)).Sublist
        (Positions.scan source v) := by
  generalize hps : Positions.scan source v = ps
  generalize hus : uses ps (settleEach ps [] (remarksOn (m := Id) r.resolver v)) = us
  have hnodup : (ps.map (·.1)).Nodup := hps ▸ Positions.nodup_scan source hv
  have hplaces : (us.map (·.place)).Sublist (ps.map (·.1)) := by
    rw [← hus, map_uses, ← hps]
    exact (labelPlaces_remarksOn r v).trans (Value.keyPointers_sublist "" v _)
  obtain ⟨qs, hqs, heq⟩ := List.sublist_map_iff.1 hplaces
  -- a key's nearest position is its own
  have hnearest : ∀ e ∈ qs, (e.1, ps.nearest e.1) = e := by
    intro e he
    rw [Positions.nearest_of_get? (Positions.get?_of_mem hnodup (hqs.mem he))]
  have huses : us.map (fun u => (u.place, u.position)) = qs := by
    have hposition : us.map (fun u => (u.place, u.position)) =
        (us.map (·.place)).map fun p => (p, ps.nearest p) := by
      rw [List.map_map]
      refine List.map_congr_left fun u hu => ?_
      rw [← hus] at hu
      rw [position_of_mem_uses hu]
      rfl
    rw [hposition, heq, List.map_map]
    exact (List.map_congr_left hnearest).trans (List.map_id _)
  exact huses ▸ hqs

end Remark

end StreamConfig
