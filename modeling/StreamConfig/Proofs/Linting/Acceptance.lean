import StreamConfig.Proofs.Linting.Conformance
import StreamConfig.Proofs.Linting.LabelRuns
import StreamConfig.Proofs.Linting.StandingStill
import StreamConfig.Proofs.Schema.Resolution
import StreamConfig.Proofs.Snapshot
import StreamConfig.Proofs.Value.Depth
import StreamConfig.Schema.Builtin

/-! # Linting accepts exactly the conforming documents

The remarks on a value are *clear* if none of them is a finding of its own; what is left of them is
the list of labels that they bring up. What the rules write out is what the linter goes by
(`Section.ofName?_eq_some_iff`, `Kind.defaultName_eq`, `Value.isSigned_iff`), so each step of the
walk, over a registry that stands still, is clear exactly if the value conforms by the rule for that
step, with the same labels:
* `clear_remarkEntries_iff`, `clear_remarkItems_iff`, `clear_remarkParts_iff` — the traversals
* `clear_lintComponentStep_iff`, `clear_lintFieldStep_iff`, … — one step, given the levels below
* `clear_lintFieldTo_iff` — any number of levels, by induction on it
* `lintDocument_eq_nil_iff` — the whole document, with the labels judged at the end
-/

namespace StreamConfig

namespace Remark

/-- The remarks report nothing of their own, and these are the labels that they bring up. -/
def Clear (ps : Positions) (rs : List Remark) (ls : List String) : Prop :=
  (∀ x ∈ rs, x.IsQuiet ps) ∧ labels rs = ls

variable {ps : Positions}

theorem clear_nil {ls : List String} : Clear ps [] ls ↔ ls = [] := by
  simp [Clear, labels, eq_comm]

theorem clear_append {rs rs' : List Remark} {ls : List String} :
    Clear ps (rs ++ rs') ls ↔ ∃ here there, Clear ps rs here ∧ Clear ps rs' there ∧
      ls = here ++ there := by
  constructor
  · rintro ⟨hquiet, rfl⟩
    refine ⟨labels rs, labels rs', ⟨fun x hx => ?_, rfl⟩, ⟨fun x hx => ?_, rfl⟩,
      List.filterMap_append⟩
    · exact hquiet x (List.mem_append_left _ hx)
    · exact hquiet x (List.mem_append_right _ hx)
  · rintro ⟨_, _, ⟨hquiet, rfl⟩, ⟨hquiet', rfl⟩, rfl⟩
    refine ⟨fun x hx => ?_, List.filterMap_append⟩
    rcases List.mem_append.1 hx with hx | hx
    · exact hquiet x hx
    · exact hquiet' x hx

/-- A finding is never clear. -/
theorem not_clear_finding {place : Pointer} {level : Level} {text : String} {ls : List String} :
    ¬ Clear ps [.finding place level text] ls := fun h => h.1 _ List.mem_cons_self

end Remark

/-! ## What the rules write out -/

theorem isSection_of_mem_table : ∀ e ∈ Section.table, IsSection e.1 e.2 := by
  intro e he
  simp only [Section.table, List.mem_cons, List.not_mem_nil, or_false] at he
  rcases he with rfl | rfl | rfl | rfl | rfl | rfl | rfl | rfl | rfl | rfl | rfl
  · exact @IsSection.component .input (by decide)
  · exact @IsSection.component .buffer (by decide)
  · exact @IsSection.component .output (by decide)
  · exact @IsSection.component .metrics (by decide)
  · exact @IsSection.component .tracer (by decide)
  · exact @IsSection.components .input (by decide)
  · exact @IsSection.components .processor (by decide)
  · exact @IsSection.components .output (by decide)
  · exact @IsSection.components .cache (by decide)
  · exact @IsSection.components .rateLimit (by decide)
  · exact .pipeline

theorem Section.ofName?_eq_some_iff {k : String} {s : Section} :
    ofName? k = some s ↔ IsSection k s := by
  constructor
  · intro h
    obtain ⟨⟨name, s⟩, hfind, rfl⟩ := Option.map_eq_some_iff.1 h
    obtain rfl : name = k := by simpa using List.find?_some hfind
    exact isSection_of_mem_table (name, s) (List.mem_of_find?_eq_some hfind)
  · rintro (@⟨kind, hkind⟩ | @⟨kind, hkind⟩ | _)
    · cases kind <;> first | decide | exact absurd hkind (by decide)
    · cases kind <;> first | decide | exact absurd hkind (by decide)
    · decide

theorem Kind.defaultName_eq (kind : Kind) :
    kind.defaultName = if kind ∈ [.buffer, .metrics, .tracer] then "none" else "" := by
  cases kind <;> rfl

theorem Value.isSigned_iff {v : Value} :
    v.isSigned = true ↔ ∃ n : Int, -9223372036854775808 ≤ n ∧ n ≤ 9223372036854775807 ∧
      v = .number (.int n) := by
  have hint : ∀ n : Int, Number.isSigned (.int n) = true ↔
      -9223372036854775808 ≤ n ∧ n ≤ 9223372036854775807 := by
    intro n
    rw [Number.isSigned, Bool.and_eq_true, decide_eq_true_iff, decide_eq_true_iff]
    unfold Number.minSigned Number.maxSigned
    omega
  cases v with
  | number n =>
    cases n with
    | int n =>
      refine (hint n).trans ⟨fun ⟨hmin, hmax⟩ => ⟨n, hmin, hmax, rfl⟩, ?_⟩
      rintro ⟨_, hmin, hmax, ⟨⟩⟩
      exact ⟨hmin, hmax⟩
    | double x => simp [isSigned, Number.isSigned]
  | null | bool | string | array | object => simp [isSigned]

open Remark (Clear)

variable {r : Registry} {ps : Positions}

/-- Entries are clear if each one is, by the rule for them. -/
theorem clear_remarkEntries_iff (rule : EntryRule) {p : Pointer}
    {g : String → Pointer → Value → List Remark} {es : Entries}
    (h : ∀ e ∈ es, ∀ ls, Clear ps (g e.1 (p.child e.1) e.2) ls ↔
      EntryConforms r ps rule e.1 (p.child e.1) e.2 ls) (ls : List String) :
    Clear ps (remarkEntries (m := Id) p g es) ls ↔ EntriesConform r ps rule p es ls := by
  induction es generalizing ls with
  | nil =>
    refine Remark.clear_nil.trans ⟨?_, ?_⟩
    · rintro rfl
      exact .nil
    · rintro ⟨⟩
      rfl
  | cons e rest ih =>
    obtain ⟨k, v⟩ := e
    have hrest := ih fun e he => h e (List.mem_cons_of_mem _ he)
    have hhere := h (k, v) List.mem_cons_self
    rw [remarkEntries_id_cons, Remark.clear_append]
    constructor
    · rintro ⟨here, there, hclear, hclear', rfl⟩
      exact .cons ((hhere here).1 hclear) ((hrest there).1 hclear')
    · rintro ⟨⟩
      next here there hconforms hconforms' =>
        exact ⟨here, there, (hhere here).2 hconforms, (hrest there).2 hconforms', rfl⟩

/-- Items are clear if each one meets the demand. -/
theorem clear_remarkItems_iff {demand : Demand} {p : Pointer} {g : Pointer → Value → List Remark}
    {items : List Value}
    (h : ∀ v ∈ items, ∀ q ls, Clear ps (g q v) ls ↔ DemandMet r ps demand q v ls) (index : Nat)
    (ls : List String) :
    Clear ps (remarkItems (m := Id) p g index items) ls ↔
      ItemsConform r ps demand p index items ls := by
  induction items generalizing index ls with
  | nil =>
    refine Remark.clear_nil.trans ⟨?_, ?_⟩
    · rintro rfl
      exact .nil
    · rintro ⟨⟩
      rfl
  | cons v rest ih =>
    have hrest := ih fun w hw => h w (List.mem_cons_of_mem _ hw)
    have hhere := h v List.mem_cons_self
    rw [remarkItems_id_cons, Remark.clear_append]
    constructor
    · rintro ⟨here, there, hclear, hclear', rfl⟩
      exact .cons ((hhere _ here).1 hclear) ((hrest _ there).1 hclear')
    · rintro ⟨⟩
      next here there hmet hconforms =>
        exact ⟨here, there, (hhere _ here).2 hmet, (hrest _ there).2 hconforms, rfl⟩

theorem clear_remarkParts_iff {demand : Demand} {name : String} {arity : Arity} {p : Pointer}
    {g : Pointer → Value → List Remark} {v : Value} {n : Nat}
    (h : ∀ w : Value, w.depth ≤ n → ∀ q ls, Clear ps (g q w) ls ↔ DemandMet r ps demand q w ls)
    (hv : v.depth ≤ n) (ls : List String) :
    Clear ps (remarkParts (m := Id) name arity g p v) ls ↔
      PartsConform r ps arity demand p v ls := by
  cases arity with
  | scalar =>
    refine (h v hv p ls).trans ⟨.scalar, ?_⟩
    rintro ⟨⟩
    assumption
  | array =>
    cases v with
    | array items =>
      have hitems := clear_remarkItems_iff (p := p) (fun (w : Value) (hw : w ∈ items) => h w (by
        have := Value.depth_lt_of_mem_array hw
        omega)) 0 ls
      refine hitems.trans ⟨.array, ?_⟩
      rintro ⟨⟩
      assumption
    | null | bool | number | string | object =>
      refine iff_of_false Remark.not_clear_finding ?_
      rintro ⟨⟩
  | map =>
    cases v with
    | object es =>
      have hentries := clear_remarkEntries_iff (r := r) (.parts demand) (p := p)
        (g := fun _ => g) (fun e (he : e ∈ es) ls => by
          have hdepth := Value.depth_lt_of_mem_object he
          refine (h e.2 (by omega) _ ls).trans ⟨.part, ?_⟩
          rintro ⟨⟩
          assumption) ls
      refine hentries.trans ⟨.map, ?_⟩
      rintro ⟨⟩
      assumption
    | null | bool | number | string | array =>
      refine iff_of_false Remark.not_clear_finding ?_
      rintro ⟨⟩

section Step

variable {inner : Field → Pointer → Value → List Remark} {n : Nat}
  (hinner : ∀ f p (v : Value), v.depth < n →
    ∀ ls, Clear ps (inner f p v) ls ↔ FieldConforms r ps f p v ls)

include hinner

theorem clear_lintComponentEntryStep_iff {c : Component} {kind : Kind} {es : Entries} {k : String}
    {p : Pointer} {v : Value} (hv : v.depth < n) (ls : List String) :
    Clear ps (lintComponentEntryStep (m := Id) inner c kind es k p v) ls ↔
      EntryConforms r ps (.block kind c es) k p v ls := by
  rw [lintComponentEntryStep_id]
  by_cases hk : k = c.name
  · subst hk
    -- the component's own key comes first
    rw [if_pos rfl]
    refine (hinner c.config p v hv ls).trans ⟨.own, ?_⟩
    rintro (_ | _ | _ | hconforms | ⟨hne, -, -, -⟩)
    · exact hconforms
    · exact absurd rfl hne
  · rw [if_neg hk]
    cases hreserved : kind.reserved? k with
    | none =>
      refine iff_of_false Remark.not_clear_finding ?_
      rintro (_ | _ | _ | _ | ⟨-, hsome, -, -⟩)
      · exact hk rfl
      · rw [hreserved] at hsome
        cases hsome
    | some f =>
      dsimp only
      unfold Field.omissionRemarks
      cases hreason : f.omissionReason? v es with
      | some reason =>
        refine iff_of_false (fun h => ?_) ?_
        · obtain ⟨here, -, hclear, -, -⟩ := Remark.clear_append.1 h
          exact Remark.not_clear_finding hclear
        · rintro (_ | _ | _ | _ | ⟨-, hsome, hnone, -⟩)
          · exact hk rfl
          · rw [hreserved] at hsome
            cases hsome
            rw [hreason] at hnone
            cases hnone
      | none =>
        refine (hinner f p v hv ls).trans ⟨.reserved hk hreserved hreason, ?_⟩
        rintro (_ | _ | _ | _ | ⟨-, hsome, -, hconforms⟩)
        · exact absurd rfl hk
        · rw [hreserved] at hsome
          cases hsome
          exact hconforms

/-- A block is clear exactly if it conforms to its kind. -/
theorem clear_lintComponentStep_iff {kind : Kind} {p : Pointer} {v : Value} (hv : v.depth ≤ n)
    (ls : List String) :
    Clear ps (lintComponentStep (m := Id) r.resolver inner kind p v) ls ↔
      DemandMet r ps (.block kind) p v ls := by
  cases hfound : r.resolve kind kind.defaultName v with
  | error e =>
    -- a block that denotes nothing leaves an error, and conforms to no kind
    rw [lintComponentStep_error inner hfound]
    refine iff_of_false Remark.not_clear_finding ?_
    rintro ⟨hok, -⟩
    rw [Kind.defaultName_eq, hok] at hfound
    cases hfound
  | ok c =>
    obtain ⟨es, rfl⟩ := Registry.exists_object_of_resolve hfound
    rw [lintComponentStep_ok inner hfound]
    have hentries := clear_remarkEntries_iff (.block kind c es) (p := p) (fun e (he : e ∈ es) ls =>
      clear_lintComponentEntryStep_iff hinner (k := e.1) (p := p.child e.1)
        (Nat.lt_of_lt_of_le (Value.depth_lt_of_mem_object he) hv) ls) ls
    rw [Kind.defaultName_eq] at hfound
    refine hentries.trans ⟨.block hfound, ?_⟩
    rintro ⟨hok, hconforms⟩
    rw [hfound] at hok
    cases hok
    exact hconforms

/-- An object with known fields is clear exactly if its entries conform to the fields. -/
theorem clear_lintChildrenStep_iff {f : Field} {p : Pointer} {v : Value} (hv : v.depth ≤ n)
    (ls : List String) :
    Clear ps (lintChildrenStep (m := Id) inner f p v) ls ↔
      DemandMet r ps (.object f.children) p v ls := by
  cases v with
  | object es =>
    refine (clear_remarkEntries_iff (.known f.children) (fun e he ls => ?_) ls).trans
      ⟨.object, ?_⟩
    · have hdepth := Value.depth_lt_of_mem_object he
      cases hchild : f.child? e.1 with
      | none =>
        refine iff_of_false Remark.not_clear_finding ?_
        rintro (_ | _ | _ | _ | _ | ⟨hsome, -⟩)
        have : f.child? e.1 = _ := hsome
        rw [hchild] at this
        cases this
      | some child =>
        refine (hinner child _ e.2 (by omega) ls).trans ⟨.known hchild, ?_⟩
        rintro (_ | _ | _ | _ | _ | ⟨hsome, hconforms⟩)
        have : f.child? e.1 = _ := hsome
        rw [hchild] at this
        cases this
        exact hconforms
    · rintro ⟨⟩
      assumption
  | null | bool | number | string | array =>
    refine iff_of_false Remark.not_clear_finding ?_
    rintro ⟨⟩

omit hinner in
theorem clear_ownRemarks_iff {f : Field} {p : Pointer} {v : Value} {ls : List String} :
    Clear ps (f.ownRemarks p v) ls ↔ f.IsQuiet ps p v ∧ ls = f.ownLabels v := by
  unfold Field.ownRemarks Field.IsQuiet Field.ownLabels
  cases f.linter with
  | none => simp [Remark.clear_nil]
  | some linter =>
    cases linter with
    | report run =>
      constructor
      · rintro ⟨hquiet, rfl⟩
        refine ⟨fun run' hrun => ?_, rfl⟩
        cases hrun
        exact hquiet _ List.mem_cons_self
      · rintro ⟨hquiet, rfl⟩
        refine ⟨fun x hx => ?_, rfl⟩
        obtain rfl := List.mem_singleton.1 hx
        exact hquiet run rfl
    | label =>
      have hlabels : Remark.labels [.check p .label v] = v.label?.toList := by
        unfold Remark.labels
        cases hv : v.label? with
        | none => exact List.filterMap_cons_none hv
        | some s => exact List.filterMap_cons_some hv
      constructor
      · rintro ⟨-, rfl⟩
        refine ⟨fun _ hrun => ?_, hlabels⟩
        cases hrun
      · rintro ⟨-, rfl⟩
        refine ⟨fun x hx => ?_, hlabels⟩
        obtain rfl := List.mem_singleton.1 hx
        trivial

/-- What a field holds is clear exactly if it conforms to the field. -/
theorem clear_lintFieldStep_iff {f : Field} {p : Pointer} {v : Value} (hv : v.depth ≤ n)
    (ls : List String) :
    Clear ps (lintFieldStep (m := Id) r.resolver inner f p v) ls ↔ FieldConforms r ps f p v ls := by
  -- the field's own remark, then the remarks on its parts, whichever the demand is
  have hbound : ∀ {demand : Demand} {rs : List Remark}, f.demand? = some demand →
      (∀ there, Clear ps rs there ↔ PartsConform r ps f.arity demand p v there) →
      (Clear ps (f.ownRemarks p v ++ rs) ls ↔ FieldConforms r ps f p v ls) := by
    intro demand rs hdemand hrs
    refine Remark.clear_append.trans ⟨?_, ?_⟩
    · rintro ⟨here, there, hclear, hclear', rfl⟩
      obtain ⟨hquiet, rfl⟩ := clear_ownRemarks_iff.1 hclear
      exact .bound hquiet hdemand ((hrs there).1 hclear')
    · rintro (⟨-, hnone⟩ | ⟨hquiet, hsome, hconform⟩)
      · rw [hdemand] at hnone
        cases hnone
      · rw [hdemand] at hsome
        cases hsome
        exact ⟨_, _, clear_ownRemarks_iff.2 ⟨hquiet, rfl⟩, (hrs _).2 hconform, rfl⟩
  rw [lintFieldStep_id]
  cases hkind : f.type.kind? with
  | some kind =>
    refine hbound (by rw [Field.demand?, hkind]) fun there => ?_
    exact clear_remarkParts_iff (fun w hw q ls => clear_lintComponentStep_iff hinner hw ls) hv there
  | none =>
    dsimp only
    split
    next hempty =>
      -- a field without a kind and without fields demands nothing
      have hdemand : f.demand? = none := by rw [Field.demand?, hkind]; exact if_pos hempty
      rw [List.append_nil]
      refine clear_ownRemarks_iff.trans ⟨?_, ?_⟩
      · rintro ⟨hquiet, rfl⟩
        exact .free hquiet hdemand
      · rintro (⟨hquiet, -⟩ | ⟨-, hsome, -⟩)
        · exact ⟨hquiet, rfl⟩
        · rw [hdemand] at hsome
          cases hsome
    next hchildren =>
      refine hbound (by rw [Field.demand?, hkind]; exact if_neg hchildren) ?_
      exact clear_remarkParts_iff (fun w hw q ls => clear_lintChildrenStep_iff hinner hw ls) hv

/-! ## Sections -/

theorem clear_lintComponentsStep_iff {kind : Kind} {p : Pointer} {v : Value} (hv : v.depth ≤ n)
    (ls : List String) :
    Clear ps (lintComponentsStep (m := Id) r.resolver inner kind p v) ls ↔
      SectionConforms r ps (.components kind) p v ls := by
  cases v with
  | array items =>
    refine (clear_remarkItems_iff (p := p) (fun w hw q ls => ?_) 0 ls).trans ⟨.components, ?_⟩
    · have hdepth := Value.depth_lt_of_mem_array hw
      exact clear_lintComponentStep_iff hinner (by omega) ls
    · rintro ⟨⟩
      assumption
  | null | bool | number | string | object =>
    refine iff_of_false Remark.not_clear_finding ?_
    rintro ⟨⟩

theorem clear_lintPipelineStep_iff {p : Pointer} {v : Value} (hv : v.depth ≤ n)
    (ls : List String) :
    Clear ps (lintPipelineStep (m := Id) r.resolver inner p v) ls ↔
      SectionConforms r ps .pipeline p v ls := by
  cases v with
  | object es =>
    refine (clear_remarkEntries_iff .pipeline (fun e he ls => ?_) ls).trans
      ⟨.pipeline, ?_⟩
    · have hdepth := Value.depth_lt_of_mem_object he
      obtain ⟨k, w⟩ := e
      dsimp only at hdepth ⊢
      split
      next hk =>
        obtain rfl := beq_iff_eq.1 hk
        refine (clear_lintComponentsStep_iff hinner (by omega) ls).trans ⟨.processors rfl, ?_⟩
        rintro (_ | ⟨-, hconforms⟩ | ⟨hk, -⟩)
        · exact hconforms
        · exact absurd hk (by decide)
      next hprocessors =>
        split
        next hk =>
          obtain rfl := beq_iff_eq.1 hk
          cases hsigned : w.isSigned with
          | true =>
            obtain ⟨n, hmin, hmax, rfl⟩ := Value.isSigned_iff.1 hsigned
            refine Remark.clear_nil.trans ⟨?_, ?_⟩
            · rintro rfl
              exact .threads rfl hmin hmax
            · rintro (_ | ⟨hk, -⟩ | _)
              · exact absurd hk (by decide)
              · rfl
          | false =>
            refine iff_of_false Remark.not_clear_finding ?_
            rintro (_ | ⟨hk, -⟩ | ⟨-, hmin, hmax⟩)
            · exact absurd hk (by decide)
            · rw [Value.isSigned_iff.2 ⟨_, hmin, hmax, rfl⟩] at hsigned
              cases hsigned
        next hthreads =>
          refine iff_of_false Remark.not_clear_finding ?_
          rintro (_ | ⟨hk, -⟩ | ⟨hk, -⟩)
          · exact hprocessors (beq_iff_eq.2 hk)
          · exact hthreads (beq_iff_eq.2 hk)
    · rintro ⟨⟩
      assumption
  | null | bool | number | string | array =>
    refine iff_of_false Remark.not_clear_finding ?_
    rintro ⟨⟩

/-- A document is clear exactly if it conforms. -/
theorem clear_lintRootStep_iff {v : Value} (hv : v.depth ≤ n) (ls : List String) :
    Clear ps (lintRootStep (m := Id) r.resolver inner v) ls ↔ DocumentConforms r ps v ls := by
  cases v with
  | object es =>
    refine (clear_remarkEntries_iff .root (fun e he ls => ?_) ls).trans ⟨.sections, ?_⟩
    · have hdepth := Value.depth_lt_of_mem_object he
      cases hsection : Section.ofName? e.1 with
      | none =>
        refine iff_of_false Remark.not_clear_finding ?_
        rintro ⟨hsome, -⟩
        rw [Section.ofName?_eq_some_iff.2 hsome] at hsection
        cases hsection
      | some s =>
        have hconforms : SectionConforms r ps s (Pointer.child "" e.1) e.2 ls ↔
            EntryConforms r ps .root e.1 (Pointer.child "" e.1) e.2 ls := by
          refine ⟨.section (Section.ofName?_eq_some_iff.1 hsection), ?_⟩
          rintro ⟨hsome, hconforms⟩
          rw [Section.ofName?_eq_some_iff.2 hsome] at hsection
          cases hsection
          exact hconforms
        rw [← hconforms]
        cases s with
        | component kind =>
          refine (clear_lintComponentStep_iff hinner (by omega) ls).trans ⟨.component, ?_⟩
          rintro ⟨⟩
          assumption
        | components kind => exact clear_lintComponentsStep_iff hinner (by omega) ls
        | pipeline => exact clear_lintPipelineStep_iff hinner (by omega) ls
    · rintro ⟨⟩
      assumption
  | null | bool | number | string | array =>
    refine iff_of_false Remark.not_clear_finding ?_
    rintro ⟨⟩

end Step

/-- By induction on levels: what a field holds is clear exactly if it conforms to the field. -/
theorem clear_lintFieldTo_iff {n : Nat} {f : Field} {p : Pointer} {v : Value} (hv : v.depth < n)
    (ls : List String) :
    Clear ps (lintFieldTo (m := Id) r.resolver n f p v) ls ↔ FieldConforms r ps f p v ls := by
  induction n generalizing f p v ls with
  | zero => omega
  | succ n ih => exact clear_lintFieldStep_iff (fun f p v hv ls => ih hv ls) (by omega) ls

/-- Linting finds nothing exactly if the document conforms to what the refreshed registry knows, and
its labels are well formed and all different. -/
theorem lintDocument_eq_nil_iff (source : String) (v : Value) (r : Registry) :
    ((lintDocument source v).run r).1 = [] ↔
      ∃ labels, DocumentConforms r.refreshed (Positions.scan source v) v labels ∧
        labels.Nodup ∧ ∀ label ∈ labels, Label.HasForm label := by
  have hremarks : ∀ ls, Clear (Positions.scan source v)
      (remarksOn (m := Id) r.refreshed.resolver v) ls ↔
      DocumentConforms r.refreshed (Positions.scan source v) v ls :=
    clear_lintRootStep_iff (fun f p w hw ls => clear_lintFieldTo_iff hw ls) (Nat.le_refl _)
  rw [(Snapshot.lintDocument source v r).1]
  dsimp only
  -- putting findings in order takes none away
  rw [← List.length_eq_zero_iff, Finding.inOrder, Text.length_sortBy, List.length_eq_zero_iff,
    Remark.settle_eq_nil_iff]
  constructor
  · rintro ⟨hquiet, hnodup, hform⟩
    refine ⟨_, (hremarks _).1 ⟨hquiet, rfl⟩, hnodup, fun s hs => ?_⟩
    exact (Label.isWellFormed_iff s).1 (hform s hs).1
  · rintro ⟨labels, hconforms, hnodup, hform⟩
    obtain ⟨hquiet, rfl⟩ := (hremarks labels).2 hconforms
    exact ⟨hquiet, hnodup, fun s hs => ⟨(Label.isWellFormed_iff s).2 (hform s hs), rfl⟩⟩

/-- Documents on the built-in components. A buffer, metrics and a tracer may be left blank, an input
may not; there is a greatest number of threads; and labels may stand in a component and in its
processors as long as they differ. -/
theorem lintDocument_eq_nil_iff_blank :
    let conforms (v : Value) : Prop := ∃ labels,
      DocumentConforms Builtin.registry.refreshed (Positions.scan "" v) v labels ∧
        labels.Nodup ∧ ∀ label ∈ labels, Label.HasForm label
    let threads (n : Int) : Value :=
      .object [("pipeline", .object [("threads", .number (.int n)), ("processors", .array [])])]
    let labelled (a b : String) : Value :=
      .object [("input", .object [("label", .string a), ("stdin", .object []),
        ("type", .string "stdin"), ("processors",
          .array [.object [("noop", .object []), ("label", .string b), ("plugin", .object [])]])])]
    (conforms (.object [("buffer", .object []), ("metrics", .object []), ("tracer", .object [])]) ∧
        ¬ conforms (.object [("input", .object [])])) ∧
      (conforms (threads 9223372036854775807) ∧ ¬ conforms (threads 9223372036854775808)) ∧
      conforms (labelled "a" "b") ∧ ¬ conforms (labelled "a" "a") ∧
        ¬ conforms (labelled "a" "_") := by
  intro conforms threads labelled
  have hiff : ∀ v, ((lintDocument "" v).run Builtin.registry).1 = [] ↔ conforms v := fun v =>
    lintDocument_eq_nil_iff "" v Builtin.registry
  refine ⟨⟨(hiff _).1 (by decide), ?_⟩, ⟨(hiff _).1 (by decide), ?_⟩, (hiff _).1 (by decide),
    ?_, ?_⟩
  all_goals
    rw [← hiff]
    decide

end StreamConfig
