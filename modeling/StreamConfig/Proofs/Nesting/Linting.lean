import StreamConfig.Proofs.Nesting.Traced

/-! # The calls of a lint walk

Linting with a trace of its calls, as deep as there is room for calls. Unlike pruning it changes
nothing, so a call meets a value inside as it was written.

* `lintBlockWithin`, `lintFieldWithin`, `lintDocumentWithin` — the walk
* `upTo_lintWithin` — what it gives does not change with more room
* `tellsCall_lintWithin` — with room for twice as many calls as the value is deep it is linting, and
  its calls go down
-/

namespace StreamConfig

mutual
/-- Remarks on what a field holds, with room for `room` calls within one another. -/
def lintFieldWithin : (room : Nat) → Field → Pointer → Value → Traced (List Remark)
  | 0, _, _, _ => failure
  | room + 1, f, p, v => Traced.call (.field f) v <|
    lintHeld (lintFieldWithin room) (lintBlockWithin room) f p v

/-- Remarks on a component block, with room for `room` calls within one another. -/
def lintBlockWithin : (room : Nat) → Kind → Pointer → Value → Traced (List Remark)
  | 0, _, _, _ => failure
  | room + 1, kind, p, v => Traced.call (.block kind) v <|
    lintComponentStep Traced.resolve (lintFieldWithin room) kind p v
end

/-- The findings for a document, with room for `room` calls within one another. -/
def lintDocumentWithin (room : Nat) (source : String) (v : Value) : Traced (List Finding) := do
  let remarks ← lintSections (lintBlockWithin room) v
  return Finding.inOrder (Remark.settle (Positions.scan source v) [] remarks)

/-! ## More room -/

theorem upTo_lintWithin {room room' : Nat} (h : room ≤ room') :
    (∀ f p v, Traced.upTo.Holds (lintFieldWithin room f p v) (lintFieldWithin room' f p v)) ∧
    ∀ kind p v, Traced.upTo.Holds (lintBlockWithin room kind p v)
      (lintBlockWithin room' kind p v) := by
  induction room generalizing room' with
  | zero => exact ⟨fun _ _ _ => Traced.upTo_failure _, fun _ _ _ => Traced.upTo_failure _⟩
  | succ room ih =>
    obtain ⟨room', rfl⟩ : ∃ n, room' = n + 1 := ⟨room' - 1, by omega⟩
    obtain ⟨hfield, hblock⟩ := ih (Nat.le_of_succ_le_succ h)
    refine ⟨fun f p v => Traced.upTo_call ?_ _ v, fun kind p v => Traced.upTo_call ?_ _ v⟩
    · exact Traced.upTo.lintHeld hfield hblock f p v
    · exact Traced.upTo.lintComponentStep Traced.upTo_resolve hfield kind p v

theorem upTo_lintDocumentWithin {room room' : Nat} (h : room ≤ room') (source : String)
    (v : Value) :
    Traced.upTo.Holds (lintDocumentWithin room source v) (lintDocumentWithin room' source v) := by
  obtain ⟨-, hblock⟩ := upTo_lintWithin h
  exact Traced.upTo.bind (Traced.upTo.lintSections hblock v) fun _ => Traced.upTo.pure _

/-! ## The same walk -/

namespace Tells

variable {r : Registry} {good : Call → Prop}

section Parts

theorem remarkEntries {y : String → Pointer → Value → RegistryM (List Remark)}
    {x : String → Pointer → Value → Traced (List Remark)}
    {g : String → Pointer → Value → List Remark} (p : Pointer) {es : Entries}
    (h : ∀ e ∈ es, ∀ q, Tells r good (y e.1 q e.2) (x e.1 q e.2) (g e.1 q e.2)) :
    Tells r good (remarkEntries p y es) (StreamConfig.remarkEntries p x es)
      (StreamConfig.remarkEntries (m := Id) p g es) := by
  induction es with
  | nil => exact .pure []
  | cons e rest ih =>
    have hrest := ih fun e he => h e (List.mem_cons_of_mem _ he)
    exact (h e List.mem_cons_self _).bind (hrest.bind (.pure _))

variable {y : Pointer → Value → RegistryM (List Remark)}
  {x : Pointer → Value → Traced (List Remark)} {g : Pointer → Value → List Remark} (p : Pointer)

theorem remarkItems (index : Nat) {items : List Value}
    (h : ∀ v ∈ items, ∀ q, Tells r good (y q v) (x q v) (g q v)) :
    Tells r good (remarkItems p y index items) (StreamConfig.remarkItems p x index items)
      (StreamConfig.remarkItems (m := Id) p g index items) := by
  induction items generalizing index with
  | nil => exact .pure []
  | cons v rest ih =>
    have hrest := ih (index + 1) fun w hw => h w (List.mem_cons_of_mem _ hw)
    exact (h v List.mem_cons_self _).bind (hrest.bind (.pure _))

theorem remarkParts (name : String) (arity : Arity) {v : Value}
    (h : ∀ w, v.Covers w → ∀ q, Tells r good (y q w) (x q w) (g q w)) :
    Tells r good (remarkParts name arity y p v) (StreamConfig.remarkParts name arity x p v)
      (StreamConfig.remarkParts (m := Id) name arity g p v) := by
  unfold StreamConfig.remarkParts
  split
  · exact h v (.refl v) p
  · exact remarkItems p 0 fun w hw => h w (.of_contains (.item hw))
  · exact remarkEntries p fun e he => h e.2 (.of_contains (.entry he))
  · exact .pure _

end Parts

section Step

variable {plain : Field → Pointer → Value → RegistryM (List Remark)}
  {traced : Field → Pointer → Value → Traced (List Remark)}
  {inner : Field → Pointer → Value → List Remark} {v : Value}

theorem lintComponentStep {kind : Kind} (p : Pointer)
    (h : ∀ f q w, (Callee.block kind).MayCall r.refreshed v (.field f) w →
      Tells r good (plain f q w) (traced f q w) (inner f q w)) :
    Tells r good (lintComponentStep StreamConfig.resolve plain kind p v)
      (StreamConfig.lintComponentStep Traced.resolve traced kind p v)
      (StreamConfig.lintComponentStep (m := Id) r.refreshed.resolver inner kind p v) := by
  unfold StreamConfig.lintComponentStep
  refine resolve_bind fun found hfound => ?_
  cases found with
  | error e => exact .pure _
  | ok c =>
    obtain ⟨es, rfl⟩ := Registry.exists_object_of_resolve hfound
    obtain ⟨name, hname⟩ := Registry.exists_get?_of_resolve hfound
    refine remarkEntries p fun e he q => ?_
    have hinside := Value.Encloses.of_entry (.refl _) he
    unfold lintComponentEntryStep
    split
    · exact h c.config q e.2 (.own hname hinside)
    · split
      next f hf =>
        have hreserved := h f q e.2 (.reserved (List.mem_of_find?_eq_some hf) hinside)
        exact hreserved.bind (.pure _)
      next => exact .pure _

theorem lintChildrenStep {f : Field} (p : Pointer)
    (h : ∀ g q w, g ∈ f.children → v.Encloses w →
      Tells r good (plain g q w) (traced g q w) (inner g q w)) :
    Tells r good (lintChildrenStep plain f p v) (StreamConfig.lintChildrenStep traced f p v)
      (StreamConfig.lintChildrenStep (m := Id) inner f p v) := by
  cases v with
  | object es =>
    refine remarkEntries p fun e he q => ?_
    split
    next g hg =>
      exact h g q e.2 (List.mem_of_find?_eq_some hg) (.of_entry (.refl _) he)
    next => exact .pure _
  | null | bool | number | string | array => exact .pure _

theorem lintFieldStep {block : Kind → Pointer → Value → Traced (List Remark)} {f : Field}
    (p : Pointer)
    (hblock : ∀ kind q w, (Callee.field f).MayCall r.refreshed v (.block kind) w →
      Tells r good (StreamConfig.lintComponentStep StreamConfig.resolve plain kind q w)
        (block kind q w)
        (StreamConfig.lintComponentStep (m := Id) r.refreshed.resolver inner kind q w))
    (hfield : ∀ g q w, (Callee.field f).MayCall r.refreshed v (.field g) w →
      Tells r good (plain g q w) (traced g q w) (inner g q w)) :
    Tells r good (lintFieldStep StreamConfig.resolve plain f p v) (lintHeld traced block f p v)
      (StreamConfig.lintFieldStep (m := Id) r.refreshed.resolver inner f p v) := by
  unfold StreamConfig.lintFieldStep lintHeld
  cases hkind : f.type.kind? with
  | some kind =>
    have hparts := remarkParts p f.name f.arity fun w hw q => hblock kind q w (.held hkind hw)
    exact hparts.bind (.pure _)
  | none =>
    dsimp only
    split
    · exact (Tells.pure []).bind (.pure _)
    · have hparts := remarkParts p f.name f.arity fun w hw q => lintChildrenStep q
        fun g q u hg hu => hfield g q u (.child hg (hw.trans_encloses hu))
      exact hparts.bind (.pure _)

end Step

section Sections

variable {y : Kind → Pointer → Value → RegistryM (List Remark)}
  {x : Kind → Pointer → Value → Traced (List Remark)} {g : Kind → Pointer → Value → List Remark}
  {v : Value}

theorem lintListed (kind : Kind) (p : Pointer)
    (h : ∀ q w, v.Encloses w → Tells r good (y kind q w) (x kind q w) (g kind q w)) :
    Tells r good (lintListed y kind p v) (StreamConfig.lintListed x kind p v)
      (StreamConfig.lintListed (m := Id) g kind p v) := by
  cases v with
  | array items => exact remarkItems p 0 fun w hw q => h q w ⟨w, .item hw, .refl w⟩
  | null | bool | number | string | object => exact .pure _

theorem lintPipeline (p : Pointer)
    (h : ∀ kind q w, v.Encloses w → Tells r good (y kind q w) (x kind q w) (g kind q w)) :
    Tells r good (lintPipeline y p v) (StreamConfig.lintPipeline x p v)
      (StreamConfig.lintPipeline (m := Id) g p v) := by
  cases v with
  | object es =>
    refine remarkEntries p fun e he q => ?_
    have hinside := Value.Encloses.of_entry (.refl _) he
    split
    · exact lintListed _ q fun q w hw => h _ q w (hinside.trans_covers hw.covers)
    · split <;> exact .pure _
  | null | bool | number | string | array => exact .pure _

theorem lintSections
    (h : ∀ kind q w, v.Encloses w → Tells r good (y kind q w) (x kind q w) (g kind q w)) :
    Tells r good (lintSections y v) (StreamConfig.lintSections x v)
      (StreamConfig.lintSections (m := Id) g v) := by
  cases v with
  | object es =>
    refine remarkEntries "" fun e he q => ?_
    have hinside := Value.Encloses.of_entry (.refl _) he
    split
    · exact h _ q e.2 hinside
    · exact lintListed _ q fun q w hw => h _ q w (hinside.trans_covers hw.covers)
    · exact lintPipeline q fun kind q w hw => h kind q w (hinside.trans_covers hw.covers)
    · exact .pure _
  | null | bool | number | string | array => exact .pure _

end Sections

end Tells

/-- By induction on the room, as for pruning. -/
theorem tellsCall_lintWithin (r : Registry) (room : Nat) :
    (∀ (levels : Nat) f p (v : Value), v.depth < levels → 2 * v.depth + 1 < room →
      TellsCall r (.field f) v (lintFieldTo resolve levels f p v) (lintFieldWithin room f p v)
        (lintFieldTo (m := Id) r.refreshed.resolver levels f p v)) ∧
    ∀ (levels : Nat) kind p (v : Value), v.depth ≤ levels → 2 * v.depth < room →
      TellsCall r (.block kind) v
        (lintComponentStep resolve (lintFieldTo resolve levels) kind p v)
        (lintBlockWithin room kind p v)
        (lintComponentStep (m := Id) r.refreshed.resolver
          (lintFieldTo (m := Id) r.refreshed.resolver levels) kind p v) := by
  induction room with
  | zero => exact ⟨fun _ _ _ _ _ h => (Nat.not_lt_zero _ h).elim,
      fun _ _ _ _ _ h => (Nat.not_lt_zero _ h).elim⟩
  | succ room ih =>
    obtain ⟨hfield, hblock⟩ := ih
    refine ⟨fun levels f p v hlevels hroom => ?_, fun levels kind p v hlevels hroom => ?_⟩
    · obtain ⟨levels, rfl⟩ : ∃ n, levels = n + 1 := ⟨levels - 1, by omega⟩
      apply TellsCall.call
      apply Tells.lintFieldStep
      · intro kind q w hmay
        have hdepth := hmay.covers.depth_le
        exact (hblock levels kind q w (by omega) (by omega)).made hmay
      · intro g q w hmay
        have hdepth := hmay.encloses.depth_lt
        exact (hfield levels g q w (by omega) (by omega)).made hmay
    · apply TellsCall.call
      apply Tells.lintComponentStep
      intro f q w hmay
      have hdepth := hmay.encloses.depth_lt
      exact (hfield levels f q w (by omega) (by omega)).made hmay

/-- A document is linted block by block, and all blocks stand inside it. -/
theorem tells_lintDocumentWithin (r : Registry) (source : String) (v : Value) {room : Nat}
    (hroom : 2 * v.depth < room) :
    Tells r (fun c => c.isBlock = true ∧ v.Encloses c.value ∧ c.GoesDown r.refreshed)
      (lintDocument source v) (lintDocumentWithin room source v)
      (Finding.inOrder (Remark.settle (Positions.scan source v) []
        (remarksOn (m := Id) r.refreshed.resolver v))) := by
  obtain ⟨-, hblock⟩ := tellsCall_lintWithin r room
  refine Tells.bind (Tells.lintSections fun kind p w hw => ?_) (.pure _)
  have hdepth := hw.depth_lt
  refine (hblock v.depth kind p w (by omega) (by omega)).tells fun c hcallee hvalue hdown => ?_
  exact ⟨Call.isBlock_of_callee hcallee, hvalue ▸ hw, hdown⟩

end StreamConfig
