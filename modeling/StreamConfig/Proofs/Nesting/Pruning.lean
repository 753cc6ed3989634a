import StreamConfig.Proofs.Nesting.Traced
import StreamConfig.Proofs.Pruning.Levels

/-! # The calls of a pruning run

Pruning with a trace of its calls, as deep as there is room for calls. It is the same walk: with
room enough it makes of every value what pruning makes of it.

* `pruneBlockWithin`, `pruneFieldWithin` — the walk
* `upTo_pruneWithin` — what it gives does not change with more room
* `tellsCall_pruneWithin` — with room for twice as many calls as the value is deep it is pruning,
  and its calls go down
-/

namespace StreamConfig

mutual
/-- Prunes what a field holds, with room for `room` calls within one another. -/
def pruneFieldWithin (policy : Policy) : (room : Nat) → Field → Value → Traced Value
  | 0, _, _ => failure
  | room + 1, f, v => Traced.call (.field f) v <|
    pruneHeld policy (pruneFieldWithin policy room)
      (fun kind w => do return afterPruning w (← pruneBlockWithin policy room kind w)) f v

/-- Prunes a component block, with room for `room` calls within one another. -/
def pruneBlockWithin (policy : Policy) :
    (room : Nat) → Kind → Value → Traced (Except ResolveError Value)
  | 0, _, _ => failure
  | room + 1, kind, v => Traced.call (.block kind) v <|
    pruneComponentStep policy Traced.resolve (pruneFieldWithin policy room) kind v
end

/-! ## More room -/

theorem upTo_pruneWithin (policy : Policy) {room room' : Nat} (h : room ≤ room') :
    (∀ f v, Traced.upTo.Holds (pruneFieldWithin policy room f v)
      (pruneFieldWithin policy room' f v)) ∧
    ∀ kind v, Traced.upTo.Holds (pruneBlockWithin policy room kind v)
      (pruneBlockWithin policy room' kind v) := by
  induction room generalizing room' with
  | zero => exact ⟨fun _ _ => Traced.upTo_failure _, fun _ _ => Traced.upTo_failure _⟩
  | succ room ih =>
    obtain ⟨room', rfl⟩ : ∃ n, room' = n + 1 := ⟨room' - 1, by omega⟩
    obtain ⟨hfield, hblock⟩ := ih (Nat.le_of_succ_le_succ h)
    refine ⟨fun f v => Traced.upTo_call ?_ _ v, fun kind v => Traced.upTo_call ?_ _ v⟩
    · refine Traced.upTo.pruneHeld hfield (fun kind w => ?_) f v
      exact Traced.upTo.bind (hblock kind w) fun _ => Traced.upTo.pure _
    · exact Traced.upTo.pruneComponentStep Traced.upTo_resolve hfield kind v

/-! ## The same walk -/

theorem Value.ThinsTo.modifyM {v : Value} {es : Entries} (hes : v.ThinsTo (.object es))
    {f : Value → Value} (hf : ∀ w : Value, w.ThinsTo (f w)) (k : String) :
    v.ThinsTo (.object (Entries.modifyM (m := Id) f k es)) := by
  rw [Entries.modifyM_id]
  exact hes.trans (.object_modify hf k es)

namespace Tells

variable {r : Registry} {good : Call → Prop}

section Parts

variable {y : Value → RegistryM Value} {x : Value → Traced Value} {g : Value → Value}

theorem modifyM (k : String) {es : Entries} (h : ∀ e ∈ es, Tells r good (y e.2) (x e.2) (g e.2)) :
    Tells r good (Entries.modifyM y k es) (Entries.modifyM x k es)
      (Entries.modifyM (m := Id) g k es) := by
  induction es with
  | nil => exact .pure []
  | cons e rest ih =>
    have hrest := ih fun e he => h e (List.mem_cons_of_mem _ he)
    unfold Entries.modifyM
    split
    · exact (h e List.mem_cons_self).bind (hrest.bind (.pure _))
    · exact (Tells.pure e.2).bind (hrest.bind (.pure _))

theorem mapValuesM {es : Entries} (h : ∀ e ∈ es, Tells r good (y e.2) (x e.2) (g e.2)) :
    Tells r good (Entries.mapValuesM y es) (Entries.mapValuesM x es)
      (Entries.mapValuesM (m := Id) g es) := by
  induction es with
  | nil => exact .pure []
  | cons e rest ih =>
    have hrest := ih fun e he => h e (List.mem_cons_of_mem _ he)
    exact (h e List.mem_cons_self).bind (hrest.bind (.pure _))

theorem mapItemsM {items : List Value} (h : ∀ v ∈ items, Tells r good (y v) (x v) (g v)) :
    Tells r good (Value.mapItemsM y items) (Value.mapItemsM x items)
      (Value.mapItemsM (m := Id) g items) := by
  induction items with
  | nil => exact .pure []
  | cons v rest ih =>
    have hrest := ih fun w hw => h w (List.mem_cons_of_mem _ hw)
    exact (h v List.mem_cons_self).bind (hrest.bind (.pure _))

/-- What a field holds is the value, or stands directly in it. -/
theorem overParts (arity : Arity) {v : Value}
    (h : ∀ w, v.Covers w → Tells r good (y w) (x w) (g w)) :
    Tells r good (v.overParts arity y) (v.overParts arity x) (v.overParts (m := Id) arity g) := by
  cases arity with
  | scalar => exact h v (.refl v)
  | array =>
    cases v with
    | array items =>
      have hitems := mapItemsM fun w hw => h w (.of_contains (.item hw))
      exact hitems.bind (.pure _)
    | null | bool | number | string | object => exact .pure _
  | map =>
    cases v with
    | object es =>
      have hvalues := mapValuesM fun e he => h e.2 (.of_contains (.entry he))
      exact hvalues.bind (.pure _)
    | null | bool | number | string | array => exact .pure _

end Parts

section Step

variable {policy : Policy} {plain : Field → Value → RegistryM Value}
  {traced : Field → Value → Traced Value} {inner : Field → Value → Value}
  (hthins : ∀ f (v : Value), v.ThinsTo (inner f v)) {v : Value}

/-- A block that fails is left as it was. -/
theorem pruneNestedStep {kind : Kind} {x : Traced (Except ResolveError Value)}
    (h : Tells r good (pruneComponentStep policy StreamConfig.resolve plain kind v) x
      (pruneComponentStep (m := Id) policy r.refreshed.resolver inner kind v)) :
    Tells r good (pruneNestedStep policy StreamConfig.resolve plain kind v)
      (do return afterPruning v (← x))
      (StreamConfig.pruneNestedStep (m := Id) policy r.refreshed.resolver inner kind v) := by
  rw [pruneNestedStep_eq_afterPruning]
  refine h.bind ?_
  cases pruneComponentStep (m := Id) policy r.refreshed.resolver inner kind v <;>
    exact .pure _

include hthins

/-- Fields have their turns on what the fields before them have left of an object. -/
theorem pruneEntriesStep {fields : List Field} {es : Entries} (hes : v.ThinsTo (.object es))
    (h : ∀ f ∈ fields, ∀ w, v.Encloses w → Tells r good (plain f w) (traced f w) (inner f w)) :
    Tells r good (pruneEntriesStep policy plain fields es)
      (StreamConfig.pruneEntriesStep policy traced fields es)
      (StreamConfig.pruneEntriesStep (m := Id) policy inner fields es) := by
  induction fields generalizing es with
  | nil => exact .pure es
  | cons f rest ih =>
    have hlater := fun f hf => h f (List.mem_cons_of_mem _ hf)
    unfold StreamConfig.pruneEntriesStep
    split
    · split
      · exact ih hes hlater
      · split
        · exact ih (hes.trans (.object_filter _ es)) hlater
        · have hturn := modifyM f.name fun e he => h f List.mem_cons_self e.2 (.of_entry hes he)
          exact hturn.bind (ih (hes.modifyM (hthins f) f.name) hlater)
    · exact ih (hes.trans (.object_filter _ es)) hlater

theorem pruneFieldsStep {fields : List Field}
    (h : ∀ f ∈ fields, ∀ w, v.Encloses w → Tells r good (plain f w) (traced f w) (inner f w)) :
    Tells r good (pruneFieldsStep policy plain fields v)
      (StreamConfig.pruneFieldsStep policy traced fields v)
      (StreamConfig.pruneFieldsStep (m := Id) policy inner fields v) := by
  cases v with
  | object es => exact (pruneEntriesStep hthins (.refl _) h).bind (.pure _)
  | null | bool | number | string | array => exact .pure _

theorem pruneReservedStep {fields : List Field} {es : Entries} (hes : v.ThinsTo (.object es))
    (h : ∀ f ∈ fields, ∀ w, v.Encloses w → Tells r good (plain f w) (traced f w) (inner f w)) :
    Tells r good (pruneReservedStep plain fields es)
      (StreamConfig.pruneReservedStep traced fields es)
      (StreamConfig.pruneReservedStep (m := Id) inner fields es) := by
  induction fields generalizing es with
  | nil => exact .pure es
  | cons f rest ih =>
    have hturn := modifyM f.name fun e he => h f List.mem_cons_self e.2 (.of_entry hes he)
    have hlater := fun f hf => h f (List.mem_cons_of_mem _ hf)
    exact hturn.bind (ih (hes.modifyM (hthins f) f.name) hlater)

/-- The component's own value is pruned first, then entries go, and reserved fields have their turns
on what is left. -/
theorem pruneComponentStep {kind : Kind}
    (h : ∀ f w, (Callee.block kind).MayCall r.refreshed v (.field f) w →
      Tells r good (plain f w) (traced f w) (inner f w)) :
    Tells r good (pruneComponentStep policy StreamConfig.resolve plain kind v)
      (StreamConfig.pruneComponentStep policy Traced.resolve traced kind v)
      (StreamConfig.pruneComponentStep (m := Id) policy r.refreshed.resolver inner kind v) := by
  unfold StreamConfig.pruneComponentStep
  split
  · exact .pure _
  · refine resolve_bind fun found hfound => ?_
    cases found with
    | error e => exact .pure _
    | ok c =>
      obtain ⟨es, rfl⟩ := Registry.exists_object_of_resolve hfound
      obtain ⟨name, hname⟩ := Registry.exists_get?_of_resolve hfound
      have hes := Value.ThinsTo.refl (.object es)
      have hown := modifyM c.name fun e he => h c.config e.2 (.own hname (.of_entry hes he))
      -- reserved fields meet what the component's own field and the removal of entries have left
      refine hown.bind (Tells.bind (pruneReservedStep hthins (v := .object es) ?_ ?_) (.pure _))
      · exact (hes.modifyM (hthins c.config) c.name).trans (.object_filter _ _)
      · exact fun f hf w hw => h f w (.reserved hf hw)

theorem pruneFieldStep {block : Kind → Value → Traced Value} {f : Field}
    (hblock : ∀ kind w, (Callee.field f).MayCall r.refreshed v (.block kind) w →
      Tells r good (StreamConfig.pruneNestedStep policy StreamConfig.resolve plain kind w)
        (block kind w)
        (StreamConfig.pruneNestedStep (m := Id) policy r.refreshed.resolver inner kind w))
    (hfield : ∀ g w, (Callee.field f).MayCall r.refreshed v (.field g) w →
      Tells r good (plain g w) (traced g w) (inner g w)) :
    Tells r good (pruneFieldStep policy StreamConfig.resolve plain f v)
      (pruneHeld policy traced block f v)
      (StreamConfig.pruneFieldStep (m := Id) policy r.refreshed.resolver inner f v) := by
  unfold StreamConfig.pruneFieldStep pruneHeld
  cases hkind : f.type.kind? with
  | some kind => exact overParts f.arity fun w hw => hblock kind w (.held hkind hw)
  | none =>
    dsimp only
    split
    · exact .pure v
    · refine overParts f.arity fun w hw => pruneFieldsStep hthins fun g hg u hu => ?_
      exact hfield g u (.child hg (hw.trans_encloses hu))

end Step

end Tells

/-- By induction on the room. Each call for a field takes it inside the value, and between two such
calls is at most one for a block. -/
theorem tellsCall_pruneWithin (policy : Policy) (r : Registry) (room : Nat) :
    (∀ (levels : Nat) f (v : Value), v.depth < levels → 2 * v.depth + 1 < room →
      TellsCall r (.field f) v (pruneFieldTo policy resolve levels f v)
        (pruneFieldWithin policy room f v)
        (pruneFieldTo (m := Id) policy r.refreshed.resolver levels f v)) ∧
    ∀ (levels : Nat) kind (v : Value), v.depth ≤ levels → 2 * v.depth < room →
      TellsCall r (.block kind) v
        (pruneComponentStep policy resolve (pruneFieldTo policy resolve levels) kind v)
        (pruneBlockWithin policy room kind v)
        (pruneComponentStep (m := Id) policy r.refreshed.resolver
          (pruneFieldTo (m := Id) policy r.refreshed.resolver levels) kind v) := by
  induction room with
  | zero => exact ⟨fun _ _ _ _ h => (Nat.not_lt_zero _ h).elim,
      fun _ _ _ _ h => (Nat.not_lt_zero _ h).elim⟩
  | succ room ih =>
    obtain ⟨hfield, hblock⟩ := ih
    refine ⟨fun levels f v hlevels hroom => ?_, fun levels kind v hlevels hroom => ?_⟩
    · obtain ⟨levels, rfl⟩ : ∃ n, levels = n + 1 := ⟨levels - 1, by omega⟩
      apply TellsCall.call
      apply Tells.pruneFieldStep (thinsTo_pruneFieldTo policy r.refreshed levels)
      · -- the value may be the same, but there is room for the next field inside it
        intro kind w hmay
        have hdepth := hmay.covers.depth_le
        have hnested := (hblock levels kind w (by omega) (by omega)).made hmay
        exact Tells.pruneNestedStep hnested
      · intro g w hmay
        have hdepth := hmay.encloses.depth_lt
        exact (hfield levels g w (by omega) (by omega)).made hmay
    · apply TellsCall.call
      apply Tells.pruneComponentStep (thinsTo_pruneFieldTo policy r.refreshed levels)
      intro f w hmay
      have hdepth := hmay.encloses.depth_lt
      exact (hfield levels f w (by omega) (by omega)).made hmay

end StreamConfig
