import StreamConfig.Proofs.Pruning.Idempotence
import StreamConfig.Proofs.Value.UpTo

/-! # Pruning only deletes

Whatever the rules of omission, the registry and the policy are, and whether or not the blocks
inside a value denote anything, pruning drops entries of objects and does nothing else.

The relation holds of every step of pruning if it holds of the levels below, so it holds of all
levels by induction. A field may have its turn on one object more than once; transitivity covers
that.
-/

namespace StreamConfig

theorem Value.ThinsTo.alike {v w : Value} (h : v.ThinsTo w) : v.Alike w := by
  cases h with
  | scalar => exact .refl v
  | array hitems => exact .array hitems.length_eq
  | object => exact .object _ _

namespace Value

theorem thinsTo_overParts {f : Value → Value} (hf : ∀ v : Value, v.ThinsTo (f v)) (arity : Arity)
    (v : Value) : v.ThinsTo (v.overParts (m := Id) arity f) := by
  cases arity with
  | scalar => exact hf v
  | array =>
    cases v with
    | array items =>
      rw [overParts_array_id]
      apply ThinsTo.array
      rw [List.forall₂_map_right_iff, List.forall₂_same]
      exact fun w _ => hf w
    | null | bool | number | string | object => exact .refl _
  | map =>
    cases v with
    | object es =>
      rw [overParts_map_id]
      exact .object (.refl es) (.map (fun _ _ => rfl) fun e _ => hf e.2)
    | null | bool | number | string | array => exact .refl _

end Value

section Step

variable {policy : Policy} {inner : Field → Value → Value} {r : Registry}
  (hinner : ∀ f (v : Value), v.ThinsTo (inner f v))

include hinner

/-- A field's turn drops its entry, or thins the value in it. -/
theorem thinsTo_pruneEntry (f : Field) (es : Entries) :
    (Value.object es).ThinsTo (.object (pruneEntry policy inner es f)) := by
  unfold pruneEntry
  split
  · split
    · exact .refl _
    · split
      · exact .object_filter _ es
      · exact .object_modify (hinner f) f.name es
  · exact .object_filter _ es

theorem thinsTo_pruneFieldsStep (fields : List Field) (v : Value) :
    v.ThinsTo (pruneFieldsStep (m := Id) policy inner fields v) := by
  cases v with
  | object es =>
    rw [pruneFieldsStep_object]
    -- one turn after the other
    induction fields generalizing es with
    | nil => exact .refl _
    | cons f rest ih => exact (thinsTo_pruneEntry hinner f es).trans (ih _)
  | null | bool | number | string | array => exact .refl _

theorem thinsTo_settledBlock (kind : Kind) (c : Component) (es : Entries) :
    (Value.object es).ThinsTo (.object (settledBlock policy inner kind c es)) := by
  have hentry : ∀ e : String × Value, e.2.ThinsTo (settledEntry inner kind c e).2 := by
    intro e
    have hown : e.2.ThinsTo (if e.1 = c.name then inner c.config e.2 else e.2) := by
      split
      · exact hinner c.config e.2
      · exact .refl e.2
    unfold settledEntry
    cases kind.reserved? e.1 with
    | none => exact hown
    | some f => exact hown.trans (hinner f _)
  have hkept : (Value.object es).ThinsTo
      (.object ((es.filter (survives kind c.name es)).map (settledEntry inner kind c))) :=
    .object_map_filter (fun _ => rfl) hentry
  unfold settledBlock
  split
  · exact hkept.trans (.object_filter _ _)
  · exact hkept

/-- A block is thinned, or left as it is if it denotes nothing. -/
theorem thinsTo_pruneNestedStep (kind : Kind) (v : Value) :
    v.ThinsTo (pruneNestedStep (m := Id) policy r.resolver inner kind v) := by
  by_cases hkind : kind = .condition
  · subst hkind
    rw [pruneNestedStep_condition]
    cases v with
    | object es =>
      simp only [pruneCondition]
      cases Entries.get? es "type" with
      | none => exact .refl _
      | some t => exact .object_filter _ es
    | null | bool | number | string | array => exact .refl _
  · cases h : r.resolve kind "" v with
    | error e =>
      rw [pruneNestedStep_error policy inner hkind h]
      exact .refl v
    | ok c =>
      obtain ⟨es, rfl⟩ := Registry.exists_object_of_resolve h
      rw [pruneNestedStep_ok policy inner (fun f v => (hinner f v).alike) hkind h]
      exact thinsTo_settledBlock hinner kind c es

theorem thinsTo_pruneFieldStep (f : Field) (v : Value) :
    v.ThinsTo (pruneFieldStep (m := Id) policy r.resolver inner f v) := by
  unfold pruneFieldStep
  cases f.type.kind? with
  | some kind => exact Value.thinsTo_overParts (thinsTo_pruneNestedStep hinner kind) f.arity v
  | none =>
    dsimp only
    split
    · exact .refl v
    · exact Value.thinsTo_overParts (thinsTo_pruneFieldsStep hinner f.children) f.arity v

end Step

/-- By induction on levels. -/
theorem thinsTo_pruneFieldTo (policy : Policy) (r : Registry) (n : Nat) (f : Field) (v : Value) :
    v.ThinsTo (pruneFieldTo (m := Id) policy r.resolver n f v) := by
  induction n generalizing f v with
  | zero => exact .refl v
  | succ n ih => exact thinsTo_pruneFieldStep ih f v

/-- What stands in the place of a value after pruning — as a component block of whichever kind, as
what a field holds, or as an object with known fields — is the value with entries of objects
dropped. -/
theorem thinsTo_pruned (policy : Policy) (r : Registry) (v : Value) :
    (∀ kind, v.ThinsTo ((pruneRun policy kind v).run r).1) ∧
      (∀ f, v.ThinsTo ((policy.supplied (pruneField policy resolve f v)).run r).1) ∧
      ∀ fields, v.ThinsTo ((policy.supplied (pruneFields policy resolve fields v)).run r).1 := by
  refine ⟨fun kind => ?_, fun f => ?_, fun fields => ?_⟩
  · rw [(run_pruneRun policy kind v r).1]
    exact thinsTo_pruneNestedStep (thinsTo_pruneFieldTo policy _ _) kind v
  · rw [((Snapshot.pruneField policy f v).supplied policy r).1]
    exact thinsTo_pruneFieldTo policy _ _ f v
  · rw [((Snapshot.pruneFields policy fields v).supplied policy r).1]
    exact thinsTo_pruneFieldsStep (thinsTo_pruneFieldTo policy _ _) fields v

end StreamConfig
