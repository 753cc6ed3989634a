import StreamConfig.Proofs.Pruning.Deletion
import StreamConfig.Proofs.Value.Reordering

/-! # Levels of pruning

A field is pruned down to a number of levels. More levels than the value is deep make no difference:
* `ThinsTo.depth_le` — a value does not get deeper as it loses entries
* `pruneFieldStep_congr` — a step asks for no more than the values less deep than the one it prunes
* `pruneFieldTo_eq` — so any two numbers of levels that are large enough agree
-/

namespace StreamConfig

/-! ## Depth -/

namespace Value

theorem itemsDepth_le_iff {items : List Value} {n : Nat} :
    itemsDepth items ≤ n ↔ ∀ v ∈ items, v.depth ≤ n := by
  induction items with
  | nil => simp [itemsDepth]
  | cons v rest ih => simp [itemsDepth, ih]

theorem entriesDepth_le_iff {es : Entries} {n : Nat} :
    entriesDepth es ≤ n ↔ ∀ e ∈ es, e.2.depth ≤ n := by
  induction es with
  | nil => simp [entriesDepth]
  | cons e rest ih =>
    obtain ⟨k, v⟩ := e
    simp [entriesDepth, ih]

/-- A value does not get deeper as it loses entries. -/
theorem ThinsTo.depth_le {v w : Value} (h : v.ThinsTo w) : w.depth ≤ v.depth := by
  induction v using inductMembers generalizing w with
  | scalar v hv =>
    cases h with
    | scalar => exact Nat.le_refl _
    | array | object => cases hv
  | array items ih =>
    cases h with
    | scalar => exact Nat.le_refl _
    | array hitems =>
      apply Nat.succ_le_succ
      rw [itemsDepth_le_iff]
      intro w hw
      obtain ⟨v, hv, hthins⟩ := exists_mem_of_forall₂ hitems hw
      exact (ih v hv hthins).trans (depth_le_itemsDepth hv)
  | object es ih =>
    cases h with
    | scalar => exact Nat.le_refl _
    | object hkept haligned =>
      apply Nat.succ_le_succ
      rw [entriesDepth_le_iff]
      intro e' he'
      obtain ⟨e, he, -, hthins⟩ := haligned.exists_mem he'
      have hmem := hkept.mem he
      exact (ih e hmem hthins).trans (depth_le_entriesDepth hmem)

theorem overParts_congr {f g : Value → Value} (arity : Arity) {v : Value}
    (h : ∀ w : Value, w.depth ≤ v.depth → f w = g w) :
    overParts (m := Id) arity f v = overParts (m := Id) arity g v := by
  cases arity with
  | scalar => exact h v (Nat.le_refl _)
  | array =>
    cases v with
    | array items =>
      rw [overParts_array_id, overParts_array_id]
      refine congrArg Value.array (List.map_congr_left fun w hw => ?_)
      exact h w (depth_lt_of_mem_array hw).le
    | null | bool | number | string | object => rfl
  | map =>
    cases v with
    | object es =>
      rw [overParts_map_id, overParts_map_id]
      refine congrArg Value.object (List.map_congr_left fun e he => ?_)
      exact congrArg (e.1, ·) (h e.2 (depth_lt_of_mem_object he).le)
    | null | bool | number | string | array => rfl

end Value

/-! ## One step -/

section Step

variable {policy : Policy} {inner inner' : Field → Value → Value} {r : Registry} {d : Nat}
  (hthins : ∀ f (v : Value), v.ThinsTo (inner f v))
  (hsame : ∀ f (v : Value), v.depth < d → inner f v = inner' f v)

include hsame

theorem pruneEntry_congr (f : Field) {es : Entries} (hes : (Value.object es).depth ≤ d) :
    pruneEntry policy inner es f = pruneEntry policy inner' es f := by
  have hmodify : es.modify f.name (inner f) = es.modify f.name (inner' f) := by
    refine List.map_congr_left fun e he => ?_
    have hdepth := Value.depth_lt_of_mem_object he
    rw [hsame f e.2 (by omega)]
  unfold pruneEntry
  rw [hmodify]

include hthins

/-- One turn after the other: an object does not get deeper on the way. -/
theorem pruneFieldsStep_congr (fields : List Field) {v : Value} (hv : v.depth ≤ d) :
    pruneFieldsStep (m := Id) policy inner fields v =
      pruneFieldsStep (m := Id) policy inner' fields v := by
  cases v with
  | object es =>
    rw [pruneFieldsStep_object, pruneFieldsStep_object]
    refine congrArg Value.object ?_
    induction fields generalizing es with
    | nil => rfl
    | cons f rest ih =>
      have hturn : (Value.object (pruneEntry policy inner es f)).depth ≤ d :=
        (thinsTo_pruneEntry hthins f es).depth_le.trans hv
      rw [List.foldl_cons, List.foldl_cons, ← pruneEntry_congr hsame f hv]
      exact ih _ hturn
  | null | bool | number | string | array => rfl

theorem settledEntry_congr (kind : Kind) (c : Component) {e : String × Value}
    (he : e.2.depth < d) : settledEntry inner kind c e = settledEntry inner' kind c e := by
  have hown : (if e.1 = c.name then inner c.config e.2 else e.2) =
      if e.1 = c.name then inner' c.config e.2 else e.2 := by
    rw [hsame c.config e.2 he]
  have hdepth : (if e.1 = c.name then inner c.config e.2 else e.2).depth < d := by
    split
    · exact (hthins c.config e.2).depth_le.trans_lt he
    · exact he
  unfold settledEntry
  rw [← hown]
  cases kind.reserved? e.1 with
  | none => rfl
  | some f => exact congrArg (e.1, ·) (hsame f _ hdepth)

theorem settledBlock_congr (kind : Kind) (c : Component) {es : Entries}
    (hes : (Value.object es).depth ≤ d) :
    settledBlock policy inner kind c es = settledBlock policy inner' kind c es := by
  have hkept : (es.filter (survives kind c.name es)).map (settledEntry inner kind c) =
      (es.filter (survives kind c.name es)).map (settledEntry inner' kind c) := by
    refine List.map_congr_left fun e he => settledEntry_congr hthins hsame kind c ?_
    have hdepth := Value.depth_lt_of_mem_object (List.mem_filter.1 he).1
    omega
  unfold settledBlock
  rw [hkept]

theorem pruneNestedStep_congr (hthins' : ∀ f (v : Value), v.ThinsTo (inner' f v)) (kind : Kind)
    {v : Value} (hv : v.depth ≤ d) :
    pruneNestedStep (m := Id) policy r.resolver inner kind v =
      pruneNestedStep (m := Id) policy r.resolver inner' kind v := by
  by_cases hkind : kind = .condition
  · subst hkind
    rw [pruneNestedStep_condition, pruneNestedStep_condition]
  · cases h : r.resolve kind "" v with
    | error e =>
      rw [pruneNestedStep_error policy inner hkind h, pruneNestedStep_error policy inner' hkind h]
    | ok c =>
      obtain ⟨es, rfl⟩ := Registry.exists_object_of_resolve h
      rw [pruneNestedStep_ok policy inner (fun f v => (hthins f v).alike) hkind h,
        pruneNestedStep_ok policy inner' (fun f v => (hthins' f v).alike) hkind h,
        settledBlock_congr hthins hsame kind c hv]

theorem pruneFieldStep_congr (hthins' : ∀ f (v : Value), v.ThinsTo (inner' f v)) (f : Field)
    {v : Value} (hv : v.depth ≤ d) :
    pruneFieldStep (m := Id) policy r.resolver inner f v =
      pruneFieldStep (m := Id) policy r.resolver inner' f v := by
  unfold pruneFieldStep
  cases f.type.kind? with
  | some kind =>
    refine Value.overParts_congr f.arity fun w hw => ?_
    exact pruneNestedStep_congr hthins hsame hthins' kind (hw.trans hv)
  | none =>
    dsimp only
    split
    · rfl
    · refine Value.overParts_congr f.arity fun w hw => ?_
      exact pruneFieldsStep_congr hthins hsame f.children (hw.trans hv)

end Step

/-- Two numbers of levels agree on values that are less deep than both. -/
theorem pruneFieldTo_eq (policy : Policy) (r : Registry) {n n' : Nat} (f : Field) {v : Value}
    (hv : v.depth < n) (hv' : v.depth < n') :
    pruneFieldTo (m := Id) policy r.resolver n f v =
      pruneFieldTo (m := Id) policy r.resolver n' f v := by
  induction n generalizing n' f v with
  | zero => omega
  | succ n ih =>
    cases n' with
    | zero => omega
    | succ n' =>
      refine pruneFieldStep_congr (d := v.depth) (thinsTo_pruneFieldTo policy r n) ?_
        (thinsTo_pruneFieldTo policy r n') f (Nat.le_refl _)
      intro g w hw
      exact ih g (by omega) (by omega)

/-- With more levels than a value is deep, it is pruned in full. -/
theorem pruneFieldTo_eq_pruneField (policy : Policy) (r : Registry) {n : Nat} (f : Field)
    {v : Value} (hv : v.depth < n) :
    pruneFieldTo (m := Id) policy r.resolver n f v =
      pruneField (m := Id) policy r.resolver f v :=
  pruneFieldTo_eq policy r f hv (Nat.lt_succ_self _)

end StreamConfig
