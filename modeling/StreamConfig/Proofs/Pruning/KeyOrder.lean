import StreamConfig.Proofs.Pruning.Deletion
import StreamConfig.Proofs.Schema.Fields
import StreamConfig.Proofs.Value.Reordering

/-! # Pruning does not look at the order of keys

Two values that differ in the order of keys only are pruned alike: both denote something or neither
does, and the results differ in the order of keys only. An error may tell the two apart in one case,
when three or more keys name components: the two names in it are the first ones.

* `Omission.reason?_eq_of_reordered` — known rules do not look at the order of keys
* `Registry.resolve_of_reordered` — nor does resolution, but for the names in an error
* `reordered_pruneFieldTo` — by induction on levels, nor does pruning
* `pruneComponent_reordered` — the run of a component block
-/

namespace StreamConfig

/-! ## Rules -/

theorem Omission.reason?_eq_of_reordered {rule : Omission} (hrule : rule.isKnown = true)
    {v w : Value} (hvw : v.Reordered w) {es es' : Entries} (hes : es.Reordered es')
    (hkeys : es.keys.Nodup) : rule.reason? w es' = rule.reason? v es := by
  cases rule with
  | whenEmpty | whenNoProcessors =>
    cases hvw with
    | scalar | object => rfl
    | array hitems => cases hitems <;> rfl
  | whenZero => cases hvw <;> rfl
  | always => rfl
  | whenTrue key =>
    have hget := hes.get? hkeys key
    simp only [reason?]
    generalize es.get? key = here at hget ⊢
    generalize es'.get? key = there at hget ⊢
    cases hget with
    | none => rfl
    | some hvalue => cases hvalue <;> rfl
  | whenPresent key => simp only [reason?, hes.contains_eq]
  | whenResource =>
    have hpoints : pointsToResource es' = pointsToResource es := by
      unfold pointsToResource
      rw [hes.text?_eq hkeys, hes.text?_eq hkeys]
    simp only [reason?, hpoints]
  | custom => cases hrule

theorem Field.omissionReason?_eq_of_reordered {f : Field} (hf : f.HasKnownRule) {v w : Value}
    (hvw : v.Reordered w) {es es' : Entries} (hes : es.Reordered es') (hkeys : es.keys.Nodup) :
    f.omissionReason? w es' = f.omissionReason? v es := by
  unfold omissionReason?
  cases hrule : f.omission with
  | none => rfl
  | some rule =>
    exact Omission.reason?_eq_of_reordered (isKnown_of_hasKnownRule hf hrule) hvw hes hkeys

/-! ## Resolution -/

namespace Registry

/-- More than two keys of a block name components. -/
def IsCrowded (r : Registry) (kind : Kind) (v : Value) : Prop :=
  ∃ es : Entries, v = .object es ∧ 3 ≤ (r.named kind es.keys).length

/-- The order of keys shows in nothing but the two names of an ambiguity. -/
theorem resolve_of_reordered (r : Registry) (kind : Kind) {v w : Value}
    (hv : v.hasDistinctKeys = true) (h : v.Reordered w) :
    r.resolve kind "" w = r.resolve kind "" v ∨
      r.IsCrowded kind v ∧ ∃ a b a' b', r.resolve kind "" v = .error (.ambiguous kind a b) ∧
        r.resolve kind "" w = .error (.ambiguous kind a' b') := by
  cases v with
  | object es =>
    obtain ⟨es', rfl, hes⟩ := h.exists_object
    have htext := hes.text?_eq (Value.hasDistinctKeys_object_iff.1 hv).1 "type"
    cases htype : Entries.text? es "type" with
    | some name =>
      rw [resolve_of_type htype, resolve_of_type (htext.trans htype)]
      exact .inl rfl
    | none =>
      rw [resolve_of_no_type htype, resolve_of_no_type (htext.trans htype)]
      refine (resolveKeys_of_perm hes.keys_perm).imp_right fun hcrowded => ?_
      exact ⟨⟨es, rfl, hcrowded.1⟩, hcrowded.2⟩
  | null | bool | number | string | array =>
    left
    cases h <;> rfl

end Registry

/-! ## Outcomes -/

/-- Two outcomes for blocks that differ in the order of keys: the values differ in the order of keys
only, and the errors are the same, or tell of different pairs of names in a crowded block. -/
inductive OutcomesAgree (crowded : Prop) :
    Except ResolveError Value → Except ResolveError Value → Prop
  | ok {v w : Value} (h : v.Reordered w) : OutcomesAgree crowded (.ok v) (.ok w)
  | error (e : ResolveError) : OutcomesAgree crowded (.error e) (.error e)
  | ambiguous (h : crowded) (kind : Kind) (a b a' b' : String) :
      OutcomesAgree crowded (.error (.ambiguous kind a b)) (.error (.ambiguous kind a' b'))

/-- A refused block stays as it is. -/
theorem OutcomesAgree.afterPruning {crowded : Prop} {result result' : Except ResolveError Value}
    (hagree : OutcomesAgree crowded result result') {v w : Value} (h : v.Reordered w) :
    (StreamConfig.afterPruning v result).Reordered (StreamConfig.afterPruning w result') := by
  cases hagree with
  | ok hresult => exact hresult
  | error | ambiguous => exact h

theorem outcomesAgree_pruneCondition {crowded : Prop} {v w : Value}
    (hv : v.hasDistinctKeys = true) (h : v.Reordered w) :
    OutcomesAgree crowded (pruneCondition v) (pruneCondition w) := by
  cases v with
  | object es =>
    obtain ⟨es', rfl, hes⟩ := h.exists_object
    have hget := hes.get? (Value.hasDistinctKeys_object_iff.1 hv).1 "type"
    unfold pruneCondition
    dsimp only
    generalize Entries.get? es "type" = here at hget ⊢
    generalize Entries.get? es' "type" = there at hget ⊢
    cases hget with
    | none => exact .ok h
    | some hvalue =>
      dsimp only
      rw [hvalue.text?_eq]
      apply OutcomesAgree.ok
      rw [Value.Reordered.object_iff]
      exact hes.filter fun _ _ _ _ _ => rfl
  | null | bool | number | string | array =>
    cases h <;> exact OutcomesAgree.error _

/-! ## One step -/

namespace Value

theorem reordered_overParts {f : Value → Value}
    (hf : ∀ v w : Value, v.hasDistinctKeys = true → v.Reordered w → (f v).Reordered (f w))
    (arity : Arity) {v w : Value} (hv : v.hasDistinctKeys = true) (h : v.Reordered w) :
    (v.overParts (m := Id) arity f).Reordered (w.overParts (m := Id) arity f) := by
  cases arity with
  | scalar => exact hf v w hv h
  | array =>
    cases h with
    | scalar hscalar =>
      cases v with
      | array => cases hscalar
      | null | bool | number | string | object => exact UpTo.scalar hscalar
    | array hitems =>
      rw [hasDistinctKeys_array_iff] at hv
      rw [overParts_array_id, overParts_array_id]
      apply UpTo.array
      rw [List.forall₂_map_left_iff, List.forall₂_map_right_iff]
      exact (List.forall₂_and_left _ _ |>.2 ⟨hv, hitems⟩).imp fun v w hvw => hf v w hvw.1 hvw.2
    | object hperm haligned => exact UpTo.object hperm haligned
  | map =>
    cases h with
    | scalar hscalar =>
      cases v with
      | object => cases hscalar
      | null | bool | number | string | array => exact UpTo.scalar hscalar
    | array hitems => exact UpTo.array hitems
    | object hperm haligned =>
      rw [hasDistinctKeys_object_iff] at hv
      rw [overParts_map_id, overParts_map_id, Reordered.object_iff]
      have hes : Entries.Reordered _ _ := ⟨_, hperm, haligned⟩
      apply hes.map
      · exact fun _ => rfl
      · exact fun _ => rfl
      · intro k v w hmem hvw
        exact hf v w (hv.2 _ hmem) hvw

end Value

section Step

variable {policy : Policy} {inner : Field → Value → Value} {r : Registry}
  (hthin : ∀ f (v : Value), v.ThinsTo (inner f v))
  (hinner : ∀ f (v w : Value), (∀ g ∈ f.family, g.HasKnownRule) → v.hasDistinctKeys = true →
    v.Reordered w → (inner f v).Reordered (inner f w))

include hinner

/-- A field's turn on objects that differ in the order of keys. -/
theorem reordered_pruneEntry {f : Field} (hf : ∀ g ∈ f.family, g.HasKnownRule) {es es' : Entries}
    (hdistinct : (Value.object es).hasDistinctKeys = true) (hes : es.Reordered es') :
    (pruneEntry policy inner es f).Reordered (pruneEntry policy inner es' f) := by
  obtain ⟨hkeys, hvalues⟩ := Value.hasDistinctKeys_object_iff.1 hdistinct
  have hmodify : (es.modify f.name (inner f)).Reordered (es'.modify f.name (inner f)) := by
    apply hes.map
    · intro e
      split <;> rfl
    · intro e
      split <;> rfl
    · intro k v w hmem hvw
      by_cases hk : k = f.name
      · simpa [hk] using hinner f v w hf (hvalues _ hmem) hvw
      · simpa [hk] using hvw
  unfold pruneEntry
  split
  · have hget := hes.get? hkeys f.name
    generalize es.get? f.name = here at hget ⊢
    generalize es'.get? f.name = there at hget ⊢
    cases hget with
    | none => exact hes
    | some hvalue =>
      -- the rule says the same of both
      have hrule := Field.omissionReason?_eq_of_reordered (hf f f.mem_family_self) hvalue hes hkeys
      dsimp only
      rw [hrule]
      split
      · exact hes.erase f.name
      · exact hmodify
  · exact hes.erase f.name

include hthin

theorem reordered_pruneFieldsStep {fields : List Field}
    (hfields : ∀ f ∈ fields, ∀ g ∈ f.family, g.HasKnownRule) {v w : Value}
    (hv : v.hasDistinctKeys = true) (h : v.Reordered w) :
    (pruneFieldsStep (m := Id) policy inner fields v).Reordered
      (pruneFieldsStep (m := Id) policy inner fields w) := by
  cases h with
  | scalar hscalar =>
    cases v with
    | object => cases hscalar
    | null | bool | number | string | array => exact Value.UpTo.scalar hscalar
  | array hitems => exact Value.UpTo.array hitems
  | @object es mid es' hperm haligned =>
    have hes : Entries.Reordered es es' := ⟨mid, hperm, haligned⟩
    rw [pruneFieldsStep_object, pruneFieldsStep_object, Value.Reordered.object_iff]
    clear hperm haligned
    induction fields generalizing es es' with
    | nil => exact hes
    | cons f rest ih =>
      have hf := hfields f List.mem_cons_self
      apply ih fun g hg => hfields g (List.mem_cons_of_mem _ hg)
      -- a turn leaves no key twice
      · exact (thinsTo_pruneEntry hthin f es).hasDistinctKeys hv
      · exact reordered_pruneEntry hinner hf hv hes

/-- The entries that stay are the same ones, and they are pruned alike. -/
theorem reordered_settledBlock {kind : Kind} {c : Component}
    (hc : ∀ g ∈ c.config.family, g.HasKnownRule) {es es' : Entries}
    (hdistinct : (Value.object es).hasDistinctKeys = true) (hes : es.Reordered es') :
    (settledBlock policy inner kind c es).Reordered (settledBlock policy inner kind c es') := by
  obtain ⟨hkeys, hvalues⟩ := Value.hasDistinctKeys_object_iff.1 hdistinct
  have hrules : ∀ {k f}, kind.reserved? k = some f → ∀ g ∈ f.family, g.HasKnownRule :=
    Kind.forall_mem_family_of_reserved? kind.hasKnownRule_of_mem_reservedFields
  have hstays : ∀ k (v w : Value), (k, v) ∈ es → v.Reordered w →
      survives kind c.name es (k, v) = survives kind c.name es' (k, w) := by
    intro k v w _ hvw
    unfold survives
    cases hreserved : kind.reserved? k with
    | none => rfl
    | some f =>
      have hf := hrules hreserved f f.mem_family_self
      simp only [Field.omissionReason?_eq_of_reordered hf hvw hes hkeys]
  have hentry : ∀ k (v w : Value), (k, v) ∈ es → v.Reordered w →
      (settledEntry inner kind c (k, v)).2.Reordered (settledEntry inner kind c (k, w)).2 := by
    intro k v w hmem hvw
    have hv := hvalues _ hmem
    unfold settledEntry
    -- a key that is both the own one and reserved has two turns
    by_cases hown : k = c.name
    · have hfirst := hinner c.config v w hc hv hvw
      simp only [hown, if_true]
      split
      next f hreserved =>
        apply hinner f _ _ (hrules hreserved) _ hfirst
        exact (hthin c.config v).hasDistinctKeys hv
      next => exact hfirst
    · simp only [hown, if_false]
      split
      next f hreserved => exact hinner f v w (hrules hreserved) hv hvw
      next => exact hvw
  have hblock : Entries.Reordered
      ((es.filter (survives kind c.name es)).map (settledEntry inner kind c))
      ((es'.filter (survives kind c.name es')).map (settledEntry inner kind c)) := by
    apply (hes.filter hstays).map
    · exact fun _ => rfl
    · exact fun _ => rfl
    · exact fun k v w hmem => hentry k v w (List.mem_filter.1 hmem).1
  unfold settledBlock
  split
  · exact hblock.erase "type"
  · exact hblock

variable (hrules : ∀ f ∈ r.fields, f.HasKnownRule)

include hrules

/-- The outcome for a component block. -/
theorem outcomesAgree_pruneComponentStep (kind : Kind) {v w : Value}
    (hv : v.hasDistinctKeys = true) (h : v.Reordered w) :
    OutcomesAgree (r.IsCrowded kind v)
      (pruneComponentStep (m := Id) policy r.resolver inner kind v)
      (pruneComponentStep (m := Id) policy r.resolver inner kind w) := by
  have halike : ∀ f (u : Value), u.Alike (inner f u) := fun f u => (hthin f u).alike
  by_cases hkind : kind = .condition
  · subst hkind
    show OutcomesAgree _ (pruneCondition v) (pruneCondition w)
    exact outcomesAgree_pruneCondition hv h
  · rcases r.resolve_of_reordered kind hv h with hsame | ⟨hcrowded, a, b, a', b', hhere, hthere⟩
    · cases hfound : r.resolve kind "" v with
      | error e =>
        rw [pruneComponentStep_error policy inner hkind hfound,
          pruneComponentStep_error policy inner hkind (hsame.trans hfound)]
        exact .error e
      | ok c =>
        obtain ⟨es, rfl⟩ := Registry.exists_object_of_resolve hfound
        obtain ⟨es', rfl, hes⟩ := h.exists_object
        rw [pruneComponentStep_ok policy inner halike hkind hfound,
          pruneComponentStep_ok policy inner halike hkind (hsame.trans hfound)]
        have hc : ∀ g ∈ c.config.family, g.HasKnownRule := fun g hg =>
          hrules g (Registry.mem_fields_of_get? (Registry.get?_of_resolve hfound) hg)
        apply OutcomesAgree.ok
        rw [Value.Reordered.object_iff]
        exact reordered_settledBlock hthin hinner hc hv hes
    · rw [pruneComponentStep_error policy inner hkind hhere,
        pruneComponentStep_error policy inner hkind hthere]
      exact .ambiguous hcrowded kind a b a' b'

theorem reordered_pruneNestedStep (kind : Kind) {v w : Value} (hv : v.hasDistinctKeys = true)
    (h : v.Reordered w) :
    (pruneNestedStep (m := Id) policy r.resolver inner kind v).Reordered
      (pruneNestedStep (m := Id) policy r.resolver inner kind w) := by
  rw [pruneNestedStep_eq_afterPruning, pruneNestedStep_eq_afterPruning]
  exact (outcomesAgree_pruneComponentStep hthin hinner hrules kind hv h).afterPruning h

theorem reordered_pruneFieldStep {f : Field} (hf : ∀ g ∈ f.family, g.HasKnownRule) {v w : Value}
    (hv : v.hasDistinctKeys = true) (h : v.Reordered w) :
    (pruneFieldStep (m := Id) policy r.resolver inner f v).Reordered
      (pruneFieldStep (m := Id) policy r.resolver inner f w) := by
  have hchildren : ∀ c ∈ f.children, ∀ g ∈ c.family, g.HasKnownRule := fun c hc g hg =>
    hf g (Field.mem_family_of_child hc hg)
  unfold pruneFieldStep
  cases f.type.kind? with
  | some kind =>
    apply Value.reordered_overParts _ f.arity hv h
    exact fun u u' hu hu' => reordered_pruneNestedStep hthin hinner hrules kind hu hu'
  | none =>
    dsimp only
    split
    · exact h
    · apply Value.reordered_overParts _ f.arity hv h
      exact fun u u' hu hu' => reordered_pruneFieldsStep hthin hinner hchildren hu hu'

end Step

/-! ## All levels -/

/-- By induction on levels. -/
theorem reordered_pruneFieldTo {r : Registry} (hrules : ∀ f ∈ r.fields, f.HasKnownRule)
    (policy : Policy) (n : Nat) {f : Field} (hf : ∀ g ∈ f.family, g.HasKnownRule) {v w : Value}
    (hv : v.hasDistinctKeys = true) (h : v.Reordered w) :
    (pruneFieldTo (m := Id) policy r.resolver n f v).Reordered
      (pruneFieldTo (m := Id) policy r.resolver n f w) := by
  induction n generalizing f v w with
  | zero => exact h
  | succ n ih =>
    apply reordered_pruneFieldStep (thinsTo_pruneFieldTo policy r n) _ hrules hf hv h
    exact fun g u u' hg hu hu' => ih hg hu hu'

/-- Two component blocks that differ in the order of keys are both pruned or both refused. What
stands in their places afterwards differs in the order of keys only, and the errors differ, if at
all, in the two names of an ambiguity among three or more. Values that are read from texts have
distinct keys. -/
theorem pruneComponent_reordered {r : Registry} (hrules : ∀ f ∈ r.fields, f.HasKnownRule)
    (policy : Policy) (kind : Kind) {v w : Value} (hv : v.hasDistinctKeys = true)
    (h : v.Reordered w) :
    let run u := ((policy.supplied (pruneComponent policy resolve kind u)).run r).1
    OutcomesAgree ((policy.registry r).refreshed.IsCrowded kind v) (run v) (run w) ∧
      (afterPruning v (run v)).Reordered (afterPruning w (run w)) := by
  intro run
  have hstill : ∀ u, run u = pruneComponent (m := Id) policy
      (policy.registry r).refreshed.resolver kind u :=
    fun u => ((Snapshot.pruneComponent policy kind u).supplied policy r).1
  have hregistry : ∀ f ∈ (policy.registry r).refreshed.fields, f.HasKnownRule :=
    Registry.forall_mem_fields_supplied (by decide) Builtin.hasKnownRule_of_mem_fields hrules policy
  have hagree : OutcomesAgree ((policy.registry r).refreshed.IsCrowded kind v) (run v) (run w) := by
    rw [hstill, hstill]
    unfold pruneComponent
    -- both blocks are pruned down to the same depth
    rw [← h.depth_eq]
    apply outcomesAgree_pruneComponentStep (thinsTo_pruneFieldTo policy _ _) _ hregistry kind hv h
    exact fun f u u' hf hu hu' => reordered_pruneFieldTo hregistry policy _ hf hu hu'
  exact ⟨hagree, hagree.afterPruning h⟩

/-- An input with a processor inside, written with the keys of every object the other way round. The
`type` of the processor goes, and the order of keys makes no difference to that. -/
theorem pruneComponent_reordered_stdin :
    let policy : Policy := { Policy.keepAll with removeTypeField := true }
    let v : Value := .object
      [("stdin", .object [("codec", .string "lines"), ("max_buffer", .number (.int 0))]),
       ("processors", .array [.object [("type", .string "noop"), ("noop", .null)]])]
    let w : Value := .object
      [("processors", .array [.object [("noop", .null), ("type", .string "noop")]]),
       ("stdin", .object [("max_buffer", .number (.int 0)), ("codec", .string "lines")])]
    let run u := ((policy.supplied (pruneComponent policy resolve .input u)).run Builtin.registry).1
    v.Reordered w ∧
      run w = .ok (.object
        [("processors", .array [.object [("noop", .null)]]),
         ("stdin", .object [("max_buffer", .number (.int 0)), ("codec", .string "lines")])]) ∧
      OutcomesAgree (Builtin.registry.IsCrowded .input v) (run v) (run w) ∧
      (afterPruning v (run v)).Reordered (afterPruning w (run w)) := by
  intro policy v w run
  have hreordered : v.Reordered w := by
    have hstdin : Entries.Reordered [("codec", .string "lines"), ("max_buffer", .number (.int 0))]
        [("max_buffer", .number (.int 0)), ("codec", .string "lines")] :=
      ⟨_, .swap _ _ _, .cons _ (.scalar rfl) (.cons _ (.scalar rfl) .nil)⟩
    have hnoop : Entries.Reordered [("type", .string "noop"), ("noop", .null)]
        [("noop", .null), ("type", .string "noop")] :=
      ⟨_, .swap _ _ _, .cons _ (.scalar rfl) (.cons _ (.scalar rfl) .nil)⟩
    rw [Value.Reordered.object_iff]
    refine ⟨_, .swap _ _ _, .cons _ ?_ (.cons _ ?_ .nil)⟩
    · exact .array (.cons (Value.Reordered.object_iff.2 hnoop) .nil)
    · exact Value.Reordered.object_iff.2 hstdin
  exact ⟨hreordered, rfl, pruneComponent_reordered Builtin.hasKnownRule_of_mem_fields policy .input
    (by decide) hreordered⟩

/-- In a crowded block the order of keys does show in the error. -/
example :
    let run (keys : List String) := Builtin.registry.resolve .input ""
      (.object (keys.map fun k => (k, .null)))
    run ["stdin", "file", "resource"] = .error (.ambiguous .input "file" "stdin") ∧
      run ["resource", "file", "stdin"] = .error (.ambiguous .input "file" "resource") :=
  ⟨rfl, rfl⟩

end StreamConfig
