import StreamConfig.Proofs.Linting.Counting
import StreamConfig.Proofs.Linting.StandingStill
import StreamConfig.Proofs.Pruning.StandingStill
import StreamConfig.Proofs.Schema.Fields
import StreamConfig.Proofs.Schema.Resolution
import StreamConfig.Proofs.Value.Depth

/-! # Two walks side by side

The remarks of a walk are those on the parts, one after the other. So two walks leave related
remarks, on the same value or on a value and what pruning makes of it, if they do so on all parts.

* `WalkRelation` — relations that can be carried from the parts to the whole
* `WalkRelation.entries`, `WalkRelation.items`, `WalkRelation.parts` — one list of parts
* `FieldRelation` — such relations between what fields themselves have to say
* `FieldRelation.remarksOn` — the remarks on a value, and those with more levels than it is deep
* `remarksOn_eq` — more levels than a value is deep make no difference to the remarks on it
* `FieldRelation.ofLinters` — a property of remarks that findings have and good linters have;
  `isSteady_of_mem_remarksOn`, that linters are steady where those of the registry are
-/

namespace StreamConfig

/-- A relation between remarks that can be carried from parts to wholes. -/
structure WalkRelation (R : List Remark → List Remark → Prop) : Prop where
  nil : R [] []
  append {xs ys xs' ys' : List Remark} (h : R xs ys) (h' : R xs' ys') : R (xs ++ xs') (ys ++ ys')
  error (place : Pointer) (text : String) : R [.error place text] [.error place text]

namespace WalkRelation

variable {R : List Remark → List Remark → Prop} (hR : WalkRelation R)

include hR

/-- An object some of whose entries have gone, beside the object as it was. -/
theorem entries {g g' : String → Pointer → Value → List Remark} (keep : String × Value → Bool)
    (change : String × Value → String × Value) (hkey : ∀ e, (change e).1 = e.1) {es : Entries}
    (hstay : ∀ e ∈ es, keep e = true → ∀ q, R (g e.1 q (change e).2) (g' e.1 q e.2))
    (hgo : ∀ e ∈ es, keep e = false → ∀ q, R [] (g' e.1 q e.2)) (p : Pointer) :
    R (remarkEntries (m := Id) p g ((es.filter keep).map change))
      (remarkEntries (m := Id) p g' es) := by
  induction es with
  | nil => exact hR.nil
  | cons e rest ih =>
    obtain ⟨k, v⟩ := e
    have hrest := ih (fun e he => hstay e (List.mem_cons_of_mem _ he))
      fun e he => hgo e (List.mem_cons_of_mem _ he)
    rw [remarkEntries_id_cons]
    cases hkeep : keep (k, v) with
    | true =>
      have hhead : change (k, v) = (k, (change (k, v)).2) := Prod.ext (hkey _) rfl
      rw [List.filter_cons_of_pos hkeep, List.map_cons, hhead, remarkEntries_id_cons]
      exact hR.append (hstay _ List.mem_cons_self hkeep _) hrest
    | false =>
      rw [List.filter_cons_of_neg (by simp [hkeep])]
      have hdropped := hR.append (hgo _ List.mem_cons_self hkeep (p.child k)) hrest
      rwa [List.nil_append] at hdropped

theorem entriesMap {g g' : String → Pointer → Value → List Remark}
    (change : String × Value → String × Value) (hkey : ∀ e, (change e).1 = e.1) {es : Entries}
    (h : ∀ e ∈ es, ∀ q, R (g e.1 q (change e).2) (g' e.1 q e.2)) (p : Pointer) :
    R (remarkEntries (m := Id) p g (es.map change)) (remarkEntries (m := Id) p g' es) := by
  have hall := hR.entries (fun _ => true) change hkey (fun e he _ => h e he)
    (fun _ _ hfalse => nomatch hfalse) p
  rwa [List.filter_true] at hall

theorem entriesSame {g g' : String → Pointer → Value → List Remark} {es : Entries}
    (h : ∀ e ∈ es, ∀ q, R (g e.1 q e.2) (g' e.1 q e.2)) (p : Pointer) :
    R (remarkEntries (m := Id) p g es) (remarkEntries (m := Id) p g' es) := by
  have hmap := hR.entriesMap id (fun _ => rfl) h p
  rwa [List.map_id] at hmap

theorem items {g g' : Pointer → Value → List Remark} {f : Value → Value} {vs : List Value}
    (h : ∀ v ∈ vs, ∀ q, R (g q (f v)) (g' q v)) (p : Pointer) (index : Nat) :
    R (remarkItems (m := Id) p g index (vs.map f)) (remarkItems (m := Id) p g' index vs) := by
  induction vs generalizing index with
  | nil => exact hR.nil
  | cons v rest ih =>
    rw [List.map_cons, remarkItems_id_cons, remarkItems_id_cons]
    apply hR.append
    · exact h v List.mem_cons_self _
    · exact ih (fun w hw => h w (List.mem_cons_of_mem _ hw)) _

theorem itemsSame {g g' : Pointer → Value → List Remark} {vs : List Value}
    (h : ∀ v ∈ vs, ∀ q, R (g q v) (g' q v)) (p : Pointer) (index : Nat) :
    R (remarkItems (m := Id) p g index vs) (remarkItems (m := Id) p g' index vs) := by
  have hmap := hR.items (f := id) h p index
  rwa [List.map_id] at hmap

/-- What a field holds, beside what it held. A value of the wrong shape is an error both times. -/
theorem parts {g g' : Pointer → Value → List Remark} {f : Value → Value} {v : Value}
    (h : ∀ w : Value, w.depth ≤ v.depth → ∀ q, R (g q (f w)) (g' q w)) (name : String)
    (arity : Arity) (p : Pointer) :
    R (remarkParts (m := Id) name arity g p (v.overParts (m := Id) arity f))
      (remarkParts (m := Id) name arity g' p v) := by
  cases arity with
  | scalar => exact h v (Nat.le_refl _) p
  | array =>
    cases v with
    | array vs =>
      rw [Value.overParts_array_id]
      refine hR.items (fun w hw q => ?_) p 0
      have hdepth := Value.depth_lt_of_mem_array hw
      exact h w (by omega) q
    | null | bool | number | string | object => exact hR.error _ _
  | map =>
    cases v with
    | object es =>
      rw [Value.overParts_map_id]
      apply hR.entriesMap (fun e => (e.1, f e.2)) fun _ => rfl
      intro e he q
      have hdepth := Value.depth_lt_of_mem_object he
      exact h e.2 (by omega) q
    | null | bool | number | string | array => exact hR.error _ _

end WalkRelation

theorem Value.overParts_id (arity : Arity) (v : Value) :
    v.overParts (m := Id) arity (fun w => w) = v := by
  cases arity with
  | scalar => rfl
  | array =>
    cases v with
    | array vs => rw [overParts_array_id, List.map_id']
    | null | bool | number | string | object => rfl
  | map =>
    cases v with
    | object es =>
      rw [overParts_map_id]
      exact congrArg Value.object (List.map_id es)
    | null | bool | number | string | array => rfl

/-! ## Levels -/

/-- A walk relation that holds of what fields have to say, as long as they are good ones. The
reserved fields are, and those of a registry have to be. -/
structure FieldRelation (R : List Remark → List Remark → Prop) (good : Field → Prop) : Prop
    extends WalkRelation R where
  warning (place : Pointer) (text : String) : R [.warning place text] [.warning place text]
  ownRemarks {f : Field} (hf : good f) (p : Pointer) (v : Value) :
    R (f.ownRemarks p v) (f.ownRemarks p v)
  reserved (kind : Kind) : ∀ f ∈ kind.reservedFields, good f

namespace FieldRelation

variable {R : List Remark → List Remark → Prop} {good : Field → Prop} (hR : FieldRelation R good)

include hR

theorem omissionRemarks (f : Field) (p : Pointer) (v : Value) (es : Entries) :
    R (f.omissionRemarks p v es) (f.omissionRemarks p v es) := by
  unfold Field.omissionRemarks
  split
  · exact hR.warning p _
  · exact hR.nil

section Step

variable {r : Registry} {g g' : Field → Pointer → Value → List Remark} {n : Nat}
  (hr : ∀ f ∈ r.fields, good f)
  (hinner : ∀ f p (v : Value), (∀ h ∈ f.family, good h) → v.depth < n → R (g f p v) (g' f p v))

include hinner

theorem lintChildrenStep {f : Field} (hf : ∀ h ∈ f.family, good h) (p : Pointer) {v : Value}
    (hv : v.depth ≤ n) :
    R (lintChildrenStep (m := Id) g f p v) (lintChildrenStep (m := Id) g' f p v) := by
  cases v with
  | object es =>
    apply hR.entriesSame
    intro e he q
    have hdepth := Value.depth_lt_of_mem_object he
    cases hchild : f.child? e.1 with
    | none => exact hR.warning q _
    | some c =>
      apply hinner c q e.2 _ (by omega)
      exact fun h hh => hf h (Field.mem_family_of_child (List.mem_of_find?_eq_some hchild) hh)
  | null | bool | number | string | array => exact hR.error _ _

include hr

theorem lintComponentStep (kind : Kind) (p : Pointer) {v : Value} (hv : v.depth ≤ n) :
    R (lintComponentStep (m := Id) r.resolver g kind p v)
      (lintComponentStep (m := Id) r.resolver g' kind p v) := by
  cases hfound : r.resolve kind kind.defaultName v with
  | error e =>
    rw [lintComponentStep_error g hfound, lintComponentStep_error g' hfound]
    exact hR.error _ _
  | ok c =>
    obtain ⟨es, rfl⟩ := Registry.exists_object_of_resolve hfound
    rw [lintComponentStep_ok g hfound, lintComponentStep_ok g' hfound]
    apply hR.entriesSame
    intro e he q
    have hdepth := Value.depth_lt_of_mem_object he
    rw [lintComponentEntryStep_id, lintComponentEntryStep_id]
    split
    · obtain ⟨name, hname⟩ := Registry.exists_get?_of_resolve hfound
      apply hinner c.config q e.2 _ (by omega)
      exact fun f hf => hr f (Registry.mem_fields_of_get? hname hf)
    · split
      next f hreserved =>
        apply hR.append (hR.omissionRemarks f q e.2 es)
        apply hinner f q e.2 _ (by omega)
        exact Kind.forall_mem_family_of_reserved? (hR.reserved kind) hreserved
      next => exact hR.warning q _

theorem lintFieldStep {f : Field} (hf : ∀ h ∈ f.family, good h) (p : Pointer) {v : Value}
    (hv : v.depth ≤ n) :
    R (lintFieldStep (m := Id) r.resolver g f p v)
      (lintFieldStep (m := Id) r.resolver g' f p v) := by
  have hparts : ∀ {part part' : Pointer → Value → List Remark},
      (∀ w : Value, w.depth ≤ v.depth → ∀ q, R (part q w) (part' q w)) →
      R (remarkParts (m := Id) f.name f.arity part p v)
        (remarkParts (m := Id) f.name f.arity part' p v) := by
    intro part part' h
    have hwhole := hR.parts (f := fun w => w) h f.name f.arity p
    rwa [Value.overParts_id] at hwhole
  rw [lintFieldStep_id, lintFieldStep_id]
  apply hR.append (hR.ownRemarks (hf f f.mem_family_self) p v)
  cases f.type.kind? with
  | some kind =>
    apply hparts
    exact fun w hw q => hR.lintComponentStep hr hinner kind q (by omega)
  | none =>
    dsimp only
    split
    · exact hR.nil
    · apply hparts
      exact fun w hw q => hR.lintChildrenStep hinner hf q (by omega)

theorem lintComponentsStep (kind : Kind) (p : Pointer) {v : Value} (hv : v.depth ≤ n) :
    R (lintComponentsStep (m := Id) r.resolver g kind p v)
      (lintComponentsStep (m := Id) r.resolver g' kind p v) := by
  cases v with
  | array vs =>
    apply hR.itemsSame
    intro w hw q
    have hdepth := Value.depth_lt_of_mem_array hw
    exact hR.lintComponentStep hr hinner kind q (by omega)
  | null | bool | number | string | object => exact hR.error _ _

theorem lintPipelineStep (p : Pointer) {v : Value} (hv : v.depth ≤ n) :
    R (lintPipelineStep (m := Id) r.resolver g p v)
      (lintPipelineStep (m := Id) r.resolver g' p v) := by
  cases v with
  | object es =>
    apply hR.entriesSame
    intro e he q
    have hdepth := Value.depth_lt_of_mem_object he
    split
    · exact hR.lintComponentsStep hr hinner .processor q (by omega)
    · split
      · split
        · exact hR.nil
        · exact hR.error _ _
      · exact hR.warning q _
  | null | bool | number | string | array => exact hR.error _ _

theorem lintRootStep {v : Value} (hv : v.depth ≤ n) :
    R (lintRootStep (m := Id) r.resolver g v) (lintRootStep (m := Id) r.resolver g' v) := by
  cases v with
  | object es =>
    apply hR.entriesSame
    intro e he q
    have hdepth := Value.depth_lt_of_mem_object he
    split
    · exact hR.lintComponentStep hr hinner _ q (by omega)
    · exact hR.lintComponentsStep hr hinner _ q (by omega)
    · exact hR.lintPipelineStep hr hinner q (by omega)
    · exact hR.warning q _
  | null | bool | number | string | array => exact hR.error _ _

end Step

variable {r : Registry} (hr : ∀ f ∈ r.fields, good f)

include hr

/-- By induction on levels: once they are more than the value is deep, their number does not
matter. -/
theorem lintFieldTo {n n' : Nat} {f : Field} (hf : ∀ h ∈ f.family, good h) (p : Pointer) {v : Value}
    (hn : v.depth < n) (hn' : v.depth < n') :
    R (lintFieldTo (m := Id) r.resolver n f p v) (lintFieldTo (m := Id) r.resolver n' f p v) := by
  induction n generalizing n' f p v with
  | zero => omega
  | succ n ih =>
    cases n' with
    | zero => omega
    | succ n' =>
      apply hR.lintFieldStep hr (n := v.depth) _ hf p (Nat.le_refl _)
      exact fun f p w hf hw => ih hf p (by omega) (by omega)

theorem lintComponent (kind : Kind) (p : Pointer) {v : Value} {n : Nat} (hn : v.depth ≤ n) :
    R (lintComponent (m := Id) r.resolver kind p v)
      (StreamConfig.lintComponentStep (m := Id) r.resolver
        (StreamConfig.lintFieldTo (m := Id) r.resolver n) kind p v) :=
  hR.lintComponentStep hr (fun _ p _ hf hw => hR.lintFieldTo hr hf p hw (by omega)) kind p
    (Nat.le_refl _)

theorem remarksOn {v : Value} {n : Nat} (hn : v.depth ≤ n) :
    R (remarksOn (m := Id) r.resolver v)
      (StreamConfig.lintRootStep (m := Id) r.resolver
        (StreamConfig.lintFieldTo (m := Id) r.resolver n) v) :=
  hR.lintRootStep hr (fun _ p _ hf hw => hR.lintFieldTo hr hf p hw (by omega)) (Nat.le_refl _)

end FieldRelation

/-! ## Single remarks -/

/-- The only linter among the reserved fields is that of labels. -/
theorem Kind.linter_of_mem_reservedFields {kind : Kind} {f : Field} (hf : f ∈ kind.reservedFields)
    {linter : Linter} (hlinter : f.linter = some linter) : linter = .label := by
  simp only [reservedFields, List.mem_append, List.mem_singleton] at hf
  rcases hf with ((hlabel | rfl) | hprocessors) | rfl
  · split at hlabel
    · rw [List.mem_singleton.1 hlabel] at hlinter
      exact (Option.some.inj hlinter).symm
    · cases hlabel
  · cases hlinter
  · split at hprocessors
    · rw [List.mem_singleton.1 hprocessors] at hlinter
      cases hlinter
    · cases hprocessors
  · cases hlinter

/-- What holds of every finding, and of what the linters of good fields are left to report, holds of
all remarks. Only one of the two lists is looked at. -/
theorem FieldRelation.ofLinters {ok : Remark → Prop} {good : Linter → Prop}
    (hfinding : ∀ place level text, ok (.finding place level text))
    (hcheck : ∀ place linter v, good linter → ok (.check place linter v)) (hlabel : good .label) :
    FieldRelation (fun rs _ => ∀ x ∈ rs, ok x)
      fun f => ∀ linter, f.linter = some linter → good linter where
  nil _ hx := nomatch hx
  append h h' x hx := (List.mem_append.1 hx).elim (h x) (h' x)
  error place text := by
    intro x hx
    obtain rfl := List.mem_singleton.1 hx
    exact hfinding place .error text
  warning place text := by
    intro x hx
    obtain rfl := List.mem_singleton.1 hx
    exact hfinding place .warning text
  ownRemarks {f} hf p v := by
    unfold Field.ownRemarks
    split
    next linter hlinter =>
      intro x hx
      obtain rfl := List.mem_singleton.1 hx
      exact hcheck p linter v (hf linter hlinter)
    next => exact fun _ hx => nomatch hx
  reserved _ _ hf linter hlinter := by
    rw [Kind.linter_of_mem_reservedFields hf hlinter]
    exact hlabel

/-! ## The same remarks -/

theorem FieldRelation.eq : FieldRelation Eq fun _ => True where
  nil := rfl
  append h h' := h ▸ h' ▸ rfl
  error _ _ := rfl
  warning _ _ := rfl
  ownRemarks _ _ _ := rfl
  reserved _ _ _ := trivial

section Levels

variable {r : Registry} {v : Value} {n : Nat}

theorem lintComponent_eq (kind : Kind) (p : Pointer) (hn : v.depth ≤ n) :
    lintComponent (m := Id) r.resolver kind p v =
      lintComponentStep (m := Id) r.resolver (lintFieldTo (m := Id) r.resolver n) kind p v :=
  FieldRelation.eq.lintComponent (fun _ _ => trivial) kind p hn

theorem remarksOn_eq (hn : v.depth ≤ n) :
    remarksOn (m := Id) r.resolver v =
      lintRootStep (m := Id) r.resolver (lintFieldTo (m := Id) r.resolver n) v :=
  FieldRelation.eq.remarksOn (fun _ _ => trivial) hn

end Levels

/-! ## Steady linters -/

/-- Every linter of the field is steady. -/
def Field.IsSteady (f : Field) : Prop := ∀ linter, f.linter = some linter → linter.IsSteady

theorem isSteady_of_mem_remarksOn {r : Registry} (hr : ∀ f ∈ r.fields, f.IsSteady) (v : Value)
    {x : Remark} (hx : x ∈ (remarksOn (m := Id) r.resolver v).run) : x.IsSteady :=
  (FieldRelation.ofLinters (fun _ _ _ => trivial) (fun _ _ _ h => h) trivial).remarksOn hr
    (Nat.le_refl v.depth) x hx

end StreamConfig
