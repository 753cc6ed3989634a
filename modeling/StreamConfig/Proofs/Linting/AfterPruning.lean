import StreamConfig.Proofs.Linting.Walks
import StreamConfig.Proofs.Pruning.Remains
import StreamConfig.Proofs.Pruning.Typed

/-! # Linting what pruning has left

Pruning and linting are two walks that decide for themselves where to go: linting knows defaults,
pruning passes by what it cannot resolve. Still, as long as `type` keys stay, linting goes the same
way through a pruned block as through the block before it was pruned. So in a pruned block it has
nothing to say against any key, and apart from that it says no more than it would have said before.

* `Remark.IsComplaint` — what linting says against keys of a block
* `Calm` — the relation between the remarks on what is left and those on what was there
* `calm_lintFieldTo` — by induction on levels, what fields hold
* `Opening` — documents with a place for a block
* `lint_pruned` — the document with a pruned block, beside the one with the block as it was
* `lint_pruned_needs` — linters that change the level of what they find, and other components
-/

namespace StreamConfig

/-! ## Complaints -/

namespace Remark

/-- A warning against a key of a block: it has no place there, or it is reserved and of no use. -/
def IsComplaint : Remark → Prop
  | .finding _ .warning text =>
    (∃ (k name : String) (kind : Kind), text = "field " ++ k ++
      " is invalid when the component type is " ++ name ++ " (" ++ kind.name ++ ")") ∨
    ∃ (kind : Kind) (k : String) (f : Field) (v : Value) (es : Entries),
      kind.reserved? k = some f ∧ f.omissionReason? v es = some text
  | _ => False

/-- Texts with different endings. -/
theorem append_ne_append (n : Nat) {a b c d : String}
    (h : b.toList.reverse.take n ≠ d.toList.reverse.take n) (hb : n ≤ b.toList.length)
    (hd : n ≤ d.toList.length) : a ++ b ≠ c ++ d := by
  intro heq
  apply h
  have hlists := congrArg (fun s : String => s.toList.reverse.take n) heq
  simpa [String.toList_append, List.reverse_append, List.take_append_of_le_length, hb, hd]
    using hlists

end Remark

/-- The reasons that rules of reserved fields give. -/
theorem Kind.reason_of_reserved? {kind : Kind} {k : String} {f : Field}
    (h : kind.reserved? k = some f) {v : Value} {es : Entries} {reason : String}
    (hreason : f.omissionReason? v es = some reason) :
    reason = "label field should be omitted when pointing to a resource" ∨
      reason = "field processors is empty and can be removed" := by
  unfold Field.omissionReason? at hreason
  rcases omission_of_reserved? h with hf | hf | hf
  · rw [hf] at hreason
    cases hreason
  · simp only [hf, Option.bind_some, Omission.reason?] at hreason
    split at hreason
    · exact .inl (Option.some.inj hreason).symm
    · cases hreason
  · simp only [hf, Option.bind_some, Omission.reason?] at hreason
    split at hreason
    · exact .inr (Option.some.inj hreason).symm
    · cases hreason

/-- A key of an object that no field describes is not the key of a block. -/
theorem Remark.not_isComplaint_unrecognised (p : Pointer) (k : String) :
    ¬ (Remark.warning p ("field " ++ k ++ " not recognised")).IsComplaint := by
  intro h
  rcases h with ⟨k', name, kind, heq⟩ | ⟨kind, k', f, v, es, hf, hreason⟩
  · exact append_ne_append 1 (by decide) (by decide) (by decide) heq
  · rcases Kind.reason_of_reserved? hf hreason with heq | heq
    · have hending : ("label field should be omitted when pointing to a resource" : String) =
          "label field should be omitted when pointing to a re" ++ "source" := by decide
      exact append_ne_append 3 (by decide) (by decide) (by decide) (heq.trans hending)
    · have hending : ("field processors is empty and can be removed" : String) =
          "field processors is empty and can be re" ++ "moved" := by decide
      exact append_ne_append 3 (by decide) (by decide) (by decide) (heq.trans hending)

/-! ## What is said of a pruned value -/

/-- Some of the remarks that there were, with no complaint among them. -/
structure Calm (rs rs' : List Remark) : Prop where
  echoes : List.SublistForall₂ Remark.Echoes rs rs'
  quiet : ∀ x ∈ rs, ¬ x.IsComplaint

namespace Calm

theorem nothing (rs : List Remark) : Calm [] rs := ⟨.nil, fun _ hx => nomatch hx⟩

theorem single {x y : Remark} (hxy : x.Echoes y) (hx : ¬ x.IsComplaint) : Calm [x] [y] := by
  refine ⟨.cons hxy .nil, fun z hz => ?_⟩
  obtain rfl := List.mem_singleton.1 hz
  exact hx

theorem walkRelation : WalkRelation Calm where
  nil := nothing []
  append h h' := by
    refine ⟨Remark.sublistForall₂_append h.echoes h'.echoes, fun x hx => ?_⟩
    exact (List.mem_append.1 hx).elim (h.quiet x) (h'.quiet x)
  error place text := single (.refl _) fun h => h

theorem ownRemarks (f : Field) (p : Pointer) {v w : Value} (h : v.Alike w) :
    Calm (f.ownRemarks p w) (f.ownRemarks p v) := by
  unfold Field.ownRemarks
  split
  · exact single (.check p _ h) fun hcomplaint => hcomplaint
  · exact nothing _

end Calm

/-- The field holds no conditions. Pruning and linting read these differently. -/
def Field.HoldsNoCondition (f : Field) : Prop := f.type ≠ .component .condition

instance (f : Field) : Decidable f.HoldsNoCondition := inferInstanceAs (Decidable (¬ _))

theorem FieldType.kind?_eq_some {type : FieldType} {kind : Kind} :
    type.kind? = some kind ↔ type = .component kind := by
  cases type <;> simp [kind?]

theorem Kind.holdsNoCondition_of_mem_reservedFields (kind : Kind) :
    ∀ f ∈ kind.reservedFields, f.HoldsNoCondition := by
  cases kind <;> decide

section Step

variable {policy : Policy} {r : Registry} {prune : Field → Value → Value}
  {lint : Field → Pointer → Value → List Remark} {n : Nat}
  (hprune : ∀ f (v : Value), v.Alike (prune f v))
  (hinner : ∀ f p (v : Value), f.isRegular = true → (∀ g ∈ f.family, g.HoldsNoCondition) →
    v.depth < n → Calm (lint f p (prune f v)) (lint f p v))

include hinner

/-- An object with known fields: what no field describes stays, and what is said of it is no
complaint. -/
theorem calm_lintChildrenStep {f : Field} (hf : f.isRegular = true)
    (hfamily : ∀ g ∈ f.family, g.HoldsNoCondition) (p : Pointer) {v : Value} (hv : v.depth ≤ n) :
    Calm (lintChildrenStep (m := Id) lint f p (pruneFieldsStep (m := Id) policy prune f.children v))
      (lintChildrenStep (m := Id) lint f p v) := by
  obtain ⟨-, hnames, hchildren⟩ := Field.isRegular_iff.1 hf
  cases v with
  | object es =>
    obtain ⟨keep, -, hfold⟩ := foldl_pruneEntry_eq policy prune hnames es
    rw [pruneFieldsStep_object, hfold]
    apply Calm.walkRelation.entries (fun e => keep e.1) (knownEntry prune f.children)
      (knownEntry_fst prune f.children)
    · intro e he _ q
      have hdepth := Value.depth_lt_of_mem_object he
      cases hchild : f.child? e.1 with
      | none =>
        exact .single (.refl _) (Remark.not_isComplaint_unrecognised q e.1)
      | some g =>
        have hfind : f.children.find? (fun g => g.name == e.1) = some g := hchild
        have hg := List.mem_of_find?_eq_some hchild
        simp only [hfind, knownEntry]
        apply hinner g q e.2 (hchildren g hg) _ (by omega)
        exact fun h hh => hfamily h (Field.mem_family_of_child hg hh)
    · exact fun _ _ _ _ => .nothing _
  | null | bool | number | string | array => exact Calm.walkRelation.error _ _

variable (hr : r.IsRegular) (hcondition : ∀ f ∈ r.fields, f.HoldsNoCondition)
  (hfree : ∀ f p (v : Value), f.demand? = none → Calm (lint f p v) (lint f p v))

include hr

omit hinner in
include hfree in
/-- A block that denotes a component only by default has reserved keys only, and the kinds with
defaults do not reserve any key that could be of no use. -/
theorem calm_lintComponentStep_default {kind : Kind} {c : Component}
    (hc : r.get? kind kind.defaultName = some c) (hdefault : kind.defaultName ≠ "") {es : Entries}
    (hreserved : ∀ e ∈ es, kind.isReserved e.1 = true) (p : Pointer) :
    Calm (remarkEntries (m := Id) p (lintComponentEntryStep (m := Id) lint c kind es) es)
      (remarkEntries (m := Id) p (lintComponentEntryStep (m := Id) lint c kind es) es) := by
  have hplain : ∀ f ∈ kind.reservedFields, f.demand? = none ∧ f.omission = none := by
    cases kind <;> first | exact absurd rfl hdefault | decide
  apply Calm.walkRelation.entriesSame
  intro e he q
  have hkey := hreserved e he
  have hne : e.1 ≠ c.name := by
    intro hname
    rw [hname, hr.name_of_get? hc] at hkey
    cases hkey
  obtain ⟨f, hf⟩ := Option.isSome_iff_exists.1 hkey
  obtain ⟨hdemand, homission⟩ := hplain f (List.mem_of_find?_eq_some hf)
  rw [lintComponentEntryStep_id, if_neg hne, hf]
  apply Calm.walkRelation.append _ (hfree f q e.2 hdemand)
  simpa [Field.omissionRemarks, Field.omissionReason?, homission] using Calm.nothing []

include hprune hcondition

/-- An entry that stays in a block. -/
theorem calm_lintComponentEntryStep {kind : Kind} {c : Component}
    (hc : r.get? kind c.name = some c) {es block : Entries}
    (hblock : settledBlock policy prune kind c es = block) {k : String} {v : Value}
    (hv : v.depth < n) (hmem : settledEntry prune kind c (k, v) ∈ block) (p : Pointer) :
    Calm (lintComponentEntryStep (m := Id) lint c kind block k p
        (settledEntry prune kind c (k, v)).2)
      (lintComponentEntryStep (m := Id) lint c kind es k p v) := by
  rw [lintComponentEntryStep_id, lintComponentEntryStep_id]
  by_cases hown : k = c.name
  · subst hown
    rw [if_pos rfl, if_pos rfl, settledEntry_own (hr.name_of_get? hc)]
    apply hinner c.config p v (hr.config_of_get? hc) _ hv
    exact fun f hf => hcondition f (Registry.mem_fields_of_get? hc hf)
  · -- a reserved key, and what is left of it is of use in what is left of the block
    obtain ⟨f, hf, hreason⟩ :=
      (reserved_of_mem_settledBlock hprune (hblock ▸ hmem)).resolve_left hown
    have hquiet : f.omissionRemarks p (settledEntry prune kind c (k, v)).2 block = [] := by
      simp [Field.omissionRemarks, ← hblock, hreason]
    have hkey : kind.reserved? k = some f := hf
    rw [if_neg hown, if_neg hown, hkey]
    dsimp only
    rw [hquiet, settledEntry_reserved hown hkey]
    apply Calm.walkRelation.append (.nothing _)
    apply hinner f p v (Kind.isRegular_of_reserved? hkey) _ hv
    exact Kind.forall_mem_family_of_reserved? kind.holdsNoCondition_of_mem_reservedFields hkey

include hfree

theorem calm_lintComponentStep (htype : policy.removeTypeField = false) {kind : Kind}
    (hkind : kind ≠ .condition) (p : Pointer) {v : Value} (hv : v.depth ≤ n) :
    Calm (lintComponentStep (m := Id) r.resolver lint kind p
        (pruneNestedStep (m := Id) policy r.resolver prune kind v))
      (lintComponentStep (m := Id) r.resolver lint kind p v) := by
  cases hfound : r.resolve kind "" v with
  | error e =>
    -- the block stays as it is, and denotes something only by default
    rw [pruneNestedStep_error policy prune hkind hfound]
    cases hlinted : r.resolve kind kind.defaultName v with
    | error e =>
      rw [lintComponentStep_error lint hlinted]
      exact Calm.walkRelation.error _ _
    | ok c =>
      rcases Registry.resolve_default hlinted with hsame | ⟨⟨hc, hdefault⟩, es, rfl, hreserved⟩
      · rw [hfound] at hsame
        cases hsame
      · rw [lintComponentStep_ok lint hlinted]
        exact calm_lintComponentStep_default hr hfree hc hdefault hreserved p
  | ok c =>
    -- linting takes the block for the same component before and after
    obtain ⟨es, rfl⟩ := Registry.exists_object_of_resolve hfound
    have hagain := Registry.resolve_settledBlock_of_keepsType hprune htype hfound
    rw [pruneNestedStep_ok policy prune hprune hkind hfound,
      lintComponentStep_ok lint (Registry.resolve_of_resolve hagain _),
      lintComponentStep_ok lint (Registry.resolve_of_resolve hfound _)]
    generalize hblock : settledBlock policy prune kind c es = block
    have hentries := hblock.symm.trans (settledBlock_of_keepsType htype)
    nth_rewrite 2 [hentries]
    apply Calm.walkRelation.entries (survives kind c.name es) (settledEntry prune kind c)
      fun _ => rfl
    · intro e he hstays q
      have hdepth := Value.depth_lt_of_mem_object he
      apply calm_lintComponentEntryStep hprune hinner hr hcondition
        (Registry.get?_of_resolve hfound) hblock (by omega)
      rw [hentries]
      exact List.mem_map_of_mem (List.mem_filter.2 ⟨he, hstays⟩)
    · exact fun _ _ _ _ => .nothing _

theorem calm_lintFieldStep (htype : policy.removeTypeField = false) {f : Field}
    (hf : f.isRegular = true) (hfamily : ∀ g ∈ f.family, g.HoldsNoCondition) (p : Pointer)
    {v : Value} (hv : v.depth ≤ n) :
    Calm (lintFieldStep (m := Id) r.resolver lint f p
        (pruneFieldStep (m := Id) policy r.resolver prune f v))
      (lintFieldStep (m := Id) r.resolver lint f p v) := by
  have halike : v.Alike (pruneFieldStep (m := Id) policy r.resolver prune f v) :=
    alike_pruneFieldStep hprune f v
  rw [lintFieldStep_id, lintFieldStep_id]
  apply Calm.walkRelation.append (.ownRemarks f p halike)
  unfold pruneFieldStep
  cases hkind : f.type.kind? with
  | some kind =>
    have hcond : kind ≠ .condition := by
      rintro rfl
      exact hfamily f f.mem_family_self (FieldType.kind?_eq_some.1 hkind)
    apply Calm.walkRelation.parts
    exact fun w hw q =>
      calm_lintComponentStep hprune hinner hr hcondition hfree htype hcond q (by omega)
  | none =>
    dsimp only
    split
    · exact .nothing _
    · apply Calm.walkRelation.parts
      exact fun w hw q => calm_lintChildrenStep hinner hf hfamily q (by omega)

end Step

/-- Of a value that may be anything only its own linter is told. -/
theorem calm_lintFieldTo_free (r : Registry) (m : Nat) {f : Field} (hf : f.demand? = none)
    (p : Pointer) (v : Value) :
    Calm (lintFieldTo (m := Id) r.resolver m f p v) (lintFieldTo (m := Id) r.resolver m f p v) := by
  cases m with
  | zero => exact .nothing _
  | succ m =>
    unfold lintFieldTo
    rw [lintFieldStep_id]
    apply Calm.walkRelation.append (.ownRemarks f p (.refl v))
    unfold Field.demand? at hf
    cases hkind : f.type.kind? with
    | some kind => simp [hkind] at hf
    | none =>
      have hchildren : f.children.isEmpty = true := by simpa [hkind] using hf
      dsimp only
      rw [if_pos hchildren]
      exact .nothing _

/-- By induction on levels: pruned at more levels than it is deep, a value is linted calmly at any
number of them. -/
theorem calm_lintFieldTo {r : Registry} (hr : r.IsRegular)
    (hcondition : ∀ f ∈ r.fields, f.HoldsNoCondition) {policy : Policy}
    (htype : policy.removeTypeField = false) {n : Nat} (m : Nat) {f : Field}
    (hf : f.isRegular = true) (hfamily : ∀ g ∈ f.family, g.HoldsNoCondition) (p : Pointer)
    {v : Value} (hv : v.depth < n) :
    Calm (lintFieldTo (m := Id) r.resolver m f p (pruneFieldTo (m := Id) policy r.resolver n f v))
      (lintFieldTo (m := Id) r.resolver m f p v) := by
  induction n generalizing m f p v with
  | zero => omega
  | succ n ih =>
    cases m with
    | zero => exact .nothing _
    | succ m =>
      apply calm_lintFieldStep (n := n) (alike_pruneFieldTo policy r n) _ hr hcondition _ htype hf
        hfamily p (by omega)
      · exact fun f p w hf hfamily hw => ih m hf hfamily p hw
      · exact fun f p w hf => calm_lintFieldTo_free r m hf p w

/-! ## Documents -/

/-- A document with a place for a block of a kind: a section that holds one component, or one item
in a list of components. All else in the document is given. -/
inductive Opening : Kind → Pointer → (Value → Value) → Prop
  | single {kind : Kind} {k : String} (hk : Section.ofName? k = some (.component kind))
      (es es' : Entries) :
      Opening kind (Pointer.child "" k) fun v => .object (es ++ (k, v) :: es')
  | item {kind : Kind} {k : String} (hk : Section.ofName? k = some (.components kind))
      (es es' : Entries) (vs vs' : List Value) :
      Opening kind ((Pointer.child "" k).item vs.length) fun v =>
        .object (es ++ (k, .array (vs ++ v :: vs')) :: es')
  | processor (es es' ds ds' : Entries) (vs vs' : List Value) :
      Opening .processor (((Pointer.child "" "pipeline").child "processors").item vs.length)
        fun v => .object (es ++
          ("pipeline", .object (ds ++ ("processors", .array (vs ++ v :: vs')) :: ds')) :: es')

/-- What is said of a value always stands between the same remarks. -/
def Framed (part whole : Value → List Remark) : Prop :=
  ∃ before after : List Remark, ∀ v, whole v = before ++ part v ++ after

namespace Framed

theorem refl (part : Value → List Remark) : Framed part part := ⟨[], [], fun v => by simp⟩

theorem trans {part middle whole : Value → List Remark} (h : Framed part middle)
    (h' : Framed middle whole) : Framed part whole := by
  obtain ⟨before, after, hmiddle⟩ := h
  obtain ⟨before', after', hwhole⟩ := h'
  refine ⟨before' ++ before, after ++ after', fun v => ?_⟩
  simp only [hwhole, hmiddle, List.append_assoc]

/-- One entry among others. -/
theorem entry (p : Pointer) (g : String → Pointer → Value → List Remark) (es es' : Entries)
    (k : String) (put : Value → Value) :
    Framed (fun v => g k (p.child k) (put v))
      fun v => remarkEntries (m := Id) p g (es ++ (k, put v) :: es') := by
  refine ⟨remarkEntries (m := Id) p g es, remarkEntries (m := Id) p g es', fun v => ?_⟩
  dsimp only
  induction es with
  | nil => rfl
  | cons e rest ih =>
    obtain ⟨l, w⟩ := e
    rw [List.cons_append, remarkEntries_id_cons, ih, remarkEntries_id_cons]
    simp only [Id.run, List.append_assoc]

/-- One item among others. -/
theorem item (p : Pointer) (g : Pointer → Value → List Remark) (index : Nat)
    (vs vs' : List Value) :
    Framed (g (p.item (index + vs.length)))
      fun v => remarkItems (m := Id) p g index (vs ++ v :: vs') := by
  refine ⟨remarkItems (m := Id) p g index vs,
    remarkItems (m := Id) p g (index + vs.length + 1) vs', fun v => ?_⟩
  dsimp only
  induction vs generalizing index with
  | nil => rfl
  | cons w rest ih =>
    have hindex : index + (w :: rest).length = index + 1 + rest.length := by
      rw [List.length_cons]
      omega
    rw [List.cons_append, remarkItems_id_cons, hindex, ih, remarkItems_id_cons]
    simp only [Id.run, List.append_assoc]

end Framed

/-- What is said of the block at an open place is part of what is said of the document, and all else
is the same for every block. -/
theorem Opening.framed {kind : Kind} {place : Pointer} {doc : Value → Value}
    (h : Opening kind place doc) (r : Registry) (g : Field → Pointer → Value → List Remark) :
    Framed (fun v => lintComponentStep (m := Id) r.resolver g kind place v)
      fun v => lintRootStep (m := Id) r.resolver g (doc v) := by
  have hitem : ∀ kind p (vs vs' : List Value),
      Framed (fun v => lintComponentStep (m := Id) r.resolver g kind (p.item vs.length) v)
        fun v => lintComponentsStep (m := Id) r.resolver g kind p (.array (vs ++ v :: vs')) := by
    intro kind p vs vs'
    have hframed := Framed.item p (lintComponentStep (m := Id) r.resolver g kind) 0 vs vs'
    rwa [Nat.zero_add] at hframed
  cases h with
  | @single kind k hk es es' =>
    refine Framed.trans ?_ (Framed.entry "" _ es es' k fun v => v)
    simp only [hk]
    exact .refl _
  | @item kind k hk es es' vs vs' =>
    refine Framed.trans ?_ (Framed.entry "" _ es es' k fun v => .array (vs ++ v :: vs'))
    simp only [hk]
    exact hitem kind _ vs vs'
  | processor es es' ds ds' vs vs' =>
    refine Framed.trans ?_ (Framed.entry "" _ es es' "pipeline" fun v =>
      .object (ds ++ ("processors", .array (vs ++ v :: vs')) :: ds'))
    refine Framed.trans ?_ (Framed.entry (Pointer.child "" "pipeline") _ ds ds' "processors"
      fun v => .array (vs ++ v :: vs'))
    exact hitem .processor _ vs vs'

/-! ## Runs -/

theorem Builtin.isSteady_of_mem_fields : ∀ f ∈ Builtin.registry.fields, f.IsSteady := by
  intro f hf linter hlinter
  rw [linter_of_mem_fields hf] at hlinter
  cases hlinter

theorem Builtin.holdsNoCondition_of_mem_fields :
    ∀ f ∈ Builtin.registry.fields, f.HoldsNoCondition := by
  decide

/-- A document with a block that was pruned, beside the same document with the block as it was,
linted with the components that it was pruned with. The remarks differ in those on the block only.
There is no complaint among those on the pruned one. If linters are steady, linting makes no more
errors than before, wherever things stand in the texts. -/
theorem lint_pruned {r : Registry} (hr : r.IsRegular)
    (hcondition : ∀ f ∈ r.fields, f.HoldsNoCondition) {policy : Policy}
    (htype : policy.removeTypeField = false) {kind : Kind} (hkind : kind ≠ .condition)
    {v w : Value}
    (hrun : ((policy.supplied (pruneComponent policy resolve kind v)).run r).1 = .ok w)
    {place : Pointer} {doc : Value → Value} (hdoc : Opening kind place doc)
    (source source' : String) :
    let known := policy.registry r
    let findings source u := ((lintDocument source (doc u)).run known).1
    let remarks u : List Remark := lintComponent (m := Id) known.refreshed.resolver kind place u
    (∃ before after, ∀ u ∈ [v, w], ∀ source, findings source u = Finding.inOrder
      (Remark.settle (Positions.scan source (doc u)) [] (before ++ remarks u ++ after))) ∧
      (∀ x ∈ remarks w, ¬ x.IsComplaint) ∧
      ((∀ f ∈ r.fields, f.IsSteady) → (findings source w).countP Finding.isError ≤
        (findings source' v).countP Finding.isError) := by
  intro known findings remarks
  have hregular := (hr.supplied policy).refreshed
  have hcondition' : ∀ f ∈ known.refreshed.fields, f.HoldsNoCondition :=
    Registry.forall_mem_fields_supplied (by decide) Builtin.holdsNoCondition_of_mem_fields
      hcondition policy
  -- levels that are enough for everything
  obtain ⟨n, hv, hw, hdocv, hdocw⟩ : ∃ n, v.depth ≤ n ∧ w.depth ≤ n ∧ (doc v).depth ≤ n ∧
      (doc w).depth ≤ n := ⟨v.depth + w.depth + (doc v).depth + (doc w).depth, by omega⟩
  have hpart : ∀ u : Value, u.depth ≤ n → remarks u = lintComponentStep (m := Id)
      known.refreshed.resolver (lintFieldTo (m := Id) known.refreshed.resolver n) kind place u :=
    fun u hu => lintComponent_eq kind place hu
  have hcalm : Calm (remarks w) (remarks v) := by
    have hpruned : w = pruneNestedStep (m := Id) policy known.refreshed.resolver
        (pruneFieldTo (m := Id) policy known.refreshed.resolver v.depth) kind v := by
      rw [((Snapshot.pruneComponent policy kind v).supplied policy r).1] at hrun
      rw [pruneNestedStep_eq_afterPruning]
      exact (congrArg (afterPruning v) hrun).symm
    rw [hpart v hv, hpart w hw, hpruned]
    apply calm_lintComponentStep (alike_pruneFieldTo policy _ _) _ hregular hcondition' _ htype
      hkind place (Nat.le_refl v.depth)
    · exact fun f p u hf hfamily hu => calm_lintFieldTo hregular hcondition' htype _ hf hfamily p hu
    · exact fun f p u hf => calm_lintFieldTo_free _ _ hf p u
  obtain ⟨before, after, hframed⟩ :=
    hdoc.framed known.refreshed (lintFieldTo (m := Id) known.refreshed.resolver n)
  have hwhole : ∀ u : Value, u.depth ≤ n → (doc u).depth ≤ n →
      remarksOn (m := Id) known.refreshed.resolver (doc u) = before ++ remarks u ++ after := by
    intro u hu hdocu
    rw [remarksOn_eq hdocu, hpart u hu]
    exact hframed u
  have hfindings : ∀ u : Value, u.depth ≤ n → (doc u).depth ≤ n → ∀ source,
      findings source u = Finding.inOrder
        (Remark.settle (Positions.scan source (doc u)) [] (before ++ remarks u ++ after)) := by
    intro u hu hdocu source
    rw [← hwhole u hu hdocu]
    exact (Snapshot.lintDocument source (doc u) known).1
  refine ⟨⟨before, after, fun u hu source => ?_⟩, hcalm.quiet, fun hsteady => ?_⟩
  · rcases List.mem_pair.1 hu with rfl | rfl
    · exact hfindings _ hv hdocv source
    · exact hfindings _ hw hdocw source
  · have hsteady' : ∀ f ∈ known.refreshed.fields, f.IsSteady :=
      Registry.forall_mem_fields_supplied (fun _ h => nomatch h) Builtin.isSteady_of_mem_fields
        hsteady policy
    rw [hfindings w hw hdocw, hfindings v hv hdocv, Finding.countP_inOrder, Finding.countP_inOrder]
    apply Remark.errors_settle_le
    · exact Remark.sublistForall₂_append
        (Remark.sublistForall₂_append (Remark.echoes_self before) hcalm.echoes)
        (Remark.echoes_self after)
    · rw [← hwhole v hv hdocv]
      exact fun y hy => isSteady_of_mem_remarksOn hsteady' (doc v) hy
    · exact fun _ h => h

/-- A reference to a shared input with a label that has no effect there and is malformed besides.
Pruning drops the label and another key. Linting complains of both before, and of nothing after. -/
theorem lint_pruned_resource :
    let v : Value := .object [("type", .string "resource"), ("resource", .string "a"),
      ("label", .string "A"), ("junk", .null)]
    let w : Value := .object [("type", .string "resource"), ("resource", .string "a")]
    let doc : Value → Value := fun u => .object ([] ++ ("input", u) :: [("output", .object [])])
    let findings u := ((lintDocument "" (doc u)).run Builtin.registry).1
    let remarks u : List Remark :=
      lintComponent (m := Id) Builtin.registry.refreshed.resolver .input (Pointer.child "" "input")
        u
    ((Policy.keepAll.supplied (pruneComponent Policy.keepAll resolve .input v)).run
        Builtin.registry).1 = .ok w ∧
      (∃ before after, ∀ u ∈ [v, w], ∀ source,
        ((lintDocument source (doc u)).run Builtin.registry).1 = Finding.inOrder
          (Remark.settle (Positions.scan source (doc u)) [] (before ++ remarks u ++ after))) ∧
      (∀ x ∈ remarks w, ¬ x.IsComplaint) ∧
      (findings w).countP Finding.isError ≤ (findings v).countP Finding.isError ∧
      (findings w).countP Finding.isError = 1 ∧ (findings v).countP Finding.isError = 2 := by
  intro v w doc findings remarks
  have hrun : ((Policy.keepAll.supplied (pruneComponent Policy.keepAll resolve .input v)).run
      Builtin.registry).1 = .ok w := rfl
  have hinput : Section.ofName? "input" = some (.component .input) := by decide
  obtain ⟨hframed, hquiet, herrors⟩ := lint_pruned Builtin.registry_isRegular
    Builtin.holdsNoCondition_of_mem_fields rfl (by decide) hrun
    (.single hinput [] [("output", .object [])]) "" ""
  exact ⟨hrun, hframed, hquiet, herrors Builtin.isSteady_of_mem_fields, by decide, by decide⟩

/-- What `lint_pruned` asks for is needed, and one finding of every value is not enough. A linter
may still make an error of what is left where it had made a warning of what was there: here pruning
takes the deprecated field out of a gauge. And linted with other components than it was pruned with,
a block may have lost the only key that says what it is. -/
theorem lint_pruned_needs :
    let check : Position → Value → List Finding := fun p v => match v with
      | .object [] => [⟨p, .error, "nothing to show"⟩]
      | _ => [⟨p, .warning, "something to show"⟩]
    let gauge := Component.ofConfig "gauge" .metrics ""
      ((Field.object "" "" [(Field.string "unit" "").asDeprecated]).linted (.report check))
    let r := Registry.ofList [gauge]
    let doc (u : Value) : Value := .object ([] ++ ("metrics", u) :: [])
    let pruned (policy : Policy) (u : Value) :=
      ((policy.supplied (pruneComponent policy resolve .metrics u)).run r).1
    let errors (u : Value) := (((lintDocument "" (doc u)).run r).1).countP Finding.isError
    let full : Value := .object [("unit", .string "ms")]
    let policy : Policy := { Policy.keepAll with removeDeprecated := true, supply := .own }
    (r.IsRegular ∧ (∀ f ∈ r.fields, f.HoldsNoCondition) ∧ Opening .metrics "/metrics" doc ∧
        ∀ f ∈ r.fields, ∀ check, f.linter = some (.report check) →
          ∀ p v p' v', (check p v).length = (check p' v').length) ∧
      (policy.removeTypeField = false ∧
        pruned policy (.object [("gauge", full)]) = .ok (.object [("gauge", .object [])]) ∧
        errors (.object [("gauge", full)]) = 0 ∧ errors (.object [("gauge", .object [])]) = 1) ∧
      Policy.keepAll.removeTypeField = false ∧
      pruned Policy.keepAll (.object [("prometheus", .object []), ("gauge", full)]) =
        .ok (.object [("prometheus", .object [])]) ∧
      errors (.object [("prometheus", .object []), ("gauge", full)]) = 0 ∧
      errors (.object [("prometheus", .object [])]) = 1 := by
  intro check gauge r doc pruned errors full policy
  have hfields : r.fields = [gauge.config, (Field.string "unit" "").asDeprecated] := rfl
  have hnumber : ∀ p v, (check p v).length = 1 := by
    intro p v
    dsimp only [check]
    split <;> rfl
  have hmetrics : Section.ofName? "metrics" = some (.component .metrics) := by decide
  refine ⟨⟨⟨by decide, by decide, by decide⟩, by rw [hfields]; decide, .single hmetrics [] [], ?_⟩,
    ⟨rfl, rfl, by decide, by decide⟩, rfl, rfl, by decide, by decide⟩
  intro f hf check' hcheck
  rw [hfields] at hf
  rcases List.mem_pair.1 hf with rfl | rfl
  · obtain rfl : check = check' := Linter.report.inj (Option.some.inj hcheck)
    exact fun p v p' v' => (hnumber p v).trans (hnumber p' v').symm
  · cases hcheck

end StreamConfig
