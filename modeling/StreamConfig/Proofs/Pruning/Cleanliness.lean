import StreamConfig.Proofs.Pruning.Deletion
import StreamConfig.Proofs.Pruning.Remains

/-! # What remains is of use

Pruning asks whether a field is of use before it prunes the field's value and the fields behind it,
so the answer is about a value and an object that are not final. It still holds of what is left in
the end, at every place that pruning reached.

* `Spot` — a place that pruning reached: what was demanded there, what stood there, what is left
* `Spot.Leads`, `Spot.Reaches` — the way that pruning takes from one place to the next
* `Spot.IsTreated` — what is left at a place is what stood there, pruned as demanded
* `Spot.IsPruned` — the invariant: besides, the fields demanded do not get into one another's way
* `Spot.IsClean` — the conclusion: nothing is left there that should have gone
* `isClean_of_reaches` — all places that the run of a component block reaches
-/

namespace StreamConfig

/-- A place that pruning reaches. -/
structure Spot where
  demand : Demand
  /-- what stood there -/
  before : Value
  /-- what is left there -/
  after : Value

/-- Which field prunes the value under a key. A block that denotes nothing is not pruned, and in a
condition nothing is pruned any further. -/
inductive Demand.Prunes (r : Registry) : Demand → Entries → String → Field → Prop
  | own {kind : Kind} {es : Entries} {c : Component} (hkind : kind ≠ .condition)
      (h : r.resolve kind "" (.object es) = .ok c) : Prunes r (.block kind) es c.name c.config
  | reserved {kind : Kind} {es : Entries} {c : Component} {k : String} {f : Field}
      (hkind : kind ≠ .condition) (h : r.resolve kind "" (.object es) = .ok c)
      (hf : kind.reserved? k = some f) : Prunes r (.block kind) es k f
  | known {fields : List Field} {es : Entries} {f : Field} (hf : f ∈ fields) :
      Prunes r (.object fields) es f.name f

/-- One of the values that a field holds, before and after. -/
inductive Arity.Part : Arity → Value → Value → Value → Value → Prop
  | whole (v w : Value) : Part .scalar v w v w
  | item {vs ws : List Value} {i : Nat} {v w : Value} (hv : vs[i]? = some v)
      (hw : ws[i]? = some w) : Part .array (.array vs) (.array ws) v w
  | entry {es es' : Entries} {k : String} {v w : Value} (hv : es.get? k = some v)
      (hw : es'.get? k = some w) : Part .map (.object es) (.object es') v w

/-- From an object to one of the values below it that pruning looks into. -/
inductive Spot.Leads (r : Registry) : Spot → Spot → Prop
  | field {demand next : Demand} {es es' : Entries} {k : String} {f : Field} {u u' v w : Value}
      (hf : demand.Prunes r es k f) (hu : es.get? k = some u) (hu' : es'.get? k = some u')
      (hnext : f.demand? = some next) (hpart : f.arity.Part u u' v w) :
      Leads r ⟨demand, .object es, .object es'⟩ ⟨next, v, w⟩

/-- All the way down. -/
inductive Spot.Reaches (r : Registry) (start : Spot) : Spot → Prop
  | start : Reaches r start start
  | step {s t : Spot} (h : Reaches r start s) (hnext : s.Leads r t) : Reaches r start t

/-- Of a block that denoted the component `c` are left the component's own key and reserved ones
that are of use, without `type` if the policy says so. -/
structure BlockIsClean (policy : Policy) (kind : Kind) (c : Component) (es : Entries) : Prop where
  kept : ∀ e ∈ es, e.1 = c.name ∨
    ∃ f, kind.reserved? e.1 = some f ∧ f.omissionReason? e.2 es = none
  untyped : policy.removeTypeField = true → "type" ∉ es.keys

/-- Of an object with known fields are left fields that the policy keeps and that are of use, and
all that no field describes. -/
structure FieldsAreClean (policy : Policy) (fields : List Field) (es es' : Entries) : Prop where
  kept : ∀ f ∈ fields, ∀ v, es'.get? f.name = some v →
    policy.keeps f = true ∧ f.omissionReason? v es' = none
  undescribed : es'.filter (isUndescribed fields) = es.filter (isUndescribed fields)

/-- Nothing is left that should have gone. -/
def Spot.IsClean (policy : Policy) (r : Registry) : Spot → Prop
  | ⟨.block kind, v, w⟩ => ∀ c, kind ≠ .condition → r.resolve kind "" v = .ok c →
      ∃ es, w = .object es ∧ BlockIsClean policy kind c es
  | ⟨.object fields, v, w⟩ => ∀ es, v = .object es →
      ∃ es', w = .object es' ∧ FieldsAreClean policy fields es es'

/-- No two known fields of an object have one name. -/
def Demand.HasDistinctNames : Demand → Prop
  | .block _ => True
  | .object fields => (fields.map (·.name)).Nodup

/-- The known fields of an object do not get into one another's way. -/
def Demand.IsRegular : Demand → Prop
  | .block _ => True
  | .object fields => (fields.map (·.name)).Nodup ∧ ∀ f ∈ fields, f.isRegular = true

/-- What is left is what stood there, pruned as demanded and deep enough. -/
structure Spot.IsTreated (policy : Policy) (r : Registry) (s : Spot) : Prop where
  distinct : s.before.hasDistinctKeys = true
  pruned : ∃ n, s.before.depth ≤ n ∧
    s.after = s.demand.prune policy r (pruneFieldTo (m := Id) policy r.resolver n) s.before

/-- What is left is what stood there, pruned by fields that do not get into one another's way. -/
structure Spot.IsPruned (policy : Policy) (r : Registry) (s : Spot) : Prop where
  distinct : s.before.hasDistinctKeys = true
  regular : s.demand.IsRegular
  pruned : ∃ n, s.before.depth ≤ n ∧
    s.after = s.demand.prune policy r (pruneFieldTo (m := Id) policy r.resolver n) s.before

theorem Demand.IsRegular.hasDistinctNames {demand : Demand} (h : demand.IsRegular) :
    demand.HasDistinctNames := by
  cases demand with
  | block => trivial
  | object fields => exact h.1

theorem Spot.IsPruned.isTreated {policy : Policy} {r : Registry} {s : Spot}
    (hs : s.IsPruned policy r) : s.IsTreated policy r :=
  ⟨hs.distinct, hs.pruned⟩

theorem Demand.isRegular_of_demand? {f : Field} (hf : f.isRegular = true) {demand : Demand}
    (h : f.demand? = some demand) : demand.IsRegular := by
  unfold Field.demand? at h
  split at h
  · cases h
    trivial
  · split at h
    · cases h
    · cases h
      exact (Field.isRegular_iff.1 hf).2

section Step

variable {policy : Policy} {r : Registry} {inner : Field → Value → Value} {n : Nat}

/-! ## The way down -/

theorem Demand.Prunes.isRegular (hr : r.IsRegular) {demand : Demand} (hdemand : demand.IsRegular)
    {es : Entries} {k : String} {f : Field} (h : demand.Prunes r es k f) : f.isRegular = true := by
  cases h with
  | own _ hc => exact hr.config_of_get? (Registry.get?_of_resolve hc)
  | reserved _ _ hf => exact Kind.isRegular_of_reserved? hf
  | known hf => exact hdemand.2 f hf

/-- Under a key that a field prunes stands in the end what the field has made of the value. -/
theorem Demand.Prunes.get?_prune (hfree : ∀ c ∈ r.known, c.kind.isReserved c.name = false)
    (hinner : ∀ f (v : Value), v.Alike (inner f v)) {demand : Demand}
    (hnames : demand.HasDistinctNames) {es es' : Entries} (hkeys : es.keys.Nodup) {k : String}
    {f : Field} (h : demand.Prunes r es k f)
    (hes' : demand.prune policy r inner (.object es) = .object es') {w : Value}
    (hw : es'.get? k = some w) : ∃ v, es.get? k = some v ∧ w = inner f v := by
  cases h with
  | @own kind es c hkind hc =>
    have hname := Registry.isReserved_of_get? hfree (Registry.get?_of_resolve hc)
    have hblock : settledBlock policy inner kind c es = es' :=
      Value.object.inj ((pruneNestedStep_ok policy inner hinner hkind hc).symm.trans hes')
    rw [← hblock] at hw
    obtain ⟨v, hv, hwv⟩ := get?_settledBlock hkeys hw
    exact ⟨v, hv, hwv.trans (settledEntry_own hname v)⟩
  | @reserved kind es c k f hkind hc hf =>
    have hname := Registry.isReserved_of_get? hfree (Registry.get?_of_resolve hc)
    have hne : k ≠ c.name := by
      rintro rfl
      simp [Kind.isReserved, hf] at hname
    have hblock : settledBlock policy inner kind c es = es' :=
      Value.object.inj ((pruneNestedStep_ok policy inner hinner hkind hc).symm.trans hes')
    rw [← hblock] at hw
    obtain ⟨v, hv, hwv⟩ := get?_settledBlock hkeys hw
    exact ⟨v, hv, hwv.trans (settledEntry_reserved hne hf v)⟩
  | @known fields es f hf =>
    have hfold : fields.foldl (pruneEntry policy inner) es = es' :=
      Value.object.inj ((pruneFieldsStep_object policy inner fields es).symm.trans hes')
    rw [← hfold] at hw
    exact get?_foldl_pruneEntry hnames hf hw

/-- A part of a value stands in the end where it stood, pruned. -/
theorem Arity.Part.eq_of_overParts {f : Value → Value} {arity : Arity} {u u' v w : Value}
    (h : arity.Part u u' v w) (hu : u' = u.overParts (m := Id) arity f) :
    w = f v ∧ v.depth ≤ u.depth ∧ (u.hasDistinctKeys = true → v.hasDistinctKeys = true) := by
  cases h with
  | whole => exact ⟨hu, Nat.le_refl _, id⟩
  | @item vs ws i v w hv hw =>
    rw [Value.overParts_array_id] at hu
    have hws : ws = vs.map f := Value.array.inj hu
    have hmem := List.mem_of_getElem? hv
    have hdepth := Value.depth_lt_of_mem_array hmem
    refine ⟨?_, by omega, fun hdistinct => ?_⟩
    · simpa [hws, hv] using hw.symm
    · exact Value.hasDistinctKeys_array_iff.1 hdistinct v hmem
  | @entry es es' k v w hv hw =>
    rw [Value.overParts_map_id] at hu
    have hes' : es' = es.map fun e => (e.1, f e.2) := Value.object.inj hu
    have hmem := Entries.mem_of_get? hv
    have hdepth := Value.depth_lt_of_mem_object hmem
    dsimp only at hdepth
    refine ⟨?_, by omega, fun hdistinct => ?_⟩
    · rw [hes', Entries.get?_mapValues, hv] at hw
      exact (Option.some.inj hw).symm
    · exact (Value.hasDistinctKeys_object_iff.1 hdistinct).2 _ hmem

/-- What holds of a place holds of the next one. -/
theorem Spot.IsTreated.leads (hfree : ∀ c ∈ r.known, c.kind.isReserved c.name = false) {s t : Spot}
    (hs : s.IsTreated policy r) (hnames : s.demand.HasDistinctNames) (h : s.Leads r t) :
    t.IsTreated policy r := by
  cases h with
  | @field demand next es es' k f u u' v w hf hu hu' hnext hpart =>
    obtain ⟨hdistinct, n, hdepth, hafter⟩ := hs
    dsimp only at hdistinct hnames hdepth hafter
    obtain ⟨hkeys, hvalues⟩ := Value.hasDistinctKeys_object_iff.1 hdistinct
    have hmem := Entries.mem_of_get? hu
    have hlower := Value.depth_lt_of_mem_object hmem
    dsimp only at hlower
    -- the value below is less deep, so a level is left for it
    obtain ⟨n, rfl⟩ : ∃ n', n = n' + 1 := ⟨n - 1, by omega⟩
    obtain ⟨u₀, hu₀, hinner⟩ := hf.get?_prune hfree (alike_pruneFieldTo policy r (n + 1)) hnames
      hkeys hafter.symm hu'
    have hsame : u₀ = u := Option.some.inj (hu₀.symm.trans hu)
    subst hsame
    rw [pruneFieldTo_succ, hnext] at hinner
    obtain ⟨hw, hpartDepth, hpartKeys⟩ := hpart.eq_of_overParts hinner
    exact
      { distinct := hpartKeys (hvalues _ hmem)
        pruned := ⟨n, by dsimp only; omega, hw⟩ }

/-- The invariant goes along. -/
theorem Spot.IsPruned.leads (hr : r.IsRegular) {s t : Spot} (hs : s.IsPruned policy r)
    (h : s.Leads r t) : t.IsPruned policy r := by
  obtain ⟨hdistinct, hpruned⟩ := hs.isTreated.leads hr.name hs.regular.hasDistinctNames h
  cases h with
  | field hf _ _ hnext _ =>
    have hregular := Demand.isRegular_of_demand? (hf.isRegular hr hs.regular) hnext
    exact ⟨hdistinct, hregular, hpruned⟩

/-- By induction on the way. -/
theorem Spot.IsPruned.reaches (hr : r.IsRegular) {s t : Spot} (hs : s.IsPruned policy r)
    (h : s.Reaches r t) : t.IsPruned policy r := by
  induction h with
  | start => exact hs
  | step _ hnext ih => exact ih.leads hr hnext

/-! ## What is left in one place -/

theorem blockIsClean_settledBlock (hinner : ∀ f (v : Value), v.Alike (inner f v)) (kind : Kind)
    (c : Component) (es : Entries) :
    BlockIsClean policy kind c (settledBlock policy inner kind c es) where
  kept e he := reserved_of_mem_settledBlock hinner he
  untyped hremove := by
    simp [settledBlock, hremove]

theorem fieldsAreClean_foldl (hinner : ∀ f (v : Value), v.Alike (inner f v)) {fields : List Field}
    (hnames : (fields.map (·.name)).Nodup) (hfields : ∀ f ∈ fields, f.isRegular = true)
    (es : Entries) :
    FieldsAreClean policy fields es (fields.foldl (pruneEntry policy inner) es) where
  kept f hf v hv := by
    -- a field whose turn is over stays as it is while the others have theirs
    have hsettled : IsSettled policy (fun _ v => v) f
        (fields.foldl (pruneEntry policy inner) es) :=
      isSettled_foldl hinner hnames hfields (fun _ _ _ _ _ => rfl) f hf
    exact hsettled.kept v hv
  undescribed := filter_foldl_pruneEntry hnames es

theorem Spot.IsPruned.isClean {s : Spot} (hs : s.IsPruned policy r) : s.IsClean policy r := by
  obtain ⟨demand, before, after⟩ := s
  obtain ⟨-, hregular, n, -, hafter⟩ := hs
  have halike := alike_pruneFieldTo policy r n
  cases demand with
  | block kind =>
    intro c hkind hc
    obtain ⟨es, rfl⟩ := Registry.exists_object_of_resolve hc
    refine ⟨_, ?_, blockIsClean_settledBlock halike kind c es⟩
    exact hafter.trans (pruneNestedStep_ok policy _ halike hkind hc)
  | object fields =>
    intro es hes
    have hes : before = .object es := hes
    subst hes
    refine ⟨_, ?_, fieldsAreClean_foldl halike hregular.1 hregular.2 es⟩
    exact hafter.trans (pruneFieldsStep_object policy _ fields es)

end Step

/-! ## Runs -/

/-- At every place that the run of a component block reaches, nothing is left that should have gone.
Values that are read from texts have distinct keys. -/
theorem isClean_of_reaches {r : Registry} (hr : r.IsRegular) (policy : Policy) (kind : Kind)
    {v : Value} (hv : v.hasDistinctKeys = true) {s : Spot}
    (h : Spot.Reaches (policy.registry r).refreshed
      ⟨.block kind, v, ((pruneRun policy kind v).run r).1⟩ s) :
    s.IsClean policy (policy.registry r).refreshed := by
  have hstart : Spot.IsPruned policy (policy.registry r).refreshed
      ⟨.block kind, v, ((pruneRun policy kind v).run r).1⟩ :=
    { distinct := hv
      regular := trivial
      pruned := ⟨v.depth, Nat.le_refl _, (run_pruneRun policy kind v r).1⟩ }
  exact (hstart.reaches (hr.supplied policy).refreshed h).isClean

/-- A `log` processor inside an input: pruning comes to it by the reserved key `processors`, and
from there to the fields of `log`. Deprecated fields are to go, and what no field describes stays.
-/
theorem isClean_of_reaches_log :
    let policy : Policy := { Policy.keepAll with removeDeprecated := true }
    let fields := (Builtin.processors[1]).config.children
    let before : Value := .object [("level", .string "INFO"), ("fields", .object []), ("x", .null)]
    let after : Value := .object [("level", .string "INFO"), ("x", .null)]
    let v : Value := .object
      [("stdin", .object []), ("junk", .null),
       ("processors", .array [.object [("log", before), ("label", .string "a")]])]
    let start : Spot := ⟨.block .input, v, ((pruneRun policy .input v).run Builtin.registry).1⟩
    start.Reaches (policy.registry Builtin.registry).refreshed ⟨.object fields, before, after⟩ ∧
      Spot.IsClean policy (policy.registry Builtin.registry).refreshed
        ⟨.object fields, before, after⟩ := by
  intro policy fields before after v start
  have hprocessor : start.Leads (policy.registry Builtin.registry).refreshed
      ⟨.block .processor, .object [("log", before), ("label", .string "a")],
        .object [("log", after), ("label", .string "a")]⟩ :=
    .field (k := "processors") (.reserved (c := Builtin.inputs[0]) (by decide) rfl rfl) rfl rfl rfl
      (.item (i := 0) rfl rfl)
  have hfields : Spot.Leads (policy.registry Builtin.registry).refreshed
      ⟨.block .processor, .object [("log", before), ("label", .string "a")],
        .object [("log", after), ("label", .string "a")]⟩ ⟨.object fields, before, after⟩ :=
    .field (.own (c := Builtin.processors[1]) (by decide) rfl) rfl rfl rfl (.whole before after)
  have hreaches := (Spot.Reaches.start.step hprocessor).step hfields
  exact ⟨hreaches, isClean_of_reaches Builtin.registry_isRegular policy .input (by decide) hreaches⟩

end StreamConfig
