import StreamConfig.Proofs.Linting.Conformance
import StreamConfig.Proofs.Pruning.Idempotence
import StreamConfig.Proofs.Value.Reordering

/-! # What remains after pruning

Pruning an object with known fields gives one field its turn after another. When no two of the
fields share a name, the outcome can be said at once: some of the entries stay, and in each of them
the value is pruned by the field of its name.

* `foldl_pruneEntry_eq` — the entries that remain of an object with known fields
* `get?_foldl_pruneEntry`, `get?_settledBlock` — a value that remains is the earlier one, pruned
* `Demand.prune`, `pruneFieldTo_succ` — a field prunes its parts as it demands of them
-/

namespace StreamConfig

/-- Look-up where whole keys have gone and values have been replaced. -/
theorem Entries.get?_map_filter {keep : String → Bool} {change : String × Value → String × Value}
    (hkey : ∀ e, (change e).1 = e.1) (es : Entries) (k : String) :
    Entries.get? ((es.filter fun e => keep e.1).map change) k =
      if keep k then (es.get? k).map fun v => (change (k, v)).2 else none := by
  induction es with
  | nil => simp
  | cons e rest ih =>
    rw [List.filter_cons, get?_cons]
    by_cases hek : e.1 = k
    · subst hek
      cases hkeep : keep e.1 with
      | true => simp [get?_cons, hkey]
      | false => simpa [hkeep] using ih
    · rw [if_neg hek, ← ih]
      split
      · rw [List.map_cons, get?_cons, hkey, if_neg hek]
      · rfl

theorem Entries.get?_mapValues (f : Value → Value) (es : Entries) (k : String) :
    Entries.get? (es.map fun e => (e.1, f e.2)) k = (es.get? k).map f := by
  induction es with
  | nil => rfl
  | cons e rest ih =>
    rw [List.map_cons, get?_cons, get?_cons, ih]
    split <;> rfl

section Fields

variable (policy : Policy) (inner : Field → Value → Value)

/-- What becomes of an entry that stays in an object with known fields. -/
def knownEntry (fields : List Field) (e : String × Value) :
    String × Value :=
  (e.1, match fields.find? fun f => f.name == e.1 with
    | some f => inner f e.2
    | none => e.2)

theorem knownEntry_fst (fields : List Field) (e : String × Value) :
    (knownEntry inner fields e).1 = e.1 := rfl

/-- The field of a name, where no two fields share one. -/
theorem Field.find?_name_of_mem {fields : List Field} (hnames : (fields.map (·.name)).Nodup)
    {f : Field} (hf : f ∈ fields) : fields.find? (fun g => g.name == f.name) = some f := by
  induction fields with
  | nil => cases hf
  | cons g rest ih =>
    rw [List.map_cons, List.nodup_cons] at hnames
    rcases List.mem_cons.1 hf with rfl | hf
    · simp
    · have hne : ¬ g.name = f.name := fun h => hnames.1 (h ▸ List.mem_map_of_mem hf)
      simpa [hne] using ih hnames.2 hf

/-- Whether a field goes from an object, judged by the object: the policy does not keep it, or its
value is of no use there. -/
def Policy.drops (policy : Policy) (es : Entries) (f : Field) : Bool :=
  !policy.keeps f || (es.get? f.name).any fun v => (f.omissionReason? v es).isSome

/-- A field's turn: its entry goes, or its value is pruned. -/
theorem pruneEntry_eq_ite (f : Field) (es : Entries) :
    pruneEntry policy inner es f =
      if policy.drops es f then es.erase f.name else es.modify f.name (inner f) := by
  unfold pruneEntry Policy.drops
  cases policy.keeps f with
  | false => rfl
  | true =>
    cases hget : es.get? f.name with
    | none =>
      -- without an entry of its name the turn does nothing
      have hsame : es.modify f.name (inner f) = es :=
        Entries.modify_eq_self fun e he hname =>
          absurd (hname ▸ List.mem_map_of_mem he) (Entries.get?_eq_none_iff.1 hget)
      simp [hsame]
    | some v => simp

/-- The entries of a field's name stay, with their values pruned, or they go. -/
theorem pruneEntry_eq (f : Field) (es : Entries) :
    pruneEntry policy inner es f =
      (es.filter fun e => e.1 != f.name || !policy.drops es f).map
        fun e => if e.1 = f.name then (e.1, inner f e.2) else e := by
  rw [pruneEntry_eq_ite]
  cases policy.drops es f with
  | false => simp [Entries.modify]
  | true =>
    have hother : ∀ e ∈ es.erase f.name,
        (if e.1 = f.name then (e.1, inner f e.2) else e) = e := by
      intro e he
      have hne := (List.mem_filter.1 he).2
      rw [bne_iff_ne] at hne
      exact if_neg hne
    simp only [if_true, Bool.not_true, Bool.or_false]
    exact ((List.map_congr_left hother).trans (List.map_id _)).symm

/-- Whether an entry stays depends on its key, and a key that names no field stays. -/
theorem foldl_pruneEntry_eq {fields : List Field} (hnames : (fields.map (·.name)).Nodup)
    (es : Entries) :
    ∃ keep : String → Bool, (∀ k, k ∉ fields.map (·.name) → keep k = true) ∧
      fields.foldl (pruneEntry policy inner) es =
        (es.filter fun e => keep e.1).map (knownEntry inner fields) := by
  induction fields generalizing es with
  | nil =>
    refine ⟨fun _ => true, fun _ _ => rfl, ?_⟩
    show es = (es.filter fun _ => true).map (knownEntry inner [])
    rw [List.filter_true]
    exact (List.map_id es).symm
  | cons f rest ih =>
    rw [List.map_cons, List.nodup_cons] at hnames
    have hturn := pruneEntry_eq policy inner f es
    generalize (!policy.drops es f) = stays at hturn
    obtain ⟨keep, hunnamed, hrest⟩ := ih hnames.2 (pruneEntry policy inner es f)
    refine ⟨fun k => (k != f.name || stays) && keep k, fun k hk => ?_, ?_⟩
    · rw [List.map_cons, List.mem_cons, not_or] at hk
      simp [hk.1, hunnamed k hk.2]
    · -- no later field has the name, so an entry has at most one turn
      have hlater : rest.find? (fun g => g.name == f.name) = none := by
        rw [List.find?_eq_none]
        intro g hg hname
        exact hnames.1 (List.mem_map.2 ⟨g, hg, beq_iff_eq.1 hname⟩)
      have hkey : ∀ e : String × Value,
          (if e.1 = f.name then (e.1, inner f e.2) else e).1 = e.1 := by
        intro e
        split <;> rfl
      rw [List.foldl_cons, hrest, hturn, List.filter_map, List.map_map, List.filter_filter]
      have hfilter : ∀ e : String × Value, (keep (if e.1 = f.name then (e.1, inner f e.2) else e).1
          && (e.1 != f.name || stays)) = ((e.1 != f.name || stays) && keep e.1) := by
        intro e
        rw [hkey, Bool.and_comm]
      simp only [Function.comp_apply, hfilter]
      apply List.map_congr_left
      intro e _
      by_cases he : e.1 = f.name
      · simp [knownEntry, he, hlater]
      · simp [knownEntry, he, Ne.symm he]

variable {policy inner}

/-- A value that remains under the name of a field is the earlier one, pruned by the field. -/
theorem get?_foldl_pruneEntry {fields : List Field} (hnames : (fields.map (·.name)).Nodup)
    {f : Field} (hf : f ∈ fields) {es : Entries} {w : Value}
    (h : (fields.foldl (pruneEntry policy inner) es).get? f.name = some w) :
    ∃ v, es.get? f.name = some v ∧ w = inner f v := by
  obtain ⟨keep, -, hfold⟩ := foldl_pruneEntry_eq policy inner hnames es
  rw [hfold, Entries.get?_map_filter (knownEntry_fst inner fields)] at h
  split at h
  · obtain ⟨v, hv, hw⟩ := Option.map_eq_some_iff.1 h
    refine ⟨v, hv, ?_⟩
    simpa [knownEntry, Field.find?_name_of_mem hnames hf] using hw.symm
  · cases h

/-- An entry that no field describes. -/
def isUndescribed (fields : List Field) (e : String × Value) : Bool :=
  decide (e.1 ∉ fields.map (·.name))

/-- Entries that no field describes all remain, as they were. -/
theorem filter_foldl_pruneEntry {fields : List Field} (hnames : (fields.map (·.name)).Nodup)
    (es : Entries) :
    (fields.foldl (pruneEntry policy inner) es).filter (isUndescribed fields) =
      es.filter (isUndescribed fields) := by
  obtain ⟨keep, hunnamed, hfold⟩ := foldl_pruneEntry_eq policy inner hnames es
  have hfilter : ∀ e : String × Value,
      (isUndescribed fields (knownEntry inner fields e) && keep e.1) = isUndescribed fields e := by
    intro e
    by_cases he : e.1 ∈ fields.map (·.name)
    · simp [isUndescribed, knownEntry_fst, he]
    · simp [isUndescribed, knownEntry_fst, he, hunnamed e.1 he]
  rw [hfold, List.filter_map, List.filter_filter]
  simp only [Function.comp_apply, hfilter]
  -- and without a field there is nothing to prune the value by
  refine (List.map_congr_left fun e he => ?_).trans (List.map_id _)
  have hnone : fields.find? (fun f => f.name == e.1) = none := by
    have hout := of_decide_eq_true (List.mem_filter.1 he).2
    rw [List.find?_eq_none]
    intro f hf hname
    exact hout (List.mem_map.2 ⟨f, hf, beq_iff_eq.1 hname⟩)
  simp [knownEntry, hnone]

end Fields

section Block

variable {policy : Policy} {inner : Field → Value → Value} {kind : Kind} {c : Component}

/-- A value that remains in a block is the earlier one, pruned. -/
theorem get?_settledBlock {es : Entries} (hkeys : es.keys.Nodup) {k : String} {w : Value}
    (h : (settledBlock policy inner kind c es).get? k = some w) :
    ∃ v, es.get? k = some v ∧ w = (settledEntry inner kind c (k, v)).2 := by
  obtain ⟨e, he, -, hentry⟩ := exists_of_mem_settledBlock (Entries.mem_of_get? h)
  have hkey : e.1 = k := (congrArg Prod.fst hentry).symm
  subst hkey
  exact ⟨e.2, (Entries.get?_eq_some_iff hkeys).2 he, congrArg Prod.snd hentry⟩

/-- A key that remains in a block is the component's own, or it is reserved and of use: to what is
left of its value in what is left of the block. -/
theorem reserved_of_mem_settledBlock (hinner : ∀ f (v : Value), v.Alike (inner f v)) {es : Entries}
    {e : String × Value} (he : e ∈ settledBlock policy inner kind c es) :
    e.1 = c.name ∨ ∃ f, kind.reserved? e.1 = some f ∧
      f.omissionReason? e.2 (settledBlock policy inner kind c es) = none := by
  have hsurvives := survives_settledBlock hinner he
  unfold survives at hsurvives
  rw [Bool.or_eq_true, beq_iff_eq] at hsurvives
  refine hsurvives.imp_right fun hreserved => ?_
  cases hfield : kind.reserved? e.1 with
  | none =>
    rw [hfield] at hreserved
    cases hreserved
  | some f =>
    rw [hfield] at hreserved
    exact ⟨f, rfl, Option.isNone_iff_eq_none.1 hreserved⟩

theorem settledEntry_own (hname : kind.isReserved c.name = false) (v : Value) :
    (settledEntry inner kind c (c.name, v)).2 = inner c.config v := by
  have hfree : kind.reserved? c.name = none := by
    simpa [Kind.isReserved] using hname
  simp [settledEntry, hfree]

theorem settledEntry_reserved {k : String} (hk : k ≠ c.name) {f : Field}
    (hf : kind.reserved? k = some f) (v : Value) :
    (settledEntry inner kind c (k, v)).2 = inner f v := by
  simp [settledEntry, hk, hf]

end Block

/-! ## Demands -/

/-- Prunes a value as it is demanded: a component block, or an object with known fields. -/
def Demand.prune (policy : Policy) (r : Registry) (inner : Field → Value → Value) :
    Demand → Value → Value
  | .block kind => pruneNestedStep (m := Id) policy r.resolver inner kind
  | .object fields => pruneFieldsStep (m := Id) policy inner fields

theorem pruneFieldTo_succ (policy : Policy) (r : Registry) (n : Nat) (f : Field) (v : Value) :
    pruneFieldTo (m := Id) policy r.resolver (n + 1) f v =
      match f.demand? with
      | some demand => v.overParts (m := Id) f.arity
          (demand.prune policy r (pruneFieldTo (m := Id) policy r.resolver n))
      | none => v := by
  unfold Field.demand?
  show pruneFieldStep (m := Id) policy r.resolver _ f v = _
  unfold pruneFieldStep
  cases f.type.kind? with
  | some kind => rfl
  | none =>
    dsimp only
    split <;> rfl

end StreamConfig
