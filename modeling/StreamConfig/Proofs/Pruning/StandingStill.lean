import StreamConfig.Proofs.Pruning.Faces
import StreamConfig.Prune

/-! # Pruning on a registry that stands still

On such a registry pruning is a plain function, and its steps have closed forms that say at once
what becomes of each entry.

* `pruneEntriesStep_id` — an object with known fields gives each field its turn;
* `pruneReservedStep_id` — reserved fields do not get into one another's way;
* `pruneComponentStep_ok`, `pruneComponentStep_error` — a block that denotes a component is filtered
  and its entries are pruned; a block that denotes nothing is an error;
* `alike_pruneFieldStep` — a value keeps its face.
-/

namespace StreamConfig

/-! ## Parts of a value -/

namespace Entries

theorem modifyM_id (f : Value → Value) (k : String) :
    ∀ es, modifyM (m := Id) f k es = modify es k f
  | [] => rfl
  | e :: rest => by
    have hrest := modifyM_id f k rest
    by_cases h : e.1 = k
    · simp only [modifyM, modify, h, beq_self_eq_true, if_true, List.map_cons]
      exact congrArg ((k, f e.2) :: ·) hrest
    · simp only [modifyM, modify, beq_eq_false_iff_ne.2 h, Bool.false_eq_true, if_false,
        List.map_cons]
      exact congrArg (e :: ·) hrest

theorem mapValuesM_id (f : Value → Value) :
    ∀ es, mapValuesM (m := Id) f es = es.map fun e => (e.1, f e.2)
  | [] => rfl
  | e :: rest => congrArg ((e.1, f e.2) :: ·) (mapValuesM_id f rest)

end Entries

theorem Value.mapItemsM_id (f : Value → Value) :
    ∀ items, mapItemsM (m := Id) f items = items.map f
  | [] => rfl
  | v :: rest => congrArg (f v :: ·) (mapItemsM_id f rest)

theorem Value.overParts_array_id (f : Value → Value) (items : List Value) :
    overParts (m := Id) .array f (.array items) = .array (items.map f) :=
  congrArg Value.array (mapItemsM_id f items)

theorem Value.overParts_map_id (f : Value → Value) (es : Entries) :
    overParts (m := Id) .map f (.object es) = .object (es.map fun e => (e.1, f e.2)) :=
  congrArg Value.object (Entries.mapValuesM_id f es)

/-! ## Objects with known fields -/

section Fields

variable (policy : Policy) (inner : Field → Value → Value)

/-- A field's turn in the pruning of an object. -/
def pruneEntry (es : Entries) (f : Field) : Entries :=
  if policy.keeps f then
    match es.get? f.name with
    | none => es
    | some v =>
      if (f.omissionReason? v es).isSome then es.erase f.name else es.modify f.name (inner f)
  else es.erase f.name

theorem pruneEntriesStep_id : ∀ fields es,
    pruneEntriesStep (m := Id) policy inner fields es = fields.foldl (pruneEntry policy inner) es
  | [], _ => rfl
  | f :: rest, es => by
    rw [List.foldl_cons, ← pruneEntriesStep_id rest, pruneEntry, pruneEntriesStep]
    split
    · cases es.get? f.name with
      | none => rfl
      | some v =>
        dsimp only
        split
        · rfl
        · exact congrArg (pruneEntriesStep (m := Id) policy inner rest) (Entries.modifyM_id _ _ es)
    · rfl

theorem pruneFieldsStep_object (fields : List Field) (es : Entries) :
    pruneFieldsStep (m := Id) policy inner fields (.object es) =
      .object (fields.foldl (pruneEntry policy inner) es) :=
  congrArg Value.object (pruneEntriesStep_id policy inner fields es)

end Fields

/-! ## Reserved fields -/

namespace Kind

theorem nodup_reservedFields (kind : Kind) : (kind.reservedFields.map (·.name)).Nodup := by
  cases kind <;> decide

theorem isRegular_of_reserved? {kind : Kind} {k : String} {f : Field}
    (h : kind.reserved? k = some f) : f.isRegular = true := by
  have hall : ∀ g ∈ kind.reservedFields, g.isRegular = true := by cases kind <;> decide
  exact hall f (List.mem_of_find?_eq_some h)

/-- The omission rules of reserved fields, if they have any. -/
theorem omission_of_reserved? {kind : Kind} {k : String} {f : Field}
    (h : kind.reserved? k = some f) :
    f.omission = none ∨ f.omission = some .whenResource ∨ f.omission = some .whenNoProcessors := by
  have hmem := List.mem_of_find?_eq_some h
  simp only [reservedFields, List.mem_append, List.mem_singleton] at hmem
  rcases hmem with ((hlabel | rfl) | hprocessors) | rfl
  · split at hlabel
    · rw [List.mem_singleton.1 hlabel]
      exact .inr (.inl rfl)
    · cases hlabel
  · exact .inl rfl
  · split at hprocessors
    · rw [List.mem_singleton.1 hprocessors]
      exact .inr (.inr rfl)
    · cases hprocessors
  · exact .inl rfl

/-- Rules of reserved fields look at the object for one thing only: a resource that it points to. -/
theorem omissionReason?_congr_of_reserved? {kind : Kind} {k : String} {f : Field}
    (h : kind.reserved? k = some f) (v : Value) {es es' : Entries}
    (hes : Omission.pointsToResource es' = Omission.pointsToResource es) :
    f.omissionReason? v es' = f.omissionReason? v es := by
  unfold Field.omissionReason?
  rcases omission_of_reserved? h with hf | hf | hf
  · rw [hf]
    rfl
  · simp only [hf, Option.bind_some, Omission.reason?, hes]
  · rw [hf]
    rfl

/-- A reserved field that was of use is of use in an object that points to no more resources. -/
theorem omissionReason?_eq_none_of_reserved? {kind : Kind} {k : String} {f : Field}
    (h : kind.reserved? k = some f) {v w : Value} (hvw : v.Alike w) {es es' : Entries}
    (hes : Omission.pointsToResource es' = true → Omission.pointsToResource es = true)
    (hnone : f.omissionReason? v es = none) : f.omissionReason? w es' = none := by
  unfold Field.omissionReason? at hnone ⊢
  rcases omission_of_reserved? h with hf | hf | hf
  · rw [hf]
    rfl
  · simp only [hf, Option.bind_some, Omission.reason?] at hnone ⊢
    split
    next hpoints =>
      rw [if_pos (hes hpoints)] at hnone
      cases hnone
    next => rfl
  · have hknown : Omission.whenNoProcessors.isKnown = true := rfl
    rw [hf] at hnone ⊢
    exact Omission.reason?_eq_none_of_fades hknown hvw (.refl es) hnone

end Kind

section Reserved

variable (inner : Field → Value → Value)

/-- Every entry of a reserved field is pruned by that field alone. -/
theorem pruneReservedStep_id : ∀ (fields : List Field) (es : Entries),
    (fields.map (·.name)).Nodup →
    pruneReservedStep (m := Id) inner fields es = es.map fun e =>
      (e.1, match fields.find? fun f => f.name == e.1 with
        | some f => inner f e.2
        | none => e.2)
  | [], es, _ => (List.map_id es).symm
  | f :: rest, es, hnames => by
    rw [List.map_cons, List.nodup_cons] at hnames
    have hstep : pruneReservedStep (m := Id) inner (f :: rest) es =
        pruneReservedStep (m := Id) inner rest (es.modify f.name (inner f)) :=
      congrArg (pruneReservedStep (m := Id) inner rest) (Entries.modifyM_id _ _ es)
    rw [hstep, pruneReservedStep_id rest _ hnames.2, Entries.modify, List.map_map]
    refine List.map_congr_left fun e _ => ?_
    by_cases he : e.1 = f.name
    · -- no later field has this name
      have hlater : rest.find? (fun g => g.name == f.name) = none := by
        rw [List.find?_eq_none]
        intro g hg hgf
        exact hnames.1 (List.mem_map.2 ⟨g, hg, beq_iff_eq.1 hgf⟩)
      simp [he, hlater]
    · have hf : ¬ f.name = e.1 := fun h => he h.symm
      simp [he, hf]

end Reserved

/-! ## Component blocks -/

section Block

variable (policy : Policy) (inner : Field → Value → Value) (kind : Kind)

/-- What becomes of an entry that stays in a block of the component `c`. -/
def settledEntry (c : Component) (e : String × Value) : String × Value :=
  let v := if e.1 = c.name then inner c.config e.2 else e.2
  (e.1, match kind.reserved? e.1 with
    | some f => inner f v
    | none => v)

/-- What is left of a block of the component `c`. -/
def settledBlock (c : Component) (es : Entries) : Entries :=
  let kept : Entries := (es.filter (survives kind c.name es)).map (settledEntry inner kind c)
  if policy.removeTypeField then Entries.erase kept "type" else kept

theorem text?_modify {f : Value → Value} (hf : ∀ v : Value, v.Alike (f v)) (es : Entries)
    (k l : String) : (es.modify k f).text? l = es.text? l := by
  unfold Entries.text?
  rw [Entries.get?_modify]
  split
  · cases es.get? l with
    | none => rfl
    | some v => exact (hf v).text?_eq
  · rfl

/-- Whether an entry stays is the same before and after the component's own value is pruned. -/
theorem survives_modify {f : Value → Value} (hf : ∀ v : Value, v.Alike (f v)) (name : String)
    (es : Entries) (e : String × Value) :
    survives kind name (es.modify name f) (if e.1 == name then (e.1, f e.2) else e) =
      survives kind name es e := by
  by_cases he : e.1 = name
  · simp [survives, he]
  · -- a rule can see of the change only whether the object points to a resource
    have hpoints : Omission.pointsToResource (es.modify name f) = Omission.pointsToResource es := by
      unfold Omission.pointsToResource
      rw [text?_modify hf, text?_modify hf]
    rw [if_neg (by simpa using he)]
    unfold survives
    cases hreserved : kind.reserved? e.1 with
    | none => rfl
    | some field =>
      simp only [Kind.omissionReason?_congr_of_reserved? hreserved e.2 hpoints]

variable {kind} {r : Registry}

/-- A block that denotes nothing is an error. -/
theorem pruneComponentStep_error (hkind : kind ≠ .condition) {v : Value} {e : ResolveError}
    (h : r.resolve kind "" v = .error e) :
    pruneComponentStep (m := Id) policy r.resolver inner kind v = .error e := by
  have hfind : (r.resolver kind "" v : Id _) = .error e := h
  rw [pruneComponentStep, if_neg hkind, hfind]
  rfl

/-- A block that denotes a component is reduced to that component's entries. -/
theorem pruneComponentStep_ok (hinner : ∀ f v, Value.Alike v (inner f v))
    (hkind : kind ≠ .condition) {es : Entries} {c : Component}
    (h : r.resolve kind "" (.object es) = .ok c) :
    pruneComponentStep (m := Id) policy r.resolver inner kind (.object es) =
      .ok (.object (settledBlock policy inner kind c es)) := by
  have hfind : (r.resolver kind "" (.object es) : Id _) = .ok c := h
  -- the own value is pruned before entries are filtered, which makes no difference to the filter
  have hsurvives : survives kind c.name (es.modify c.name (inner c.config)) ∘
      (fun e => if e.1 == c.name then (e.1, inner c.config e.2) else e) =
      survives kind c.name es :=
    funext fun e => survives_modify kind (hinner c.config) c.name es e
  have hblock : pruneReservedStep (m := Id) inner kind.reservedFields
      ((es.modify c.name (inner c.config)).filter
        (survives kind c.name (es.modify c.name (inner c.config)))) =
      (es.filter (survives kind c.name es)).map (settledEntry inner kind c) := by
    rw [pruneReservedStep_id inner _ _ kind.nodup_reservedFields, ← hsurvives, Entries.modify,
      List.filter_map, List.map_map]
    refine List.map_congr_left fun e _ => ?_
    by_cases he : e.1 = c.name
    · simp [settledEntry, he, Kind.reserved?]
    · simp [settledEntry, he, Kind.reserved?]
  have hconfigured := Entries.modifyM_id (inner c.config) c.name es
  rw [pruneComponentStep, if_neg hkind, hfind]
  unfold settledBlock
  rw [← hblock, ← hconfigured]
  rfl

/-- A nested condition is never resolved. -/
theorem pruneNestedStep_condition (v : Value) :
    pruneNestedStep (m := Id) policy r.resolver inner .condition v =
      match pruneCondition v with
      | .ok w => w
      | .error _ => v := rfl

/-- A nested block that denotes nothing stays as it is. -/
theorem pruneNestedStep_error (hkind : kind ≠ .condition) {v : Value} {e : ResolveError}
    (h : r.resolve kind "" v = .error e) :
    pruneNestedStep (m := Id) policy r.resolver inner kind v = v := by
  have hcomponent := pruneComponentStep_error policy inner hkind h
  rw [pruneNestedStep, hcomponent]
  rfl

theorem pruneNestedStep_ok (hinner : ∀ f v, Value.Alike v (inner f v)) (hkind : kind ≠ .condition)
    {es : Entries} {c : Component} (h : r.resolve kind "" (.object es) = .ok c) :
    pruneNestedStep (m := Id) policy r.resolver inner kind (.object es) =
      .object (settledBlock policy inner kind c es) := by
  have hcomponent := pruneComponentStep_ok policy inner hinner hkind h
  rw [pruneNestedStep, hcomponent]
  rfl

end Block

/-! ## Faces -/

section Alike

variable {policy : Policy} {inner : Field → Value → Value} {r : Registry}

theorem alike_overParts {f : Value → Value} (hf : ∀ v : Value, v.Alike (f v)) (arity : Arity)
    (v : Value) : v.Alike (v.overParts (m := Id) arity f) := by
  cases arity with
  | scalar => exact hf v
  | array =>
    cases v with
    | array items =>
      rw [Value.overParts_array_id]
      exact .array (List.length_map _).symm
    | null | bool | number | string | object => exact .refl _
  | map =>
    cases v with
    | object es => exact .object es _
    | null | bool | number | string | array => exact .refl _

theorem alike_pruneNestedStep (hinner : ∀ f v, Value.Alike v (inner f v)) (kind : Kind)
    (v : Value) : v.Alike (pruneNestedStep (m := Id) policy r.resolver inner kind v) := by
  by_cases hkind : kind = .condition
  · subst hkind
    cases v with
    | object es =>
      rw [pruneNestedStep_condition, pruneCondition]
      cases Entries.get? es "type" with
      | none => exact .refl _
      | some t => exact .object es _
    | null | bool | number | string | array => exact .refl _
  · cases h : r.resolve kind "" v with
    | error e =>
      rw [pruneNestedStep_error policy inner hkind h]
      exact .refl v
    | ok c =>
      cases v with
      | object es =>
        rw [pruneNestedStep_ok policy inner hinner hkind h]
        exact .object es _
      | null | bool | number | string | array => cases h

theorem alike_pruneFieldStep (hinner : ∀ f v, Value.Alike v (inner f v)) (f : Field) (v : Value) :
    v.Alike (pruneFieldStep (m := Id) policy r.resolver inner f v) := by
  unfold pruneFieldStep
  cases f.type.kind? with
  | some kind => exact alike_overParts (alike_pruneNestedStep hinner kind) f.arity v
  | none =>
    dsimp only
    split
    · exact .refl v
    · refine alike_overParts (fun w => ?_) f.arity v
      cases w with
      | object es => exact .object es _
      | null | bool | number | string | array => exact .refl _

/-- A field's value keeps its face, however many levels are pruned. -/
theorem alike_pruneFieldTo (policy : Policy) (r : Registry) :
    ∀ n f v, Value.Alike v (pruneFieldTo (m := Id) policy r.resolver n f v)
  | 0, _, v => .refl v
  | n + 1, f, v => alike_pruneFieldStep (alike_pruneFieldTo policy r n) f v

end Alike

end StreamConfig
