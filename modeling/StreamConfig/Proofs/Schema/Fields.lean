import StreamConfig.Proofs.Schema.Regular
import StreamConfig.Proofs.Snapshot

/-! # All fields of a registry

* `Field.family` — a field with all fields below it
* `Registry.fields` — all fields by which the components of a registry are configured
* `Registry.forall_mem_fields_supplied` — what holds of all fields of a registry still holds when a
  run has refreshed it
* `Registry.KeepsApart` — names that do not get into one another's way, whatever the rules are
-/

namespace StreamConfig

mutual
/-- A field with all fields below it. -/
def Field.family (f : Field) : List Field :=
  match f with
  | ⟨_, _, _, _, _, _, _, children, _, _⟩ => f :: Field.families children

def Field.families : List Field → List Field
  | [] => []
  | f :: rest => f.family ++ Field.families rest
end

theorem Field.mem_families_iff {g : Field} {fields : List Field} :
    g ∈ families fields ↔ ∃ f ∈ fields, g ∈ f.family := by
  induction fields with
  | nil => simp [families]
  | cons f rest ih => simp [families, ih]

theorem Field.mem_family_iff {f g : Field} :
    g ∈ f.family ↔ g = f ∨ ∃ c ∈ f.children, g ∈ c.family := by
  obtain ⟨_, _, _, _, _, _, _, children, _, _⟩ := f
  simp [family, mem_families_iff]

theorem Field.mem_family_self (f : Field) : f ∈ f.family := mem_family_iff.2 (.inl rfl)

theorem Field.mem_family_of_child {f c g : Field} (hc : c ∈ f.children) (h : g ∈ c.family) :
    g ∈ f.family := mem_family_iff.2 (.inr ⟨c, hc, h⟩)

namespace Registry

/-- All fields that configure the components of a registry. -/
def fields (r : Registry) : List Field := r.known.flatMap fun c => c.config.family

theorem mem_fields_of_get? {r : Registry} {kind : Kind} {name : String} {c : Component}
    (h : r.get? kind name = some c) {f : Field} (hf : f ∈ c.config.family) : f ∈ r.fields :=
  List.mem_flatMap.2 ⟨c, List.mem_of_find?_eq_some h, hf⟩

variable {good : Field → Prop}

/-- The one field of an announced component is the only one that a refresh can bring. -/
theorem forall_mem_fields_refreshed (hplain : good (Field.object "" "" [])) {r : Registry}
    (h : ∀ f ∈ r.fields, good f) : ∀ f ∈ r.refreshed.fields, good f := by
  refine refreshed_induction (P := fun s => ∀ f ∈ s.fields, good f) r h ?_
  intro s hs n _ f hf
  obtain ⟨c, hc, hmem⟩ := List.mem_flatMap.1 hf
  rcases List.mem_cons.1 hc with rfl | hc
  · obtain rfl : f = Field.object "" "" [] := by
      simpa [Component.announced, Component.plain, Field.object, Field.plain, Field.family,
        Field.families] using hmem
    exact hplain
  · exact hs f (List.mem_flatMap.2 ⟨c, (List.mem_filter.1 hc).1, hmem⟩)

/-- What holds of all fields of a registry holds of all that a run with a policy meets. -/
theorem forall_mem_fields_supplied (hplain : good (Field.object "" "" []))
    (hbuiltin : ∀ f ∈ Builtin.registry.fields, good f) {r : Registry} (h : ∀ f ∈ r.fields, good f)
    (policy : Policy) : ∀ f ∈ (policy.registry r).refreshed.fields, good f := by
  apply forall_mem_fields_refreshed hplain
  unfold Policy.registry
  cases policy.supply with
  | own => exact h
  | builtin => exact hbuiltin

end Registry

/-! ## Names -/

/-- No two fields directly below have one name. -/
def Field.KeepsApart (f : Field) : Prop := (f.children.map (·.name)).Nodup

instance (f : Field) : Decidable f.KeepsApart := inferInstanceAs (Decidable (List.Nodup _))

/-- No two sibling fields have one name, and no component has the name of a reserved field. -/
structure Registry.KeepsApart (r : Registry) : Prop where
  siblings : ∀ f ∈ r.fields, f.KeepsApart
  names : ∀ c ∈ r.known, c.kind.isReserved c.name = false

theorem Kind.keepsApart_of_mem_reservedFields (kind : Kind) :
    ∀ f ∈ kind.reservedFields, f.KeepsApart := by
  cases kind <;> decide

theorem Builtin.registry_keepsApart : Builtin.registry.refreshed.KeepsApart where
  siblings := by decide
  names := by decide

/-! ## Rules -/

/-- A field that carries no rule made up for the occasion. -/
def Field.HasKnownRule (f : Field) : Prop := f.omission.all Omission.isKnown = true

instance (f : Field) : Decidable f.HasKnownRule := inferInstanceAs (Decidable (_ = true))

theorem Field.isKnown_of_hasKnownRule {f : Field} (h : f.HasKnownRule) {rule : Omission}
    (hrule : f.omission = some rule) : rule.isKnown = true := by
  simpa [HasKnownRule, hrule] using h

/-- Reserved fields have no fields below them. -/
theorem Kind.family_of_reserved? {kind : Kind} {k : String} {f : Field}
    (h : kind.reserved? k = some f) : f.family = [f] := by
  have hall : ∀ g ∈ kind.reservedFields, g.children.isEmpty = true := by cases kind <;> decide
  have hchildren := List.isEmpty_iff.1 (hall f (List.mem_of_find?_eq_some h))
  obtain ⟨_, _, _, _, _, _, _, children, _, _⟩ := f
  subst hchildren
  rfl

/-- What holds of the reserved fields of a kind holds of all that is below them. -/
theorem Kind.forall_mem_family_of_reserved? {good : Field → Prop} {kind : Kind}
    (hall : ∀ g ∈ kind.reservedFields, good g) {k : String} {f : Field}
    (h : kind.reserved? k = some f) : ∀ g ∈ f.family, good g := by
  rw [family_of_reserved? h]
  intro g hg
  obtain rfl := List.mem_singleton.1 hg
  exact hall g (List.mem_of_find?_eq_some h)

theorem Kind.hasKnownRule_of_mem_reservedFields (kind : Kind) :
    ∀ f ∈ kind.reservedFields, f.HasKnownRule := by
  cases kind <;> decide

theorem Builtin.hasKnownRule_of_mem_fields : ∀ f ∈ Builtin.registry.fields, f.HasKnownRule := by
  decide

/-- Only reserved fields come with a linter. -/
theorem Builtin.linter_of_mem_fields {f : Field} (hf : f ∈ Builtin.registry.fields) :
    f.linter = none := by
  have hnone : ∀ f ∈ Builtin.registry.fields, f.linter.isNone = true := by decide
  exact Option.isNone_iff_eq_none.1 (hnone f hf)

end StreamConfig
