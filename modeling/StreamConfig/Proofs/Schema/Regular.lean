import StreamConfig.Schema.Builtin
import StreamConfig.Schema.Reserved

/-! # Regular registries

A registry is regular if its components do not get into one another's way: no two sibling fields
share a name, no component has the name of a reserved key of its kind, and every omission rule is
one of those that fields are given, none made up for the occasion.

* `Field.isRegular`, `Registry.IsRegular` — the property, of one field tree and of a registry;
* `Registry.IsRegular.refreshed` — names that wait in the queue are covered;
* `Builtin.registry_isRegular` — the built-in components make up a regular registry.
-/

namespace StreamConfig

/-- Every rule but the ones made up for the occasion. -/
def Omission.isKnown : Omission → Bool
  | .custom _ => false
  | _ => true

mutual
/-- Siblings have distinct names, and rules are known, at every level of a field tree. -/
def Field.isRegular (f : Field) : Bool :=
  match f with
  | ⟨_, _, _, _, _, _, _, children, omission, _⟩ =>
    omission.all Omission.isKnown && decide (children.map (·.name)).Nodup &&
      Field.areRegular children

def Field.areRegular : List Field → Bool
  | [] => true
  | f :: rest => f.isRegular && Field.areRegular rest
end

theorem Field.areRegular_iff {fields : List Field} :
    areRegular fields = true ↔ ∀ f ∈ fields, f.isRegular = true := by
  induction fields with
  | nil => simp [areRegular]
  | cons f rest ih => simp [areRegular, ih]

theorem Field.isRegular_iff {f : Field} :
    f.isRegular = true ↔ (∀ rule, f.omission = some rule → rule.isKnown = true) ∧
      (f.children.map (·.name)).Nodup ∧ ∀ c ∈ f.children, c.isRegular = true := by
  obtain ⟨_, _, _, _, _, _, _, children, omission, _⟩ := f
  simp only [isRegular, Bool.and_eq_true, decide_eq_true_eq, areRegular_iff,
    Option.all_eq_true, and_assoc]

/-- Components that do not get into one another's way, the ones in the queue included. -/
structure Registry.IsRegular (r : Registry) : Prop where
  config : ∀ c ∈ r.known, c.config.isRegular = true
  name : ∀ c ∈ r.known, c.kind.isReserved c.name = false
  queued : ∀ n ∈ r.queue, n.2.isReserved n.1 = false

/-- What is found has a name that is not reserved, if no component has one. -/
theorem Registry.isReserved_of_get? {r : Registry}
    (hnames : ∀ c ∈ r.known, c.kind.isReserved c.name = false) {kind : Kind} {name : String}
    {c : Component} (h : r.get? kind name = some c) : kind.isReserved c.name = false := by
  have hfree := hnames c (List.mem_of_find?_eq_some h)
  rwa [(answers_of_get? h).1] at hfree

namespace Registry.IsRegular

variable {r : Registry}

theorem register (hr : r.IsRegular) {c : Component} (hconfig : c.config.isRegular = true)
    (hname : c.kind.isReserved c.name = false) : (r.register c).IsRegular where
  config d hd := by
    rcases List.mem_cons.1 hd with rfl | hd
    · exact hconfig
    · exact hr.config d (List.mem_filter.1 hd).1
  name d hd := by
    rcases List.mem_cons.1 hd with rfl | hd
    · exact hname
    · exact hr.name d (List.mem_filter.1 hd).1
  queued := hr.queued

/-- A refresh registers components without fields under names that are not reserved. -/
theorem refreshed (hr : r.IsRegular) : r.refreshed.IsRegular := by
  apply refreshed_induction r
  · exact ⟨hr.config, hr.name, fun _ h => nomatch h⟩
  · exact fun s hs n hn => hs.register rfl (hr.queued n hn)

/-- What is found has a regular configuration. -/
theorem config_of_get? (hr : r.IsRegular) {kind : Kind} {name : String} {c : Component}
    (h : r.get? kind name = some c) : c.config.isRegular = true :=
  hr.config c (List.mem_of_find?_eq_some h)

/-- What is found has a name that is not reserved. -/
theorem name_of_get? (hr : r.IsRegular) {kind : Kind} {name : String} {c : Component}
    (h : r.get? kind name = some c) : kind.isReserved c.name = false :=
  isReserved_of_get? hr.name h

end Registry.IsRegular

/-- The built-in components make up a regular registry. -/
theorem Builtin.registry_isRegular : Builtin.registry.IsRegular where
  config := by decide
  name := by decide
  queued := by decide

end StreamConfig
