import Mathlib.Data.List.Forall2
import StreamConfig.Proofs.Value.Depth
import StreamConfig.Value.Entries

/-! # Equality up to the entries of objects

Two values are compared from the top down. Scalars have to be equal, arrays have to agree item by
item. The entries of an object may first be changed in some way, which is a parameter; after that
the keys have to be equal one by one, and the values have to agree in their turn.

* `Value.UpTo` — equality up to a change of entries
* `Value.ThinsTo` — the change is to drop entries
* `Value.Reordered` — the change is to move entries around
-/

namespace StreamConfig

/-- The same keys in the same order, with values that are related one by one. -/
inductive Entries.Aligned (R : Value → Value → Prop) : Entries → Entries → Prop
  | nil : Aligned R [] []
  | cons (k : String) {v w : Value} {es es' : Entries} (hvalue : R v w) (h : Aligned R es es') :
      Aligned R ((k, v) :: es) ((k, w) :: es')

namespace Value

/-- Neither an array nor an object. -/
def isScalar : Value → Bool
  | .array _ | .object _ => false
  | _ => true

/-- Equality up to a change of the entries of every object. -/
inductive UpTo (change : Entries → Entries → Prop) : Value → Value → Prop
  | scalar {v : Value} (h : v.isScalar = true) : UpTo change v v
  | array {items items' : List Value} (h : List.Forall₂ (UpTo change) items items') :
      UpTo change (.array items) (.array items')
  | object {es mid es' : Entries} (hchange : change es mid)
      (h : Entries.Aligned (UpTo change) mid es') : UpTo change (.object es) (.object es')

/-- Nothing but entries of objects has gone: scalars are unchanged, arrays keep their items in
order, and the keys that are left in an object keep theirs. -/
def ThinsTo : Value → Value → Prop := UpTo fun es kept => kept.Sublist es

/-- Nothing but the order of keys in objects is different. -/
def Reordered : Value → Value → Prop := UpTo List.Perm

/-- Induction over values, through the members of arrays and objects. -/
@[elab_as_elim]
theorem inductMembers {motive : Value → Prop}
    (scalar : ∀ v : Value, v.isScalar = true → motive v)
    (array : ∀ items, (∀ v ∈ items, motive v) → motive (.array items))
    (object : ∀ es : Entries, (∀ e ∈ es, motive e.2) → motive (.object es)) (v : Value) :
    motive v := by
  match v with
  | .array items =>
    apply array
    intro w hw
    have := depth_lt_of_mem_array hw
    exact inductMembers scalar array object w
  | .object es =>
    apply object
    intro e he
    have := depth_lt_of_mem_object he
    exact inductMembers scalar array object e.2
  | .null | .bool _ | .number _ | .string _ => exact scalar _ rfl
termination_by v.depth

end Value

/-! ## Aligned entries -/

namespace Entries.Aligned

variable {R : Value → Value → Prop} {es es' : Entries}

/-- Entries are aligned with what becomes of them one by one. -/
theorem map {change : String × Value → String × Value} (hkey : ∀ e ∈ es, (change e).1 = e.1)
    (hvalue : ∀ e ∈ es, R e.2 (change e).2) : Aligned R es (es.map change) := by
  induction es with
  | nil => exact .nil
  | cons e rest ih =>
    obtain ⟨k, v⟩ := e
    have hhead : change (k, v) = (k, (change (k, v)).2) :=
      Prod.ext (hkey _ List.mem_cons_self) rfl
    rw [List.map_cons, hhead]
    apply Aligned.cons k (hvalue _ List.mem_cons_self)
    exact ih (fun e he => hkey e (List.mem_cons_of_mem _ he))
      fun e he => hvalue e (List.mem_cons_of_mem _ he)

theorem refl (h : ∀ e ∈ es, R e.2 e.2) : Aligned R es es := by
  have hmap : Aligned R es (es.map id) := map (fun _ _ => rfl) h
  rwa [List.map_id] at hmap

theorem trans {es'' : Entries} (h : Aligned R es es') (h' : Aligned R es' es'')
    (hvalue : ∀ e ∈ es, ∀ v w, R e.2 v → R v w → R e.2 w) : Aligned R es es'' := by
  induction h generalizing es'' with
  | nil =>
    cases h'
    exact .nil
  | cons k hv _ ih =>
    cases h' with
    | cons _ hw hrest =>
      apply Aligned.cons k (hvalue _ List.mem_cons_self _ _ hv hw)
      exact ih hrest fun e he => hvalue e (List.mem_cons_of_mem _ he)

/-- Some of the later entries are aligned with some of the earlier ones. -/
theorem exists_sublist (h : Aligned R es es') {kept : Entries} (hkept : kept.Sublist es') :
    ∃ before, before.Sublist es ∧ Aligned R before kept := by
  induction h generalizing kept with
  | nil =>
    cases hkept
    exact ⟨[], .refl _, .nil⟩
  | cons k hv _ ih =>
    cases hkept with
    | cons _ hrest =>
      obtain ⟨before, hbefore, haligned⟩ := ih hrest
      exact ⟨before, hbefore.cons _, haligned⟩
    | cons_cons _ hrest =>
      obtain ⟨before, hbefore, haligned⟩ := ih hrest
      exact ⟨_, hbefore.cons_cons _, .cons k hv haligned⟩

end Entries.Aligned

/-! ## Dropping entries -/

theorem forall₂_trans_of_mem {R : Value → Value → Prop} {us vs ws : List Value}
    (h : List.Forall₂ R us vs) (h' : List.Forall₂ R vs ws)
    (hmem : ∀ u ∈ us, ∀ v w, R u v → R v w → R u w) : List.Forall₂ R us ws := by
  induction h generalizing ws with
  | nil => exact h'
  | cons hu _ ih =>
    cases h' with
    | cons hv hrest =>
      apply List.Forall₂.cons (hmem _ List.mem_cons_self _ _ hu hv)
      exact ih hrest fun u hu => hmem u (List.mem_cons_of_mem _ hu)

namespace Value.ThinsTo

theorem array {items items' : List Value} (h : List.Forall₂ ThinsTo items items') :
    (Value.array items).ThinsTo (.array items') := UpTo.array h

theorem object {es kept es' : Entries} (hkept : kept.Sublist es)
    (h : Entries.Aligned ThinsTo kept es') : (Value.object es).ThinsTo (.object es') :=
  UpTo.object hkept h

theorem refl (v : Value) : v.ThinsTo v := by
  induction v using inductMembers with
  | scalar v h => exact UpTo.scalar h
  | array items ih => exact .array (List.forall₂_same.2 ih)
  | object es ih => exact .object (.refl _) (.refl ih)

theorem trans {u v w : Value} (h : u.ThinsTo v) (h' : v.ThinsTo w) : u.ThinsTo w := by
  induction u using inductMembers generalizing v w with
  | scalar u hu =>
    cases h with
    | scalar => exact h'
    | array | object => cases hu
  | array items ih =>
    cases h with
    | scalar hscalar => cases hscalar
    | array hitems =>
      cases h' with
      | scalar hscalar => cases hscalar
      | array hitems' =>
        exact .array (forall₂_trans_of_mem hitems hitems' fun u hu _ _ hv hw => ih u hu hv hw)
  | object es ih =>
    cases h with
    | scalar hscalar => cases hscalar
    | object hkept haligned =>
      cases h' with
      | scalar hscalar => cases hscalar
      | object hkept' haligned' =>
        -- what is kept in the end goes back to some of what was kept first
        obtain ⟨before, hbefore, hfirst⟩ := haligned.exists_sublist hkept'
        apply ThinsTo.object (hbefore.trans hkept)
        apply hfirst.trans haligned'
        intro e he v w hv hw
        exact ih e (hkept.mem (hbefore.mem he)) hv hw

/-- An object some of whose entries are kept, with thinned values. -/
theorem object_map_filter {keep : String × Value → Bool}
    {change : String × Value → String × Value} {es : Entries}
    (hkey : ∀ e, (change e).1 = e.1)
    (hvalue : ∀ e : String × Value, e.2.ThinsTo (change e).2) :
    (Value.object es).ThinsTo (.object ((es.filter keep).map change)) :=
  .object List.filter_sublist (.map (fun e _ => hkey e) fun e _ => hvalue e)

theorem object_filter (keep : String × Value → Bool) (es : Entries) :
    (Value.object es).ThinsTo (.object (es.filter keep)) :=
  .object List.filter_sublist (.refl fun e _ => refl e.2)

/-- An object with a thinned value under one key. -/
theorem object_modify {f : Value → Value} (hf : ∀ v : Value, v.ThinsTo (f v)) (k : String)
    (es : Entries) : (Value.object es).ThinsTo (.object (es.modify k f)) := by
  apply ThinsTo.object (.refl es)
  apply Entries.Aligned.map
  · intro e _
    split <;> rfl
  · intro e _
    split
    · exact hf e.2
    · exact .refl e.2

end Value.ThinsTo

end StreamConfig
