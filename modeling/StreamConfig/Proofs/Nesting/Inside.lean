import Mathlib.Logic.Relation
import StreamConfig.Proofs.Pruning.Levels

/-! # What stands inside a value

A walk goes from a value to the values inside it. Where pruning has been before, it may meet less
there than had been written, so what it meets is what may be left of a value inside.

* `Value.Contains` — what stands directly in an array or an object
* `Value.Covers` — what may be left of a value or of one that stands anywhere inside it
* `Value.Encloses` — what may be left of a value that stands inside; it is less deep
-/

namespace StreamConfig.Value

/-- The second value is an item of the first, or stands under one of its keys. -/
inductive Contains : Value → Value → Prop
  | item {items : List Value} {v : Value} (h : v ∈ items) : Contains (.array items) v
  | entry {es : Entries} {e : String × Value} (h : e ∈ es) : Contains (.object es) e.2

/-- The second value is what may be left of the first, or of a value inside it. -/
def Covers (v w : Value) : Prop := ∃ u, Relation.ReflTransGen Contains v u ∧ u.ThinsTo w

/-- The second value is what may be left of a value inside the first. -/
def Encloses (v w : Value) : Prop := ∃ u, v.Contains u ∧ u.Covers w

variable {u v w : Value}

theorem Contains.depth_lt (h : v.Contains w) : w.depth < v.depth := by
  cases h with
  | item h => exact depth_lt_of_mem_array h
  | entry h => exact depth_lt_of_mem_object h

/-- What is left in a thinned value is left of something in the value. -/
theorem ThinsTo.exists_contains (h : u.ThinsTo v) (hw : v.Contains w) :
    ∃ x, u.Contains x ∧ x.ThinsTo w := by
  cases hw with
  | item hmem =>
    cases h with
    | scalar hscalar => cases hscalar
    | array hitems =>
      obtain ⟨x, hx, hthins⟩ := exists_mem_of_forall₂ hitems hmem
      exact ⟨x, .item hx, hthins⟩
  | entry hmem =>
    cases h with
    | scalar hscalar => cases hscalar
    | object hkept haligned =>
      obtain ⟨e, he, -, hthins⟩ := haligned.exists_mem hmem
      exact ⟨e.2, .entry (hkept.mem he), hthins⟩

namespace Covers

theorem of_thinsTo (h : v.ThinsTo w) : v.Covers w := ⟨v, .refl, h⟩

theorem refl (v : Value) : v.Covers v := .of_thinsTo (.refl v)

theorem of_contains (h : v.Contains w) : v.Covers w := ⟨w, .single h, .refl w⟩

/-- By induction on the way down into what was left. -/
theorem trans (h : u.Covers v) (h' : v.Covers w) : u.Covers w := by
  obtain ⟨x, hux, hxv⟩ := h
  obtain ⟨y, hvy, hyw⟩ := h'
  have hway : ∃ z, Relation.ReflTransGen Contains u z ∧ z.ThinsTo y := by
    clear hyw
    induction hvy with
    | refl => exact ⟨x, hux, hxv⟩
    | tail _ hnext ih =>
      obtain ⟨z, huz, hthins⟩ := ih
      obtain ⟨z', hz', hthins'⟩ := hthins.exists_contains hnext
      exact ⟨z', huz.tail hz', hthins'⟩
  obtain ⟨z, huz, hzy⟩ := hway
  exact ⟨z, huz, hzy.trans hyw⟩

theorem depth_le (h : v.Covers w) : w.depth ≤ v.depth := by
  obtain ⟨u, hvu, huw⟩ := h
  have hinside : u.depth ≤ v.depth := by
    clear huw
    induction hvu with
    | refl => exact Nat.le_refl _
    | tail _ hnext ih => exact hnext.depth_lt.le.trans ih
  exact huw.depth_le.trans hinside

theorem trans_encloses (h : u.Covers v) (h' : v.Encloses w) : u.Encloses w := by
  obtain ⟨x, hux, hxv⟩ := h
  obtain ⟨y, hvy, hyw⟩ := h'
  obtain ⟨z, hxz, hzy⟩ := hxv.exists_contains hvy
  -- the way from `u` to `z` has a first step
  obtain ⟨first, hfirst, hrest⟩ := Relation.TransGen.head'_iff.1 (.tail' hux hxz)
  exact ⟨first, hfirst, Covers.trans ⟨z, hrest, hzy⟩ hyw⟩

end Covers

namespace Encloses

theorem trans_covers (h : u.Encloses v) (h' : v.Covers w) : u.Encloses w := by
  obtain ⟨x, hux, hxv⟩ := h
  exact ⟨x, hux, hxv.trans h'⟩

theorem covers (h : v.Encloses w) : v.Covers w := by
  obtain ⟨x, hvx, hxw⟩ := h
  exact (Covers.of_contains hvx).trans hxw

/-- What is left under a key of an object that has been thinned. -/
theorem of_entry {es : Entries} (h : v.ThinsTo (.object es)) {e : String × Value} (he : e ∈ es) :
    v.Encloses e.2 :=
  (Covers.of_thinsTo h).trans_encloses ⟨e.2, .entry he, .refl e.2⟩

theorem depth_lt (h : v.Encloses w) : w.depth < v.depth := by
  obtain ⟨x, hvx, hxw⟩ := h
  exact hxw.depth_le.trans_lt hvx.depth_lt

end Encloses

end StreamConfig.Value
