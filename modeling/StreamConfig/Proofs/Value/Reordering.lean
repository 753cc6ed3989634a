import StreamConfig.Proofs.Value.Distinct
import StreamConfig.Proofs.Value.UpTo

/-! # Values up to the order of keys

What can be asked of a value without looking at the order of keys has the same answer for two values
that are equal up to that order:
* `Reordered.depth_eq`, `Reordered.hasDistinctKeys` — how deep it is, whether it repeats keys
* `Entries.Reordered.get?`, `text?_eq` — what stands under a key

Operations on entries that treat equal things alike keep two objects equal up to order:
`Entries.Reordered.filter`, `Entries.Reordered.map`.
-/

namespace StreamConfig

namespace Entries

theorem mem_of_get? {es : Entries} {k : String} {v : Value} (h : get? es k = some v) :
    (k, v) ∈ es := by
  obtain ⟨e, he, rfl⟩ := Option.map_eq_some_iff.1 h
  have hkey : e.1 = k := by simpa using List.find?_some he
  exact hkey ▸ List.mem_of_find?_eq_some he

/-- Look-up is membership where no key is repeated. -/
theorem get?_eq_some_iff {es : Entries} (h : (keys es).Nodup) {k : String} {v : Value} :
    get? es k = some v ↔ (k, v) ∈ es := by
  induction es with
  | nil => simp
  | cons e rest ih =>
    obtain ⟨l, w⟩ := e
    rw [keys_cons, List.nodup_cons] at h
    rw [get?_cons, List.mem_cons, Prod.mk.injEq]
    by_cases hk : l = k
    · subst hk
      have hrest : (l, v) ∉ rest := fun hmem => h.1 (List.mem_map.2 ⟨_, hmem, rfl⟩)
      simp [hrest, eq_comm]
    · simp [hk, Ne.symm hk, ih h.2]

theorem get?_of_perm {es es' : Entries} (h : (keys es).Nodup) (hperm : es.Perm es') (k : String) :
    get? es k = get? es' k := by
  have h' : (keys es').Nodup := (hperm.map _).nodup_iff.1 h
  ext v
  rw [get?_eq_some_iff h, get?_eq_some_iff h', hperm.mem_iff]

namespace Aligned

variable {R : Value → Value → Prop} {es es' : Entries}

theorem keys_eq (h : Aligned R es es') : keys es' = keys es := by
  induction h with
  | nil => rfl
  | cons k _ _ ih => simp [ih]

theorem get? (h : Aligned R es es') (k : String) :
    Option.Rel R (Entries.get? es k) (Entries.get? es' k) := by
  induction h with
  | nil => exact .none
  | cons l hvalue _ ih =>
    rw [get?_cons, get?_cons]
    by_cases hl : l = k
    · simpa [hl] using Option.Rel.some hvalue
    · simpa [hl] using ih

theorem imp_of_mem {S : Value → Value → Prop} (h : Aligned R es es')
    (hvalue : ∀ e ∈ es, ∀ w, R e.2 w → S e.2 w) : Aligned S es es' := by
  induction h with
  | nil => exact .nil
  | cons k hhere _ ih =>
    apply Aligned.cons k (hvalue _ List.mem_cons_self _ hhere)
    exact ih fun e he => hvalue e (List.mem_cons_of_mem _ he)

theorem exists_mem (h : Aligned R es es') {e' : String × Value} (he' : e' ∈ es') :
    ∃ e ∈ es, e.1 = e'.1 ∧ R e.2 e'.2 := by
  induction h with
  | nil => cases he'
  | cons k hvalue _ ih =>
    rcases List.mem_cons.1 he' with rfl | he'
    · exact ⟨_, List.mem_cons_self, rfl, hvalue⟩
    · obtain ⟨e, he, hkey, hrel⟩ := ih he'
      exact ⟨e, List.mem_cons_of_mem _ he, hkey, hrel⟩

theorem filter {keep keep' : String × Value → Bool} (h : Aligned R es es')
    (hkeep : ∀ k v w, (k, v) ∈ es → R v w → keep (k, v) = keep' (k, w)) :
    Aligned R (es.filter keep) (es'.filter keep') := by
  induction h with
  | nil => exact .nil
  | cons k hvalue _ ih =>
    have hrest := ih fun l v w hmem => hkeep l v w (List.mem_cons_of_mem _ hmem)
    rw [List.filter_cons, List.filter_cons, ← hkeep k _ _ List.mem_cons_self hvalue]
    split
    · exact .cons k hvalue hrest
    · exact hrest

theorem map_map {change change' : String × Value → String × Value} (h : Aligned R es es')
    (hkey : ∀ e, (change e).1 = e.1) (hkey' : ∀ e, (change' e).1 = e.1)
    (hchange : ∀ k v w, (k, v) ∈ es → R v w → R (change (k, v)).2 (change' (k, w)).2) :
    Aligned R (es.map change) (es'.map change') := by
  induction h with
  | nil => exact .nil
  | cons k hvalue _ ih =>
    have hrest := ih fun l v w hmem => hchange l v w (List.mem_cons_of_mem _ hmem)
    have hhere := Aligned.cons k (hchange k _ _ List.mem_cons_self hvalue) hrest
    rw [List.map_cons, List.map_cons]
    convert hhere using 2
    · exact Prod.ext (hkey _) rfl
    · exact Prod.ext (hkey' _) rfl

end Aligned

/-- The same entries up to the order of keys, here and further down. -/
def Reordered (es es' : Entries) : Prop := ∃ mid, es.Perm mid ∧ Aligned Value.Reordered mid es'

end Entries

namespace Value.Reordered

variable {v w : Value}

theorem object_iff {es es' : Entries} :
    (Value.object es).Reordered (.object es') ↔ es.Reordered es' := by
  constructor
  · intro h
    cases h with
    | scalar hscalar => cases hscalar
    | object hperm haligned => exact ⟨_, hperm, haligned⟩
  · rintro ⟨mid, hperm, haligned⟩
    exact UpTo.object hperm haligned

theorem exists_object {es : Entries} (h : (Value.object es).Reordered w) :
    ∃ es', w = .object es' ∧ es.Reordered es' := by
  cases h with
  | scalar hscalar => cases hscalar
  | object hperm haligned => exact ⟨_, rfl, _, hperm, haligned⟩

theorem exists_array {items : List Value} (h : (Value.array items).Reordered w) :
    ∃ items', w = .array items' ∧ List.Forall₂ Value.Reordered items items' := by
  cases h with
  | scalar hscalar => cases hscalar
  | array hitems => exact ⟨_, rfl, hitems⟩

theorem eq_of_isScalar (h : v.Reordered w) (hv : v.isScalar = true) : w = v := by
  cases h with
  | scalar => rfl
  | array | object => cases hv

theorem text?_eq (h : v.Reordered w) : w.text? = v.text? := by cases h <;> rfl

end Value.Reordered

namespace Entries.Reordered

variable {es es' : Entries}

theorem keys_perm (h : es.Reordered es') : (keys es).Perm (keys es') := by
  obtain ⟨mid, hperm, haligned⟩ := h
  exact haligned.keys_eq ▸ hperm.map _

theorem filter {keep keep' : String × Value → Bool} (h : es.Reordered es')
    (hkeep : ∀ k v w, (k, v) ∈ es → v.Reordered w → keep (k, v) = keep' (k, w)) :
    Entries.Reordered (es.filter keep) (es'.filter keep') := by
  obtain ⟨mid, hperm, haligned⟩ := h
  refine ⟨mid.filter keep, hperm.filter _, haligned.filter fun k v w hmem => ?_⟩
  exact hkeep k v w (hperm.mem_iff.2 hmem)

theorem map {change change' : String × Value → String × Value} (h : es.Reordered es')
    (hkey : ∀ e, (change e).1 = e.1) (hkey' : ∀ e, (change' e).1 = e.1)
    (hchange : ∀ k v w, (k, v) ∈ es → v.Reordered w →
      (change (k, v)).2.Reordered (change' (k, w)).2) :
    Entries.Reordered (es.map change) (es'.map change') := by
  obtain ⟨mid, hperm, haligned⟩ := h
  refine ⟨mid.map change, hperm.map _, haligned.map_map hkey hkey' fun k v w hmem => ?_⟩
  exact hchange k v w (hperm.mem_iff.2 hmem)

theorem erase (h : es.Reordered es') (k : String) :
    Entries.Reordered (es.erase k) (es'.erase k) := h.filter fun _ _ _ _ _ => rfl

theorem get? (h : es.Reordered es') (hkeys : (keys es).Nodup) (k : String) :
    Option.Rel Value.Reordered (es.get? k) (es'.get? k) := by
  obtain ⟨mid, hperm, haligned⟩ := h
  rw [get?_of_perm hkeys hperm]
  exact haligned.get? k

theorem contains_eq (h : es.Reordered es') (k : String) : es'.contains k = es.contains k := by
  rw [Bool.eq_iff_iff, contains_iff, contains_iff, h.keys_perm.mem_iff]

theorem text?_eq (h : es.Reordered es') (hkeys : (keys es).Nodup) (k : String) :
    es'.text? k = es.text? k := by
  have hget := h.get? hkeys k
  unfold text?
  generalize es.get? k = here at hget ⊢
  generalize es'.get? k = there at hget ⊢
  cases hget with
  | none => rfl
  | some hvalue => exact hvalue.text?_eq

end Entries.Reordered

namespace Value

/-! ## Depth and keys -/

theorem exists_mem_of_forall₂ {R : Value → Value → Prop} {items items' : List Value}
    (h : List.Forall₂ R items items') {w : Value} (hw : w ∈ items') : ∃ v ∈ items, R v w := by
  induction h with
  | nil => cases hw
  | cons hhead _ ih =>
    rcases List.mem_cons.1 hw with rfl | hw
    · exact ⟨_, List.mem_cons_self, hhead⟩
    · obtain ⟨v, hv, hrel⟩ := ih hw
      exact ⟨v, List.mem_cons_of_mem _ hv, hrel⟩

theorem itemsDepth_eq {items items' : List Value}
    (h : List.Forall₂ (fun v w => v.depth = w.depth) items items') :
    itemsDepth items = itemsDepth items' := by
  induction h with
  | nil => rfl
  | cons hhead _ ih => simp [itemsDepth, hhead, ih]

theorem entriesDepth_eq {es es' : Entries}
    (h : Entries.Aligned (fun v w => v.depth = w.depth) es es') :
    entriesDepth es = entriesDepth es' := by
  induction h with
  | nil => rfl
  | cons k hhead _ ih => simp [entriesDepth, hhead, ih]

theorem entriesDepth_eq_of_perm {es es' : Entries} (h : es.Perm es') :
    entriesDepth es = entriesDepth es' := by
  induction h with
  | nil => rfl
  | cons e _ ih => simp [entriesDepth, ih]
  | swap d e rest => simp [entriesDepth, Nat.max_left_comm]
  | trans _ _ ih ih' => exact ih.trans ih'

theorem Reordered.depth_eq {v w : Value} (h : v.Reordered w) : v.depth = w.depth := by
  induction v using inductMembers generalizing w with
  | scalar v hv => rw [h.eq_of_isScalar hv]
  | array items ih =>
    obtain ⟨items', rfl, hitems⟩ := h.exists_array
    have hdepths := (List.forall₂_and_left _ _ |>.2 ⟨ih, hitems⟩).imp fun v w hvw => hvw.1 hvw.2
    simp [depth, itemsDepth_eq hdepths]
  | object es ih =>
    obtain ⟨es', rfl, mid, hperm, haligned⟩ := h.exists_object
    have hdepths : Entries.Aligned (fun v w => v.depth = w.depth) mid es' :=
      haligned.imp_of_mem fun e he w hw => ih e (hperm.mem_iff.2 he) hw
    simp [depth, entriesDepth_eq_of_perm hperm, entriesDepth_eq hdepths]

/-- Thinning repeats no keys. -/
theorem ThinsTo.hasDistinctKeys {v w : Value} (h : v.ThinsTo w) (hv : v.hasDistinctKeys = true) :
    w.hasDistinctKeys = true := by
  induction v using inductMembers generalizing w with
  | scalar v hscalar =>
    cases h with
    | scalar => exact hv
    | array | object => cases hscalar
  | array items ih =>
    cases h with
    | scalar hscalar => cases hscalar
    | array hitems =>
      rw [hasDistinctKeys_array_iff] at hv ⊢
      intro w hw
      obtain ⟨v, hmem, hthins⟩ := exists_mem_of_forall₂ hitems hw
      exact ih v hmem hthins (hv v hmem)
  | object es ih =>
    cases h with
    | scalar hscalar => cases hscalar
    | object hkept haligned =>
      rw [hasDistinctKeys_object_iff] at hv ⊢
      constructor
      · rw [haligned.keys_eq]
        exact (hkept.map _).nodup hv.1
      · intro e' he'
        obtain ⟨e, hmem, -, hthins⟩ := haligned.exists_mem he'
        exact ih e (hkept.mem hmem) hthins (hv.2 e (hkept.mem hmem))

end Value

end StreamConfig
