import StreamConfig.Proofs.Schema.Regular

/-! # What pruning leaves alone

Pruning takes entries out of objects and nothing else, so a value keeps its face: a scalar stays as
it is, an array keeps its length and an object stays an object. Omission rules look at no more than
the face of a value and of the values beside it.

* `Value.Alike` — two values with the same face;
* `Entries.Fades` — an object from which keys are gone and whose other values keep their faces;
* `Omission.reason?_eq_none_of_fades` — a rule that did not fire does not fire on what is left.
-/

namespace StreamConfig

/-- Two values with the same face. -/
inductive Value.Alike : Value → Value → Prop where
  | refl (v : Value) : Alike v v
  | array {items items' : List Value} (h : items.length = items'.length) :
      Alike (.array items) (.array items')
  | object (es es' : Entries) : Alike (.object es) (.object es')

namespace Value.Alike

variable {v w : Value}

theorem trans {u : Value} (h : Alike v w) (h' : Alike w u) : Alike v u := by
  cases h with
  | refl => exact h'
  | array hlength =>
    cases h' with
    | refl => exact .array hlength
    | array hlength' => exact .array (hlength.trans hlength')
  | object es es' =>
    cases h' with
    | refl => exact .object es es'
    | object _ es'' => exact .object es es''

theorem text?_eq (h : Alike v w) : w.text? = v.text? := by cases h <;> rfl

theorem eq_bool {b : Bool} (h : Alike v (.bool b)) : v = .bool b := by cases h; rfl

end Value.Alike

namespace Entries

/-- What is left of `es` when keys have gone and values have changed behind their faces. -/
def Fades (es es' : Entries) : Prop :=
  ∀ k w, get? es' k = some w → ∃ v, get? es k = some v ∧ v.Alike w

theorem Fades.refl (es : Entries) : Fades es es := fun _ w h => ⟨w, h, .refl w⟩

theorem Fades.trans {es es' es'' : Entries} (h : Fades es es') (h' : Fades es' es'') :
    Fades es es'' := by
  intro k u hu
  obtain ⟨w, hw, hwu⟩ := h' k u hu
  obtain ⟨v, hv, hvw⟩ := h k w hw
  exact ⟨v, hv, hvw.trans hwu⟩

theorem fades_erase (es : Entries) (k : String) : Fades es (erase es k) := by
  intro l w hw
  rw [get?_erase] at hw
  split at hw
  · cases hw
  · exact ⟨w, hw, .refl w⟩

theorem fades_modify {f : Value → Value} (hf : ∀ v : Value, v.Alike (f v)) (es : Entries)
    (k : String) : Fades es (modify es k f) := by
  intro l w hw
  rw [get?_modify] at hw
  split at hw
  · obtain ⟨v, hv, rfl⟩ := Option.map_eq_some_iff.1 hw
    exact ⟨v, hv, hf v⟩
  · exact ⟨w, hw, .refl w⟩

theorem mem_keys_iff {m : Entries} {k : String} : k ∈ keys m ↔ ∃ v, get? m k = some v := by
  rw [← Option.isSome_iff_exists, ← Option.ne_none_iff_isSome, ne_eq, get?_eq_none_iff,
    Decidable.not_not]

/-- A key that is left was there before. -/
theorem Fades.contains {es es' : Entries} (h : Fades es es') {k : String}
    (hk : contains es' k = true) : contains es k = true := by
  rw [contains_iff, mem_keys_iff] at hk ⊢
  obtain ⟨w, hw⟩ := hk
  obtain ⟨v, hv, -⟩ := h k w hw
  exact ⟨v, hv⟩

/-- A text that is left was there before. -/
theorem Fades.text? {es es' : Entries} (h : Fades es es') {k s : String}
    (hs : text? es' k = some s) : text? es k = some s := by
  obtain ⟨w, hw, hws⟩ := Option.bind_eq_some_iff.1 hs
  obtain ⟨v, hv, hvw⟩ := h k w hw
  exact Option.bind_eq_some_iff.2 ⟨v, hv, hvw.text?_eq ▸ hws⟩

end Entries

namespace Omission

/-- An object points to a resource if what is left of it does. -/
theorem pointsToResource_of_text? {es es' : Entries}
    (htype : ∀ s, es'.text? "type" = some s → es.text? "type" = some s)
    (hresource : ∀ s, es'.text? "resource" = some s → es.text? "resource" = some s)
    (h : pointsToResource es' = true) : pointsToResource es = true := by
  unfold pointsToResource at h ⊢
  rw [Bool.or_eq_true] at h ⊢
  rcases h with h | h
  · rw [beq_iff_eq] at h
    rw [htype _ h]
    exact .inl rfl
  · right
    cases hname : es'.text? "resource" with
    | none => simp [hname] at h
    | some name =>
      rw [hname] at h
      rw [hresource _ hname]
      exact h

variable {rule : Omission} {v w : Value} {es es' : Entries}

/-- A rule that did not fire does not fire on what is left. -/
theorem reason?_eq_none_of_fades (hrule : rule.isKnown = true) (hvw : v.Alike w)
    (hes : es.Fades es') (h : rule.reason? v es = none) : rule.reason? w es' = none := by
  cases rule with
  | whenEmpty | whenNoProcessors =>
    cases hvw with
    | refl => exact h
    | object => rfl
    | @array items items' hlength =>
      cases items' with
      | nil =>
        cases items with
        | nil => exact h
        | cons => cases hlength
      | cons => rfl
  | whenZero =>
    cases hvw with
    | refl => exact h
    | array | object => rfl
  | always => cases h
  | whenTrue key =>
    simp only [reason?] at h ⊢
    split
    next htrue =>
      obtain ⟨u, hu, halike⟩ := hes _ _ htrue
      rw [hu, halike.eq_bool] at h
      cases h
    next => rfl
  | whenPresent key =>
    simp only [reason?] at h ⊢
    split
    next hkey =>
      rw [if_pos (hes.contains hkey)] at h
      cases h
    next => rfl
  | whenResource =>
    simp only [reason?] at h ⊢
    split
    next hpoints =>
      rw [if_pos (pointsToResource_of_text? (fun _ => hes.text?) (fun _ => hes.text?) hpoints)] at h
      cases h
    next => rfl
  | custom => cases hrule

end Omission

/-- A regular field that was of use is of use in what is left. -/
theorem Field.omissionReason?_eq_none_of_fades {f : Field} (hf : f.isRegular = true) {v w : Value}
    {es es' : Entries} (hvw : v.Alike w) (hes : es.Fades es')
    (h : f.omissionReason? v es = none) : f.omissionReason? w es' = none := by
  unfold Field.omissionReason? at h ⊢
  cases hrule : f.omission with
  | none => rfl
  | some rule =>
    rw [hrule] at h
    exact Omission.reason?_eq_none_of_fades ((Field.isRegular_iff.1 hf).1 rule hrule) hvw hes h

end StreamConfig
