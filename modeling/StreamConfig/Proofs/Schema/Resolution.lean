import Mathlib.Data.List.Permutation
import StreamConfig.Resolve

/-! # What resolution finds

* `get?_of_resolve` — the component that a block denotes is the one registered under its name;
* `exists_key_of_resolveKeys` — a component found by a block's keys is registered under one of them,
  and that key is not reserved;
* `resolve_default` — a default is used only where every key is reserved;
* `search_none` — the search over a block's keys, told by the keys that name components;
* `resolveKeys_of_perm` — the order of keys does not matter, unless three of them name components.
-/

namespace StreamConfig.Registry

variable {r : Registry} {kind : Kind}

/-- The search gives what it had found before or what one of the keys names. -/
theorem exists_key_of_search {found : Option Component} {keys : List String} {c : Component}
    (h : r.search kind found keys = .ok (some c)) :
    found = some c ∨ ∃ key ∈ keys, kind.isReserved key = false ∧ r.get? kind key = some c := by
  induction keys generalizing found with
  | nil =>
    simp only [search, Except.ok.injEq] at h
    exact .inl h
  | cons key rest ih =>
    have later : (∃ key ∈ rest, kind.isReserved key = false ∧ r.get? kind key = some c) →
        ∃ k ∈ key :: rest, kind.isReserved k = false ∧ r.get? kind k = some c := by
      rintro ⟨k, hk, hkey⟩
      exact ⟨k, List.mem_cons_of_mem _ hk, hkey⟩
    unfold search at h
    split at h
    · exact (ih h).imp_right later
    · next hreserved =>
      rw [Bool.not_eq_true] at hreserved
      split at h
      · exact (ih h).imp_right later
      · next d hd =>
        rcases ih h with hfound | hlater
        · rw [Option.some.injEq] at hfound
          exact .inr ⟨key, List.mem_cons_self, hreserved, hfound ▸ hd⟩
        · exact .inr (later hlater)
      · cases h

/-- Without a default, the component that keys denote is registered under one of them. -/
theorem exists_key_of_resolveKeys {keys : List String} {c : Component}
    (h : r.resolveKeys kind "" keys = .ok c) :
    ∃ key ∈ keys, kind.isReserved key = false ∧ r.get? kind key = some c := by
  unfold resolveKeys at h
  dsimp only at h
  split at h
  · cases h
  · next d hsearch =>
    cases h
    exact (exists_key_of_search hsearch).resolve_left (fun hnone => nomatch hnone)
  · simp at h

/-- A block that denotes a component is an object. -/
theorem exists_object_of_resolve {default : String} {v : Value} {c : Component}
    (h : r.resolve kind default v = .ok c) : ∃ es, v = .object es := by
  cases v with
  | object es => exact ⟨es, rfl⟩
  | null | bool | number | string | array => cases h

/-- A text under `type` decides, whatever the keys are. -/
theorem resolve_of_type {default name : String} {es : Entries} (h : es.text? "type" = some name) :
    r.resolve kind default (.object es) =
      match r.get? kind name with
      | some c => .ok c
      | none => .error (.unrecognised kind name) := by
  unfold resolve
  dsimp only
  exact h ▸ rfl

/-- Without a text under `type` the keys decide. -/
theorem resolve_of_no_type {default : String} {es : Entries} (h : es.text? "type" = none) :
    r.resolve kind default (.object es) = r.resolveKeys kind default es.keys := by
  simp only [resolve, h]

/-- The component that a block denotes is registered under its own name. -/
theorem get?_of_resolve {v : Value} {c : Component} (h : r.resolve kind "" v = .ok c) :
    r.get? kind c.name = some c := by
  obtain ⟨es, rfl⟩ := exists_object_of_resolve h
  cases htype : Entries.text? es "type" with
  | some name =>
    rw [resolve_of_type htype] at h
    split at h
    · next d hd =>
      cases h
      rw [(answers_of_get? hd).2]
      exact hd
    · cases h
  | none =>
    rw [resolve_of_no_type htype] at h
    obtain ⟨key, -, -, hkey⟩ := exists_key_of_resolveKeys h
    rw [(answers_of_get? hkey).2]
    exact hkey

/-! ## Defaults -/

theorem resolveKeys_default {default : String} {keys : List String} {c : Component}
    (h : r.resolveKeys kind default keys = .ok c) :
    r.resolveKeys kind "" keys = .ok c ∨
      (r.get? kind default = some c ∧ default ≠ "") ∧ candidates kind keys = [] := by
  unfold resolveKeys at h ⊢
  dsimp only at h ⊢
  cases hsearch : r.search kind none keys with
  | error pair =>
    rw [hsearch] at h
    cases h
  | ok found =>
    cases found with
    | some d =>
      rw [hsearch] at h
      exact .inl h
    | none =>
      right
      simp only [hsearch] at h
      split at h
      next d hd =>
        cases h
        split at hd
        next hopen =>
          rw [Bool.and_eq_true, List.isEmpty_iff, bne_iff_ne] at hopen
          exact ⟨⟨hd, hopen.2⟩, hopen.1⟩
        next => cases hd
      next => cases h

/-- A default is used only where every key is reserved. -/
theorem resolve_default {default : String} {v : Value} {c : Component}
    (h : r.resolve kind default v = .ok c) :
    r.resolve kind "" v = .ok c ∨ (r.get? kind default = some c ∧ default ≠ "") ∧
      ∃ es : Entries, v = .object es ∧ ∀ e ∈ es, kind.isReserved e.1 = true := by
  obtain ⟨es, rfl⟩ := exists_object_of_resolve h
  cases htype : Entries.text? es "type" with
  | some name =>
    rw [resolve_of_type htype] at h ⊢
    exact .inl h
  | none =>
    rw [resolve_of_no_type htype] at h ⊢
    refine (resolveKeys_default h).imp_right fun hdefault => ⟨hdefault.1, es, rfl, fun e he => ?_⟩
    have hreserved := List.filter_eq_nil_iff.1 hdefault.2 e.1 (List.mem_map_of_mem he)
    simpa using hreserved

/-- A block that denotes a component does not need a default. -/
theorem resolve_of_resolve {v : Value} {c : Component} (h : r.resolve kind "" v = .ok c)
    (default : String) : r.resolve kind default v = .ok c := by
  obtain ⟨es, rfl⟩ := exists_object_of_resolve h
  cases htype : Entries.text? es "type" with
  | some name =>
    rw [resolve_of_type htype] at h ⊢
    exact h
  | none =>
    rw [resolve_of_no_type htype] at h ⊢
    unfold resolveKeys at h ⊢
    dsimp only at h ⊢
    split at h
    · cases h
    · exact h
    · simp at h

/-- Whichever way it was found, the component is registered. -/
theorem exists_get?_of_resolve {default : String} {v : Value} {c : Component}
    (h : r.resolve kind default v = .ok c) : ∃ name, r.get? kind name = some c := by
  rcases resolve_default h with hkeys | ⟨⟨hdefault, -⟩, -⟩
  · exact ⟨c.name, get?_of_resolve hkeys⟩
  · exact ⟨default, hdefault⟩

/-! ## The keys that name components -/

/-- The keys that name components of a kind: they are registered, and not reserved. -/
def named (r : Registry) (kind : Kind) (keys : List String) : List String :=
  keys.filter fun k => !kind.isReserved k && (r.get? kind k).isSome

theorem named_cons (key : String) (rest : List String) :
    r.named kind (key :: rest) =
      if kind.isReserved key then r.named kind rest
      else if (r.get? kind key).isSome then key :: r.named kind rest else r.named kind rest := by
  unfold named
  rw [List.filter_cons]
  cases kind.isReserved key <;> simp

/-- A further key that names a component ends the search. -/
theorem search_some (c : Component) (keys : List String) :
    r.search kind (some c) keys =
      match r.named kind keys with
      | [] => .ok (some c)
      | key :: _ => .error (c.name, key) := by
  induction keys with
  | nil => rfl
  | cons key rest ih =>
    unfold search
    rw [named_cons]
    cases kind.isReserved key with
    | true => simpa using ih
    | false =>
      cases r.get? kind key with
      | none => simpa using ih
      | some d => simp

/-- The search is settled by the first two keys that name components. -/
theorem search_none (keys : List String) :
    r.search kind none keys =
      match r.named kind keys with
      | [] => .ok none
      | [key] => .ok (r.get? kind key)
      | first :: second :: _ => .error (first, second) := by
  induction keys with
  | nil => rfl
  | cons key rest ih =>
    unfold search
    rw [named_cons]
    cases kind.isReserved key with
    | true => simpa using ih
    | false =>
      cases hget : r.get? kind key with
      | none => simpa using ih
      | some c =>
        -- the first such key; the next one, if there is any, ends the search
        have hname : c.name = key := (answers_of_get? hget).2
        simp only [Bool.false_eq_true, if_false, Option.isSome_some, if_true, search_some]
        cases r.named kind rest with
        | nil => simp [hget]
        | cons second _ => simp [hname]

/-- The two names of an ambiguity are put in order, whichever came first. -/
theorem ambiguous_comm (kind : Kind) (a b : String) :
    (if b < a then ResolveError.ambiguous kind b a else .ambiguous kind a b) =
      if a < b then .ambiguous kind a b else .ambiguous kind b a := by
  by_cases hab : a < b
  · simp [hab, String.lt_asymm hab]
  · by_cases hba : b < a
    · simp [hab, hba]
    · have heq : a = b := String.le_antisymm (String.not_lt.1 hba) (String.not_lt.1 hab)
      simp [heq]

/-- Several keys that name components. -/
theorem resolveKeys_of_named {keys rest : List String} {a b : String}
    (h : r.named kind keys = a :: b :: rest) (default : String) :
    r.resolveKeys kind default keys =
      .error (if a < b then .ambiguous kind a b else .ambiguous kind b a) := by
  unfold resolveKeys
  simp [search_none, h]

/-- A key that names a component is registered. -/
theorem exists_get?_of_named {keys : List String} {key : String} (h : key ∈ r.named kind keys) :
    ∃ c, r.get? kind key = some c := by
  have hkey := (List.mem_filter.1 h).2
  rw [Bool.and_eq_true] at hkey
  exact Option.isSome_iff_exists.1 hkey.2

/-- Without a default, keys denote the component that one of them names, if no other names one. -/
theorem resolveKeys_eq_ok_iff {keys : List String} {c : Component} :
    r.resolveKeys kind "" keys = .ok c ↔
      r.named kind keys = [c.name] ∧ r.get? kind c.name = some c := by
  match h : r.named kind keys with
  | [] => simp [resolveKeys, search_none, h]
  | [key] =>
    have hkey : key ∈ r.named kind keys := by simp [h]
    obtain ⟨d, hd⟩ := exists_get?_of_named hkey
    have hname : d.name = key := (answers_of_get? hd).2
    simp only [resolveKeys, search_none, h, hd, Except.ok.injEq, List.cons.injEq, and_true]
    constructor
    · rintro rfl
      exact ⟨hname.symm, hname ▸ hd⟩
    · rintro ⟨rfl, hc⟩
      exact Option.some.inj (hd.symm.trans hc)
  | a :: b :: rest => simp [resolveKeys_of_named h]

/-- Without a default, the order of keys shows in nothing but the two names of an ambiguity, and
there only if more than two keys name components. -/
theorem resolveKeys_of_perm {keys keys' : List String} (h : keys.Perm keys') :
    r.resolveKeys kind "" keys' = r.resolveKeys kind "" keys ∨
      3 ≤ (r.named kind keys).length ∧ ∃ a b a' b',
        r.resolveKeys kind "" keys = .error (.ambiguous kind a b) ∧
        r.resolveKeys kind "" keys' = .error (.ambiguous kind a' b') := by
  have hnamed : (r.named kind keys').Perm (r.named kind keys) := (h.filter _).symm
  have hsorted : Text.sortTexts (candidates kind keys') = Text.sortTexts (candidates kind keys) :=
    Text.sortTexts_eq_of_perm (h.filter _).symm
  match hfirst : r.named kind keys with
  | [] =>
    rw [hfirst, List.perm_nil] at hnamed
    simp [resolveKeys, search_none, hfirst, hnamed, hsorted]
  | [key] =>
    rw [hfirst, List.perm_singleton] at hnamed
    simp [resolveKeys, search_none, hfirst, hnamed, hsorted]
  | [a, b] =>
    left
    rw [hfirst, List.perm_pair] at hnamed
    rw [resolveKeys_of_named hfirst]
    rcases hnamed with hsame | hswapped
    · rw [resolveKeys_of_named hsame]
    · rw [resolveKeys_of_named hswapped, ambiguous_comm]
  | a :: b :: c :: rest =>
    right
    obtain ⟨a', b', rest', hsecond⟩ : ∃ a' b' rest', r.named kind keys' = a' :: b' :: rest' := by
      have hlength := hnamed.length_eq
      rw [hfirst] at hlength
      match hsecond : r.named kind keys' with
      | a' :: b' :: rest' => exact ⟨a', b', rest', rfl⟩
      | [] | [_] => simp [hsecond] at hlength
    rw [resolveKeys_of_named hfirst, resolveKeys_of_named hsecond]
    refine ⟨by simp, ?_⟩
    -- whichever of two names comes first
    have hpair : ∀ x y : String, ∃ first second,
        (if x < y then ResolveError.ambiguous kind x y else .ambiguous kind y x) =
          .ambiguous kind first second := by
      intro x y
      split
      · exact ⟨x, y, rfl⟩
      · exact ⟨y, x, rfl⟩
    obtain ⟨first, second, hhere⟩ := hpair a b
    obtain ⟨first', second', hthere⟩ := hpair a' b'
    exact ⟨first, second, first', second', by rw [hhere], by rw [hthere]⟩

end StreamConfig.Registry
