import StreamConfig.Document.Pointer
import StreamConfig.Value.Entries

/-! # Pointers tell places apart

Different steps from one place lead to different pointers, and everything below one step stays
apart from everything below another:
* `unescaped_escaped` — a key can be read off its step
* `Pointer.IsBelow` — what stands at a place or under it
* `child_eq_of_isBelow` — a place is below one step only
* `Value.nodup_pointers` — the pointers of a value, if no object of it repeats a key, are all
  different
-/

namespace StreamConfig

namespace Pointer

/-- The key's characters that the characters of a step stand for. -/
def unescaped : List Char → List Char
  | '~' :: '0' :: rest => '~' :: unescaped rest
  | '~' :: '1' :: rest => '/' :: unescaped rest
  | c :: rest => c :: unescaped rest
  | [] => []

theorem unescaped_cons {c : Char} (h : c ≠ '~') (rest : List Char) :
    unescaped (c :: rest) = c :: unescaped rest := by
  conv => lhs; unfold unescaped
  split
  next heq =>
    cases heq
    exact absurd rfl h
  next heq =>
    cases heq
    exact absurd rfl h
  next heq =>
    cases heq
    rfl
  next heq => cases heq

theorem unescaped_escapedChar_append (c : Char) (rest : List Char) :
    unescaped (escapedChar c ++ rest) = c :: unescaped rest := by
  unfold escapedChar
  split
  · rfl
  · rfl
  next htilde hslash => exact unescaped_cons htilde rest

/-- A key can be read off its step. -/
theorem unescaped_escaped (token : String) : unescaped (escaped token) = token.toList := by
  suffices h : ∀ cs : List Char, unescaped (cs.flatMap escapedChar) = cs from h _
  intro cs
  induction cs with
  | nil => rfl
  | cons c cs ih => rw [List.flatMap_cons, unescaped_escapedChar_append, ih]

theorem escaped_injective {a b : String} (h : escaped a = escaped b) : a = b := by
  have htoList : a.toList = b.toList := by rw [← unescaped_escaped, h, unescaped_escaped]
  exact String.toList_inj.1 htoList

theorem toString_injective {i j : Nat} (h : toString i = toString j) : i = j := by
  have hdigits : Nat.toDigits 10 i = Nat.toDigits 10 j := by
    have hrepr : Nat.repr i = Nat.repr j := h
    rw [Nat.repr_eq_ofList_toDigits, Nat.repr_eq_ofList_toDigits] at hrepr
    exact String.ofList_injective hrepr
  rw [← Nat.ofDigitChars_ten_toDigits (n := i), hdigits, Nat.ofDigitChars_ten_toDigits]

/-! ## What is below a place -/

/-- The place `q` is `p` or stands somewhere under it. -/
def IsBelow (p q : Pointer) : Prop :=
  ∃ tail, q.toList = p.toList ++ tail ∧ (tail = [] ∨ ∃ rest, tail = '/' :: rest)

theorem IsBelow.refl (p : Pointer) : p.IsBelow p := ⟨[], (List.append_nil _).symm, .inl rfl⟩

theorem toList_child (p : Pointer) (token : String) :
    (child p token).toList = p.toList ++ '/' :: escaped token := String.toList_ofList

/-- What is below a step is strictly below the place that it starts from. -/
theorem isBelow_of_child {p q : Pointer} {token : String} (h : (child p token).IsBelow q) :
    p.IsBelow q ∧ q ≠ p := by
  obtain ⟨tail, heq, -⟩ := h
  rw [toList_child, List.append_assoc, List.cons_append] at heq
  refine ⟨⟨_, heq, .inr ⟨_, rfl⟩⟩, ?_⟩
  rintro rfl
  have hlength := congrArg List.length heq
  simp only [List.length_append, List.length_cons] at hlength
  omega

/-- The step that leads to a place is what stands before the next slash. -/
theorem takeWhile_escaped_append {token : String} {tail : List Char}
    (htail : tail = [] ∨ ∃ rest, tail = '/' :: rest) :
    (escaped token ++ tail).takeWhile (· != '/') = escaped token := by
  have hpass : ∀ c ∈ escaped token, (c != '/') = true := by
    intro c hc
    rw [bne_iff_ne]
    rintro rfl
    exact slash_not_mem_escaped token hc
  rw [List.takeWhile_append_of_pos hpass]
  obtain rfl | ⟨rest, rfl⟩ := htail
  · simp
  · simp

/-- No place is below two steps. -/
theorem child_eq_of_isBelow {p q : Pointer} {a b : String} (ha : (child p a).IsBelow q)
    (hb : (child p b).IsBelow q) : a = b := by
  obtain ⟨tail, heq, htail⟩ := ha
  obtain ⟨tail', heq', htail'⟩ := hb
  rw [toList_child, List.append_assoc, List.cons_append] at heq heq'
  -- behind `p` both steps start the same text
  have hsame := (List.append_cancel_left (heq.symm.trans heq'))
  have hsteps : escaped a ++ tail = escaped b ++ tail' := (List.cons.inj hsame).2
  have hescaped := congrArg (List.takeWhile (· != '/')) hsteps
  rw [takeWhile_escaped_append htail, takeWhile_escaped_append htail'] at hescaped
  exact escaped_injective hescaped

theorem item_eq_of_isBelow {p q : Pointer} {i j : Nat} (hi : (item p i).IsBelow q)
    (hj : (item p j).IsBelow q) : i = j := toString_injective (child_eq_of_isBelow hi hj)

end Pointer

namespace Value

mutual
/-- No object in the value has a key twice. -/
def hasDistinctKeys : Value → Bool
  | .array items => itemsHaveDistinctKeys items
  | .object m => decide (Entries.keys m).Nodup && entriesHaveDistinctKeys m
  | _ => true

def itemsHaveDistinctKeys : List Value → Bool
  | [] => true
  | v :: rest => v.hasDistinctKeys && itemsHaveDistinctKeys rest

def entriesHaveDistinctKeys : List (String × Value) → Bool
  | [] => true
  | (_, v) :: rest => v.hasDistinctKeys && entriesHaveDistinctKeys rest
end

/-- A list of pointers of its own followed by others that stay clear of it. -/
theorem nodup_cons_append {q : Pointer} {inside others : List Pointer} (hinside : inside.Nodup)
    (hothers : others.Nodup) (hbelow : ∀ s ∈ inside, q.IsBelow s ∧ s ≠ q)
    (happart : ∀ s ∈ others, ¬ q.IsBelow s) : (q :: (inside ++ others)).Nodup := by
  refine List.nodup_cons.2 ⟨fun hq => ?_, List.nodup_append.2 ⟨hinside, hothers, ?_⟩⟩
  · rcases List.mem_append.1 hq with hq | hq
    · exact (hbelow q hq).2 rfl
    · exact happart q hq (.refl q)
  · rintro s hs _ hs' rfl
    exact happart s hs' (hbelow s hs).1

mutual
/-- The pointers of a value's keys and elements are all different, and all strictly below its own.
-/
theorem owns_pointers (p : Pointer) (v : Value) (h : v.hasDistinctKeys = true) :
    (v.pointers p).Nodup ∧ ∀ q ∈ v.pointers p, p.IsBelow q ∧ q ≠ p := by
  cases v with
  | array items =>
    obtain ⟨hnodup, hbelow⟩ := owns_itemPointers p 0 items h
    refine ⟨hnodup, fun q hq => ?_⟩
    obtain ⟨i, -, hi⟩ := hbelow q hq
    exact Pointer.isBelow_of_child hi
  | object m =>
    unfold hasDistinctKeys at h
    obtain ⟨hkeys, h⟩ := Bool.and_eq_true_iff.1 h
    obtain ⟨hnodup, hbelow⟩ := owns_entryPointers p m (of_decide_eq_true hkeys) h
    refine ⟨hnodup, fun q hq => ?_⟩
    obtain ⟨k, -, hk⟩ := hbelow q hq
    exact Pointer.isBelow_of_child hk
  | null | bool | number | string => exact ⟨List.nodup_nil, fun _ hq => absurd hq List.not_mem_nil⟩

theorem owns_itemPointers (p : Pointer) (index : Nat) (items : List Value)
    (h : itemsHaveDistinctKeys items = true) :
    (itemPointers p index items).Nodup ∧
      ∀ q ∈ itemPointers p index items, ∃ i, index ≤ i ∧ (p.item i).IsBelow q := by
  cases items with
  | nil => exact ⟨List.nodup_nil, fun _ hq => absurd hq List.not_mem_nil⟩
  | cons v rest =>
    unfold itemsHaveDistinctKeys at h
    obtain ⟨hv, hrest⟩ := Bool.and_eq_true_iff.1 h
    obtain ⟨hnodup, hbelow⟩ := owns_pointers (p.item index) v hv
    obtain ⟨hnodup', hbelow'⟩ := owns_itemPointers p (index + 1) rest hrest
    refine ⟨nodup_cons_append hnodup hnodup' hbelow fun q hq hitem => ?_, fun q hq => ?_⟩
    · obtain ⟨i, hi, hi'⟩ := hbelow' q hq
      have := Pointer.item_eq_of_isBelow hi' hitem
      omega
    · unfold itemPointers at hq
      rcases List.mem_cons.1 hq with rfl | hq
      · exact ⟨index, Nat.le_refl _, .refl _⟩
      · rcases List.mem_append.1 hq with hq | hq
        · exact ⟨index, Nat.le_refl _, (hbelow q hq).1⟩
        · obtain ⟨i, hi, hi'⟩ := hbelow' q hq
          exact ⟨i, by omega, hi'⟩

theorem owns_entryPointers (p : Pointer) (m : List (String × Value))
    (hkeys : (Entries.keys m).Nodup) (h : entriesHaveDistinctKeys m = true) :
    (entryPointers p m).Nodup ∧
      ∀ q ∈ entryPointers p m, ∃ k ∈ Entries.keys m, (p.child k).IsBelow q := by
  cases m with
  | nil => exact ⟨List.nodup_nil, fun _ hq => absurd hq List.not_mem_nil⟩
  | cons e rest =>
    obtain ⟨k, v⟩ := e
    unfold entriesHaveDistinctKeys at h
    obtain ⟨hv, hrest⟩ := Bool.and_eq_true_iff.1 h
    obtain ⟨hk, hkeys⟩ := List.nodup_cons.1 hkeys
    obtain ⟨hnodup, hbelow⟩ := owns_pointers (p.child k) v hv
    obtain ⟨hnodup', hbelow'⟩ := owns_entryPointers p rest hkeys hrest
    refine ⟨nodup_cons_append hnodup hnodup' hbelow fun q hq hchild => ?_, fun q hq => ?_⟩
    · obtain ⟨l, hl, hl'⟩ := hbelow' q hq
      obtain rfl := Pointer.child_eq_of_isBelow hl' hchild
      exact hk hl
    · unfold entryPointers at hq
      rcases List.mem_cons.1 hq with rfl | hq
      · exact ⟨k, List.mem_cons_self, .refl _⟩
      · rcases List.mem_append.1 hq with hq | hq
        · exact ⟨k, List.mem_cons_self, (hbelow q hq).1⟩
        · obtain ⟨l, hl, hl'⟩ := hbelow' q hq
          exact ⟨l, List.mem_cons_of_mem _ hl, hl'⟩
end

theorem nodup_pointers (p : Pointer) {v : Value} (h : v.hasDistinctKeys = true) :
    (v.pointers p).Nodup := (owns_pointers p v h).1

end Value

end StreamConfig
