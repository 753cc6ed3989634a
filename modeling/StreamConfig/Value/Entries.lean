import StreamConfig.Value.Basic

/-! # Entries of an object

Look-up and change of an object's entries. Every operation keeps the order of the entries that it
does not remove. Objects that are read or built here have pairwise distinct keys, since
`Entries.insert` replaces the value of a key that is there already.

* `keys_erase`, `keys_modify`, `keys_insert` — what the operations do to the list of keys;
* `get?_erase`, `get?_insert` — and to look-up;
* `nodup_keys_ofList` — entries written one after the other have distinct keys.
-/

namespace StreamConfig.Entries

def keys (m : Entries) : List String := m.map (·.1)

/-- The value under a key. -/
def get? (m : Entries) (k : String) : Option Value := (m.find? fun e => e.1 == k).map (·.2)

def contains (m : Entries) (k : String) : Bool := m.any fun e => e.1 == k

/-- Drops a key; the rest keeps its order. -/
def erase (m : Entries) (k : String) : Entries := m.filter fun e => e.1 != k

/-- Applies `f` to the value under a key, if there is one. -/
def modify (m : Entries) (k : String) (f : Value → Value) : Entries :=
  m.map fun e => if e.1 == k then (e.1, f e.2) else e

/-- Writes a key: at its place if it is present, else at the end. -/
def insert (m : Entries) (k : String) (v : Value) : Entries :=
  if contains m k then modify m k fun _ => v else m ++ [(k, v)]

/-- Writes entries one after the other, so that a repeated key keeps its first place and its last
value. -/
def ofList (es : List (String × Value)) : Entries :=
  es.foldl (fun m e => insert m e.1 e.2) []

/-- The text under a key that holds a string. -/
def text? (m : Entries) (k : String) : Option String := (get? m k).bind Value.text?

/-! ## Keys -/

@[simp] theorem keys_nil : keys [] = [] := rfl

@[simp] theorem keys_cons (e : String × Value) (m : Entries) : keys (e :: m) = e.1 :: keys m := rfl

theorem contains_iff {m : Entries} {k : String} : contains m k = true ↔ k ∈ keys m := by
  induction m with
  | nil => simp [contains]
  | cons e m ih =>
    simp only [contains, List.any_cons, Bool.or_eq_true, beq_iff_eq, keys_cons,
      List.mem_cons] at ih ⊢
    rw [ih]
    exact or_congr_left eq_comm

@[simp] theorem keys_erase (m : Entries) (k : String) :
    keys (erase m k) = (keys m).filter (· != k) := by
  induction m with
  | nil => rfl
  | cons e m ih =>
    simp only [erase, List.filter_cons, keys_cons] at ih ⊢
    split
    · rw [keys_cons, ih]
    · exact ih

@[simp] theorem keys_modify (m : Entries) (k : String) (f : Value → Value) :
    keys (modify m k f) = keys m := by
  induction m with
  | nil => rfl
  | cons e m ih =>
    simp only [modify, List.map_cons, keys_cons] at ih ⊢
    rw [ih]
    split <;> rfl

/-- A new key goes to the end. -/
theorem keys_insert (m : Entries) (k : String) (v : Value) :
    keys (insert m k v) = if contains m k then keys m else keys m ++ [k] := by
  unfold insert
  split
  · exact keys_modify m k _
  · exact List.map_append

theorem nodup_keys_insert {m : Entries} {k : String} {v : Value} (h : (keys m).Nodup) :
    (keys (insert m k v)).Nodup := by
  rw [keys_insert]
  split
  · exact h
  · next hk =>
    rw [contains_iff] at hk
    refine List.nodup_append.2 ⟨h, by simp, fun a ha b hb => ?_⟩
    rw [List.mem_singleton] at hb
    intro hab
    exact hk (hb ▸ hab ▸ ha)

theorem nodup_keys_ofList (es : List (String × Value)) : (keys (ofList es)).Nodup := by
  suffices h : ∀ m : Entries, (keys m).Nodup →
      (keys (es.foldl (fun m e => insert m e.1 e.2) m)).Nodup from h [] List.nodup_nil
  induction es with
  | nil => exact fun _ h => h
  | cons e es ih => exact fun m h => ih _ (nodup_keys_insert h)

/-! ## Look-up -/

@[simp] theorem get?_nil (k : String) : get? [] k = none := rfl

theorem get?_cons (e : String × Value) (m : Entries) (k : String) :
    get? (e :: m) k = if e.1 = k then some e.2 else get? m k := by
  by_cases h : e.1 = k <;> simp [get?, h]

theorem get?_erase (m : Entries) (k l : String) :
    get? (erase m k) l = if l = k then none else get? m l := by
  induction m with
  | nil => simp [erase]
  | cons e m ih =>
    by_cases hk : e.1 = k
    · have he : erase (e :: m) k = erase m k := by simp [erase, hk]
      rw [he, ih, get?_cons]
      by_cases hl : l = k
      · simp [hl]
      · simp [hl, hk, Ne.symm hl]
    · have he : erase (e :: m) k = e :: erase m k := by simp [erase, hk]
      rw [he, get?_cons, get?_cons, ih]
      by_cases hl : e.1 = l
      · simp [hl, show l ≠ k from fun h => hk (hl.trans h)]
      · simp [hl]

theorem get?_modify (m : Entries) (k l : String) (f : Value → Value) :
    get? (modify m k f) l = if l = k then (get? m l).map f else get? m l := by
  induction m with
  | nil => simp [modify]
  | cons e m ih =>
    have he : modify (e :: m) k f = (if e.1 == k then (e.1, f e.2) else e) :: modify m k f := rfl
    rw [he, get?_cons, get?_cons, ih]
    by_cases hk : e.1 = k <;> by_cases hl : e.1 = l <;> by_cases hlk : l = k <;> simp_all

theorem get?_eq_none_iff {m : Entries} {k : String} : get? m k = none ↔ k ∉ keys m := by
  induction m with
  | nil => simp
  | cons e m ih =>
    rw [get?_cons, keys_cons, List.mem_cons, not_or, ← ih]
    by_cases h : e.1 = k
    · simp [h]
    · simp [h, Ne.symm h]

/-- The last value that is written under a key is the one that is found. -/
theorem get?_insert (m : Entries) (k l : String) (v : Value) :
    get? (insert m k v) l = if l = k then some v else get? m l := by
  unfold insert
  split
  · next hk =>
    rw [get?_modify]
    split
    · next hl =>
      cases hm : get? m l with
      | none => exact absurd (contains_iff.1 hk) (hl ▸ get?_eq_none_iff.1 hm)
      | some w => rfl
    · rfl
  · next hk =>
    have hm : get? m k = none := get?_eq_none_iff.2 fun h => hk (contains_iff.2 h)
    have happ : get? (m ++ [(k, v)]) l = ((get? m l).or (get? [(k, v)] l)) := by
      simp only [get?, List.find?_append, Option.map_or]
    rw [happ, get?_cons]
    by_cases hl : l = k
    · simp [hl, hm]
    · simp [hl, Ne.symm hl]

end StreamConfig.Entries
