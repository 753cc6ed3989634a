import StreamConfig.Proofs.Document.Places
import StreamConfig.Proofs.Document.Pointers

/-! # Positions along a trail

What following all keys of a value records, whatever the text:
* `locateEntries_cons`, `locateItems_cons` — one entry, one item
* `sublist_locate` — the pointers that get a position are among those of the value, in their order
* `Trail.records` — the positions that a trail gets by following keys one by one
* `Trail.sublist_records` — a walk over a value follows its keys one by one
* `Positions.get?_of_mem` — what is recorded under a pointer is what is found there, since a value
  without repeated keys has no pointer twice
-/

namespace StreamConfig

namespace Value

mutual
/-- The keys below a value with their pointers, in document order. -/
def keyPlaces (p : Pointer) : Value → List (Pointer × String)
  | .array items => itemKeyPlaces p 0 items
  | .object m => entryKeyPlaces p m
  | _ => []

def itemKeyPlaces (p : Pointer) (index : Nat) : List Value → List (Pointer × String)
  | [] => []
  | v :: rest => keyPlaces (p.item index) v ++ itemKeyPlaces p (index + 1) rest

def entryKeyPlaces (p : Pointer) : List (String × Value) → List (Pointer × String)
  | [] => []
  | (k, v) :: rest => (p.child k, k) :: (keyPlaces (p.child k) v ++ entryKeyPlaces p rest)
end

end Value

namespace Trail

/-- What is recorded for an array element: if it is an object, the position of its first key. -/
def firstOf (q : Pointer) (v : Value) (inside : Positions) : Positions :=
  match v with
  | .object _ => (inside.head?.map fun e => (q, e.2)).toList
  | _ => []

theorem locateEntries_cons (p : Pointer) (k : String) (v : Value) (rest : Entries) (t : Trail) :
    locateEntries p ((k, v) :: rest) t =
      ((p.child k, (t.follow k).last) :: ((locate (p.child k) v (t.follow k)).1 ++
          (locateEntries p rest (locate (p.child k) v (t.follow k)).2).1),
        (locateEntries p rest (locate (p.child k) v (t.follow k)).2).2) := rfl

theorem locateItems_cons (p : Pointer) (index : Nat) (v : Value) (rest : List Value) (t : Trail) :
    locateItems p index (v :: rest) t =
      (firstOf (p.item index) v (locate (p.item index) v t).1 ++
          ((locate (p.item index) v t).1 ++
            (locateItems p (index + 1) rest (locate (p.item index) v t).2).1),
        (locateItems p (index + 1) rest (locate (p.item index) v t).2).2) := rfl

theorem sublist_firstOf (q : Pointer) (v : Value) (inside : Positions) :
    ((firstOf q v inside).map (·.1)).Sublist [q] := by
  unfold firstOf
  split
  · cases inside with
    | nil => exact List.nil_sublist _
    | cons => exact .refl _
  · exact List.nil_sublist _

mutual
theorem sublist_locate (p : Pointer) (v : Value) (t : Trail) :
    ((locate p v t).1.map (·.1)).Sublist (v.pointers p) := by
  cases v with
  | array items => exact sublist_locateItems p 0 items t
  | object m => exact sublist_locateEntries p m t
  | null | bool | number | string => exact .refl _

theorem sublist_locateItems (p : Pointer) (index : Nat) (items : List Value) (t : Trail) :
    ((locateItems p index items t).1.map (·.1)).Sublist (Value.itemPointers p index items) := by
  cases items with
  | nil => exact .refl _
  | cons v rest =>
    rw [locateItems_cons, List.map_append, List.map_append]
    exact (sublist_firstOf _ _ _).append
      ((sublist_locate (p.item index) v t).append (sublist_locateItems p (index + 1) rest _))

theorem sublist_locateEntries (p : Pointer) (m : List (String × Value)) (t : Trail) :
    ((locateEntries p m t).1.map (·.1)).Sublist (Value.entryPointers p m) := by
  cases m with
  | nil => exact .refl _
  | cons e rest =>
    obtain ⟨k, v⟩ := e
    rw [locateEntries_cons, List.map_cons, List.map_append]
    exact ((sublist_locate (p.child k) v _).append (sublist_locateEntries p rest _)).cons_cons _
end

/-! ## Following keys -/

def records (t : Trail) : List (Pointer × String) → Positions
  | [] => []
  | (p, k) :: ks => (p, (t.follow k).last) :: (t.follow k).records ks

def followAll (t : Trail) (ks : List (Pointer × String)) : Trail :=
  ks.foldl (fun t k => t.follow k.2) t

theorem records_append (t : Trail) (ks ks' : List (Pointer × String)) :
    t.records (ks ++ ks') = t.records ks ++ (t.followAll ks).records ks' := by
  induction ks generalizing t with
  | nil => rfl
  | cons k ks ih => simp [records, followAll, ih]

theorem followAll_append (t : Trail) (ks ks' : List (Pointer × String)) :
    t.followAll (ks ++ ks') = (t.followAll ks).followAll ks' := by
  simp [followAll]

theorem map_records (t : Trail) (ks : List (Pointer × String)) :
    (t.records ks).map (·.1) = ks.map (·.1) := by
  induction ks generalizing t with
  | nil => rfl
  | cons k ks ih => simp [records, ih]

mutual
/-- A walk over a value records a position for every key, in their order, and gets as far as
following these keys gets. -/
theorem sublist_records (p : Pointer) (v : Value) (t : Trail) :
    (t.records (v.keyPlaces p)).Sublist (locate p v t).1 ∧
      (locate p v t).2 = t.followAll (v.keyPlaces p) := by
  cases v with
  | array items => exact sublist_itemRecords p 0 items t
  | object m => exact sublist_entryRecords p m t
  | null | bool | number | string => exact ⟨.refl _, rfl⟩

theorem sublist_itemRecords (p : Pointer) (index : Nat) (items : List Value) (t : Trail) :
    (t.records (Value.itemKeyPlaces p index items)).Sublist (locateItems p index items t).1 ∧
      (locateItems p index items t).2 = t.followAll (Value.itemKeyPlaces p index items) := by
  cases items with
  | nil => exact ⟨.refl _, rfl⟩
  | cons v rest =>
    obtain ⟨hinside, hbehind⟩ := sublist_records (p.item index) v t
    obtain ⟨hothers, hend⟩ := sublist_itemRecords p (index + 1) rest (locate (p.item index) v t).2
    rw [Value.itemKeyPlaces, locateItems_cons, records_append, ← hbehind]
    refine ⟨(hinside.append hothers).trans (List.sublist_append_right ..), ?_⟩
    rw [hend, hbehind, ← followAll_append]

theorem sublist_entryRecords (p : Pointer) (m : List (String × Value)) (t : Trail) :
    (t.records (Value.entryKeyPlaces p m)).Sublist (locateEntries p m t).1 ∧
      (locateEntries p m t).2 = t.followAll (Value.entryKeyPlaces p m) := by
  cases m with
  | nil => exact ⟨.refl _, rfl⟩
  | cons e rest =>
    obtain ⟨k, v⟩ := e
    obtain ⟨hinside, hbehind⟩ := sublist_records (p.child k) v (t.follow k)
    obtain ⟨hothers, hend⟩ := sublist_entryRecords p rest (locate (p.child k) v (t.follow k)).2
    rw [Value.entryKeyPlaces, locateEntries_cons, records, records_append, ← hbehind]
    refine ⟨(hinside.append hothers).cons_cons _, ?_⟩
    rw [hend, hbehind, ← followAll_append]
    rfl
end

end Trail

namespace Positions

theorem nodup_scan (source : String) {v : Value} (h : v.hasDistinctKeys = true) :
    ((scan source v).map (·.1)).Nodup :=
  (Trail.sublist_locate "" v _).nodup (Value.nodup_pointers "" h)

theorem get?_cons (e : Pointer × Position) (ps : Positions) (p : Pointer) :
    get? (e :: ps) p = if e.1 = p then some e.2 else get? ps p := by
  by_cases h : e.1 = p <;> simp [get?, h]

theorem get?_eq_none {ps : Positions} {p : Pointer} (h : p ∉ ps.map (·.1)) : get? ps p = none := by
  induction ps with
  | nil => rfl
  | cons e ps ih =>
    obtain ⟨hne, hrest⟩ := List.ne_and_not_mem_of_not_mem_cons h
    rw [get?_cons, if_neg (Ne.symm hne), ih hrest]

theorem get?_of_mem {ps : Positions} (hnodup : (ps.map (·.1)).Nodup) {e : Pointer × Position}
    (h : e ∈ ps) : ps.get? e.1 = some e.2 := by
  induction ps with
  | nil => exact absurd h List.not_mem_nil
  | cons d ps ih =>
    obtain ⟨hd, hnodup⟩ := List.nodup_cons.1 hnodup
    rw [get?_cons]
    rcases List.mem_cons.1 h with rfl | h
    · rw [if_pos rfl]
    · have hne : d.1 ≠ e.1 := fun heq => hd (List.mem_map.2 ⟨e, h, heq.symm⟩)
      rw [if_neg hne, ih hnodup h]

/-- Positions are told by what is found, as long as the same pointers have one, in the same order
and each of them once. -/
theorem eq_of_get? {ps qs : Positions} (hpointers : ps.map (·.1) = qs.map (·.1))
    (hnodup : (qs.map (·.1)).Nodup) (h : ∀ e ∈ qs, ps.get? e.1 = some e.2) : ps = qs := by
  induction qs generalizing ps with
  | nil => exact List.map_eq_nil_iff.1 hpointers
  | cons e qs ih =>
    cases ps with
    | nil => cases hpointers
    | cons d ps =>
      obtain ⟨hpointer, hpointers⟩ := List.cons.inj hpointers
      obtain ⟨he, hnodup⟩ := List.nodup_cons.1 hnodup
      have hhere := h e List.mem_cons_self
      rw [get?_cons, if_pos hpointer] at hhere
      have hd : d = e := Prod.ext hpointer (Option.some.inj hhere)
      have hrest : ps = qs := ih hpointers hnodup fun f hf => by
        -- later pointers differ from the first one, so they are looked up in the rest
        have hne : d.1 ≠ f.1 := fun heq =>
          he (List.mem_map.2 ⟨f, hf, heq.symm.trans hpointer⟩)
        have hthere := h f (List.mem_cons_of_mem _ hf)
        rwa [get?_cons, if_neg hne] at hthere
      rw [hd, hrest]

end Positions

end StreamConfig
