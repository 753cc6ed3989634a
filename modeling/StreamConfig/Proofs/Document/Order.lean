import StreamConfig.Proofs.Document.Trails

/-! # Positions follow the order of the document

A search only moves forward, so positions that are recorded later are not earlier in the text,
whether or not the value agrees with the text:
* `Trail.IsWithin` — what every trail satisfies: its last position is behind a part of what its
  cursor has behind it
* `Trail.Runs` — positions in order between two trails
* `runs_locate` — every walk over a value is such a run
* `ordered_scan` — so the positions of a document are in order
-/

namespace StreamConfig

namespace Trail

/-- The last position is not ahead of the cursor. -/
def IsWithin (t : Trail) : Prop :=
  ∃ cs ds rest, ds <+: cs ∧ t = ⟨Cursor.between cs rest, Position.behind ds⟩

theorem isWithin_start (source : String) : (start source).IsWithin :=
  ⟨[], [], source.toList, List.prefix_refl _, rfl⟩

/-- One key: the trail stays within the text and does not go back. -/
theorem isWithin_follow {t : Trail} (h : t.IsWithin) (k : String) :
    (t.follow k).IsWithin ∧ t.last.IsUpTo (t.follow k).last := by
  obtain ⟨cs, ds, rest, hds, rfl⟩ := h
  unfold follow
  cases hfind : (Cursor.between cs rest).find k with
  | none => exact ⟨⟨cs, ds, rest, hds, rfl⟩, .refl _⟩
  | some c =>
    obtain ⟨passed, left, rfl, rfl⟩ := Cursor.exists_between_of_find hfind
    dsimp only
    rw [Cursor.advance_between, Cursor.position_between]
    refine ⟨⟨_, cs ++ passed, _, List.prefix_append .., rfl⟩, ?_⟩
    exact Position.isUpTo_of_prefix (hds.trans (List.prefix_append ..))

/-- From one trail to another positions are recorded that are in order and between the two. -/
structure Runs (t : Trail) (ps : Positions) (t' : Trail) : Prop where
  isWithin : t'.IsWithin
  isUpTo : t.last.IsUpTo t'.last
  ordered : ps.Pairwise fun d e => d.2.IsUpTo e.2
  between : ∀ e ∈ ps, t.last.IsUpTo e.2 ∧ e.2.IsUpTo t'.last

namespace Runs

variable {t t' t'' : Trail} {ps qs : Positions}

theorem nil (h : t.IsWithin) : Runs t [] t :=
  ⟨h, .refl _, .nil, by simp⟩

theorem key (h : t.IsWithin) (p : Pointer) (k : String) :
    Runs t [(p, (t.follow k).last)] (t.follow k) := by
  obtain ⟨hwithin, hupTo⟩ := isWithin_follow h k
  refine ⟨hwithin, hupTo, List.pairwise_singleton .., ?_⟩
  intro e he
  obtain rfl := List.mem_singleton.1 he
  exact ⟨hupTo, .refl _⟩

theorem append (h : Runs t ps t') (h' : Runs t' qs t'') : Runs t (ps ++ qs) t'' := by
  have hordered : (ps ++ qs).Pairwise fun d e => d.2.IsUpTo e.2 := by
    refine List.pairwise_append.2 ⟨h.ordered, h'.ordered, ?_⟩
    intro d hd e he
    exact (h.between d hd).2.trans (h'.between e he).1
  refine ⟨h'.isWithin, h.isUpTo.trans h'.isUpTo, hordered, ?_⟩
  intro e he
  rcases List.mem_append.1 he with he | he
  · exact ⟨(h.between e he).1, (h.between e he).2.trans h'.isUpTo⟩
  · exact ⟨h.isUpTo.trans (h'.between e he).1, (h'.between e he).2⟩

/-- An element stands where its first key stands, which is in order before that key. -/
theorem firstOf (h : Runs t ps t') (q : Pointer) (v : Value) :
    Runs t (firstOf q v ps ++ ps) t' := by
  unfold Trail.firstOf
  split
  · cases ps with
    | nil => exact h
    | cons d ps =>
      obtain ⟨hd, -⟩ := List.pairwise_cons.1 h.ordered
      have hbetween := h.between d List.mem_cons_self
      refine ⟨h.isWithin, h.isUpTo, List.pairwise_cons.2 ⟨?_, h.ordered⟩, ?_⟩
      · intro e he
        rcases List.mem_cons.1 he with rfl | he
        · exact .refl _
        · exact hd e he
      · intro e he
        rcases List.mem_cons.1 he with rfl | he
        · exact hbetween
        · exact h.between e he
  · exact h

end Runs

mutual
/-- By induction on the value: walking over it records positions in order. -/
theorem runs_locate (p : Pointer) (v : Value) {t : Trail} (h : t.IsWithin) :
    Runs t (locate p v t).1 (locate p v t).2 := by
  cases v with
  | array items => exact runs_locateItems p 0 items h
  | object m => exact runs_locateEntries p m h
  | null | bool | number | string => exact .nil h

theorem runs_locateItems (p : Pointer) (index : Nat) (items : List Value) {t : Trail}
    (h : t.IsWithin) :
    Runs t (locateItems p index items t).1 (locateItems p index items t).2 := by
  cases items with
  | nil => exact .nil h
  | cons v rest =>
    have hv := runs_locate (p.item index) v h
    have hrest := runs_locateItems p (index + 1) rest hv.isWithin
    rw [locateItems_cons, ← List.append_assoc]
    exact (hv.firstOf _ v).append hrest

theorem runs_locateEntries (p : Pointer) (m : List (String × Value)) {t : Trail}
    (h : t.IsWithin) :
    Runs t (locateEntries p m t).1 (locateEntries p m t).2 := by
  cases m with
  | nil => exact .nil h
  | cons e rest =>
    obtain ⟨k, v⟩ := e
    have hk := Runs.key h (p.child k) k
    have hv := runs_locate (p.child k) v hk.isWithin
    have hrest := runs_locateEntries p rest hv.isWithin
    rw [locateEntries_cons]
    exact hk.append (hv.append hrest)
end

end Trail

theorem Positions.ordered_scan (source : String) (v : Value) :
    (scan source v).Pairwise fun d e => d.2.IsUpTo e.2 :=
  (Trail.runs_locate "" v (Trail.isWithin_start source)).ordered

/-! ## Keys -/

namespace Value

mutual
/-- The pointers of all keys below a value in document order. -/
def keyPointers (p : Pointer) : Value → List Pointer
  | .array items => itemKeyPointers p 0 items
  | .object m => entryKeyPointers p m
  | _ => []

def itemKeyPointers (p : Pointer) (index : Nat) : List Value → List Pointer
  | [] => []
  | v :: rest => keyPointers (p.item index) v ++ itemKeyPointers p (index + 1) rest

def entryKeyPointers (p : Pointer) : List (String × Value) → List Pointer
  | [] => []
  | (k, v) :: rest => p.child k :: (keyPointers (p.child k) v ++ entryKeyPointers p rest)
end

mutual
theorem map_keyPlaces (p : Pointer) (v : Value) : (v.keyPlaces p).map (·.1) = v.keyPointers p := by
  cases v with
  | array items => exact map_itemKeyPlaces p 0 items
  | object m => exact map_entryKeyPlaces p m
  | null | bool | number | string => rfl

theorem map_itemKeyPlaces (p : Pointer) (index : Nat) (items : List Value) :
    (itemKeyPlaces p index items).map (·.1) = itemKeyPointers p index items := by
  cases items with
  | nil => rfl
  | cons v rest =>
    rw [itemKeyPlaces, List.map_append, map_keyPlaces, map_itemKeyPlaces, itemKeyPointers]

theorem map_entryKeyPlaces (p : Pointer) (m : List (String × Value)) :
    (entryKeyPlaces p m).map (·.1) = entryKeyPointers p m := by
  cases m with
  | nil => rfl
  | cons e rest =>
    rw [entryKeyPlaces, List.map_cons, List.map_append, map_keyPlaces, map_entryKeyPlaces,
      entryKeyPointers]
end

/-- Every key gets a position of its own, in document order. -/
theorem keyPointers_sublist (p : Pointer) (v : Value) (t : Trail) :
    (v.keyPointers p).Sublist ((Trail.locate p v t).1.map (·.1)) := by
  rw [← map_keyPlaces, ← Trail.map_records t]
  exact (Trail.sublist_records p v t).1.map _

end Value

end StreamConfig
