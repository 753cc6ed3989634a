import StreamConfig.Proofs.Yaml.Passing

/-! # The lines of a tree

The lines of a well-formed tree may stand one after the other, and they have the keys of the tree's
value in document order:
* `Line.AreLaid` — lines that may stand one after the other; `Line.AreOutermost` if they may stand
  behind any others as well
* `Tree.areLaid_lines` — the lines of a tree are, by one lemma for each way to put lines together
* `Tree.sublist_records` — a walk over the value follows the keys of the lines
-/

namespace StreamConfig

namespace Yaml

/-! ## Lines put together -/

namespace Line

/-- Lines that may stand one after the other. -/
structure AreLaid (ls : List Line) : Prop where
  wellFormed : ∀ l ∈ ls, l.content.isWellFormed = true
  chain : ls.IsChain Precedes

/-- Lines that may also stand behind any others. -/
structure AreOutermost (ls : List Line) : Prop extends AreLaid ls where
  outermost : ∀ l ∈ ls.head?, l.depth = 0 ∧ (l.content.key? = none → Mark.dash ∈ l.margin)

variable {ls ls' : List Line}

theorem AreOutermost.nil : AreOutermost [] := ⟨⟨by simp, .nil⟩, by simp⟩

theorem AreOutermost.append (h : AreOutermost ls) (h' : AreOutermost ls') :
    AreOutermost (ls ++ ls') := by
  refine ⟨⟨List.forall_mem_append.2 ⟨h.wellFormed, h'.wellFormed⟩, ?_⟩, ?_⟩
  · refine List.isChain_append.2 ⟨h.chain, h'.chain, fun l _ below hbelow _ => ?_⟩
    obtain ⟨hdepth, hdash⟩ := h'.outermost below hbelow
    exact ⟨by omega, hdash⟩
  · cases ls with
    | nil => exact h'.outermost
    | cons l ls => exact h.outermost

theorem isWellFormed_within (m : Mark) (h : ∀ l ∈ ls, l.content.isWellFormed = true) :
    ∀ l ∈ ls.map (within m), l.content.isWellFormed = true := by
  intro l hl
  obtain ⟨l, hmem, rfl⟩ := List.mem_map.1 hl
  exact h l hmem

/-- A line keeps its place behind another one if both go one level in. -/
theorem Precedes.within {l below : Line} (h : l.Precedes below) (m : Mark) :
    (l.within m).Precedes (below.within .spaces) := by
  intro hscalar
  obtain ⟨hdepth, hdash⟩ := h hscalar
  refine ⟨?_, fun hkey => List.mem_cons_of_mem _ (hdash hkey)⟩
  simp only [depth] at hdepth
  simp [depth, Line.within, hdepth]

theorem isChain_within (h : ls.IsChain Precedes) : (ls.map (within .spaces)).IsChain Precedes :=
  (List.isChain_map _).2 (h.imp fun _ _ hprecedes => hprecedes.within .spaces)

theorem AreLaid.itemised (h : AreLaid ls) : AreOutermost (itemised ls) := by
  cases ls with
  | nil => exact .nil
  | cons l ls =>
    obtain ⟨hl, hls⟩ := List.forall_mem_cons.1 h.wellFormed
    obtain ⟨hhead, hchain⟩ := List.isChain_cons.1 h.chain
    refine ⟨⟨List.forall_mem_cons.2 ⟨hl, isWellFormed_within _ hls⟩, ?_⟩, ?_⟩
    · refine List.isChain_cons.2 ⟨fun below hbelow => ?_, isChain_within hchain⟩
      rw [List.head?_map] at hbelow
      obtain ⟨next, hnext, rfl⟩ := Option.map_eq_some_iff.1 hbelow
      exact (hhead next hnext).within .dash
    · intro first hfirst
      obtain rfl := Option.some.inj hfirst
      exact ⟨rfl, fun _ => List.mem_cons_self⟩

theorem AreLaid.under (h : AreLaid ls) (p : Pointer) {key : String} (hkey : isName key = true) :
    AreOutermost (⟨[], .opening p key⟩ :: ls.map (within .spaces)) := by
  refine ⟨⟨List.forall_mem_cons.2 ⟨hkey, isWellFormed_within _ h.wellFormed⟩, ?_⟩, ?_⟩
  · -- a key alone has no scalar that could reach the lines below
    exact List.isChain_cons.2 ⟨fun _ _ hscalar => absurd rfl hscalar, isChain_within h.chain⟩
  · intro first hfirst
    obtain rfl := Option.some.inj hfirst
    exact ⟨rfl, nofun⟩

theorem areOutermost_entry (p : Pointer) {key : String} {scalar : List Char}
    (hkey : isName key = true) (hscalar : isPlain scalar = true) :
    AreOutermost [⟨[], .entry p key scalar⟩] := by
  refine ⟨⟨?_, .singleton _⟩, ?_⟩
  · simp [Content.isWellFormed, hkey, hscalar]
  · intro first hfirst
    obtain rfl := Option.some.inj hfirst
    exact ⟨rfl, nofun⟩

/-! ### Keys -/

theorem keysOf_within (m : Mark) (ls : List Line) : keysOf (ls.map (within m)) = keysOf ls := by
  simp only [keysOf, List.filterMap_map]
  rfl

theorem keysOf_append (ls ls' : List Line) : keysOf (ls ++ ls') = keysOf ls ++ keysOf ls' :=
  List.filterMap_append

theorem keysOf_itemised (ls : List Line) : keysOf (itemised ls) = keysOf ls := by
  cases ls with
  | nil => rfl
  | cons l ls =>
    have hrest := keysOf_within .spaces ls
    simp only [keysOf, itemised, List.filterMap_cons] at hrest ⊢
    rw [hrest]
    rfl

end Line

namespace Tree

open Line

mutual
theorem areLaid_lines (p : Pointer) {b : Tree} (h : b.isWellFormed = true) :
    AreLaid (b.lines p) := by
  cases b with
  | scalar text v =>
    exact ⟨List.forall_mem_singleton.2 (Bool.and_eq_true_iff.1 h).1, .singleton _⟩
  | mapping entries => exact (areOutermost_entryLines p (Bool.and_eq_true_iff.1 h).2).toAreLaid
  | sequence items => exact (areOutermost_itemLines p 0 (Bool.and_eq_true_iff.1 h).2).toAreLaid

theorem areOutermost_entryLines (p : Pointer) {entries : List (String × Tree)}
    (h : entriesAreWellFormed entries = true) : AreOutermost (entryLines p entries) := by
  match entries with
  | [] => exact .nil
  | (k, b) :: rest =>
    simp only [entriesAreWellFormed, Bool.and_eq_true] at h
    obtain ⟨⟨hkey, hb⟩, hrest⟩ := h
    refine AreOutermost.append ?_ (areOutermost_entryLines p hrest)
    have hinside := areLaid_lines (p.child k) hb
    cases b with
    | scalar text v => exact areOutermost_entry _ hkey (Bool.and_eq_true_iff.1 hb).1
    | mapping | sequence => exact hinside.under _ hkey

theorem areOutermost_itemLines (p : Pointer) (index : Nat) {items : List Tree}
    (h : itemsAreWellFormed items = true) : AreOutermost (itemLines p index items) := by
  match items with
  | [] => exact .nil
  | b :: rest =>
    obtain ⟨hb, hrest⟩ := Bool.and_eq_true_iff.1 h
    exact (areLaid_lines (p.item index) hb).itemised.append (areOutermost_itemLines p _ hrest)
end

theorem keysOf_keyLines (q : Pointer) (k : String) (b : Tree) :
    keysOf (b.keyLines q k (b.lines q)) = (q, k) :: keysOf (b.lines q) := by
  cases b with
  | scalar text v => rfl
  | mapping | sequence =>
    rw [keyLines, keysOf, List.filterMap_cons]
    exact congrArg _ (keysOf_within .spaces _)

mutual
/-- The keys of the lines are those of the value. -/
theorem keysOf_lines (p : Pointer) {b : Tree} (h : b.isWellFormed = true) :
    keysOf (b.lines p) = b.value.keyPlaces p := by
  cases b with
  | scalar text v =>
    cases v with
    | array | object => simp [isWellFormed, Value.isScalar] at h
    | null | bool | number | string => rfl
  | mapping entries => exact keysOf_entryLines p (Bool.and_eq_true_iff.1 h).2
  | sequence items => exact keysOf_itemLines p 0 (Bool.and_eq_true_iff.1 h).2

theorem keysOf_entryLines (p : Pointer) {entries : List (String × Tree)}
    (h : entriesAreWellFormed entries = true) :
    keysOf (entryLines p entries) = Value.entryKeyPlaces p (entryValues entries) := by
  match entries with
  | [] => rfl
  | (k, b) :: rest =>
    simp only [entriesAreWellFormed, Bool.and_eq_true] at h
    rw [entryLines, keysOf_append, keysOf_keyLines, keysOf_lines (p.child k) h.1.2,
      keysOf_entryLines p h.2, entryValues, Value.entryKeyPlaces, List.cons_append]

theorem keysOf_itemLines (p : Pointer) (index : Nat) {items : List Tree}
    (h : itemsAreWellFormed items = true) :
    keysOf (itemLines p index items) = Value.itemKeyPlaces p index (itemValues items) := by
  match items with
  | [] => rfl
  | b :: rest =>
    obtain ⟨hb, hrest⟩ := Bool.and_eq_true_iff.1 h
    rw [itemLines, keysOf_append, keysOf_itemised, keysOf_lines (p.item index) hb,
      keysOf_itemLines p (index + 1) hrest, itemValues, Value.itemKeyPlaces]
end

/-- A walk over the value records a position for every key of the lines, in their order, and gets
as far as following these keys gets. -/
theorem sublist_records (p : Pointer) {b : Tree} (h : b.isWellFormed = true) (t : Trail) :
    (t.records (keysOf (b.lines p))).Sublist (Trail.locate p b.value t).1 ∧
      (Trail.locate p b.value t).2 = t.followAll (keysOf (b.lines p)) := by
  rw [keysOf_lines p h]
  exact Trail.sublist_records p b.value t

theorem map_keysOf (p : Pointer) {b : Tree} (h : b.isWellFormed = true) :
    (keysOf (b.lines p)).map (·.1) = b.value.keyPointers p := by
  rw [keysOf_lines p h, Value.map_keyPlaces]

theorem keys_entryValues (entries : List (String × Tree)) :
    Entries.keys (entryValues entries) = entries.map (·.1) := by
  induction entries with
  | nil => rfl
  | cons e rest ih =>
    rw [entryValues, List.map_cons, ← ih]
    rfl

mutual
theorem hasDistinctKeys_value {b : Tree} (h : b.isWellFormed = true) :
    b.value.hasDistinctKeys = true := by
  cases b with
  | scalar text v =>
    cases v with
    | array | object => simp [isWellFormed, Value.isScalar] at h
    | null | bool | number | string => rfl
  | mapping entries =>
    simp only [isWellFormed, Bool.and_eq_true, decide_eq_true_eq] at h
    simp [value, Value.hasDistinctKeys, keys_entryValues, h.1.2, haveDistinctKeys_entryValues h.2]
  | sequence items => exact haveDistinctKeys_itemValues (Bool.and_eq_true_iff.1 h).2

theorem haveDistinctKeys_entryValues {entries : List (String × Tree)}
    (h : entriesAreWellFormed entries = true) :
    Value.entriesHaveDistinctKeys (entryValues entries) = true := by
  match entries with
  | [] => rfl
  | (k, b) :: rest =>
    simp only [entriesAreWellFormed, Bool.and_eq_true] at h
    exact Bool.and_eq_true_iff.2 ⟨hasDistinctKeys_value h.1.2, haveDistinctKeys_entryValues h.2⟩

theorem haveDistinctKeys_itemValues {items : List Tree} (h : itemsAreWellFormed items = true) :
    Value.itemsHaveDistinctKeys (itemValues items) = true := by
  match items with
  | [] => rfl
  | b :: rest =>
    obtain ⟨hb, hrest⟩ := Bool.and_eq_true_iff.1 h
    exact Bool.and_eq_true_iff.2 ⟨hasDistinctKeys_value hb, haveDistinctKeys_itemValues hrest⟩
end

end Tree

end Yaml

end StreamConfig
