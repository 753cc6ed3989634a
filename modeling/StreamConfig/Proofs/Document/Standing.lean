import Mathlib.Data.List.Nodup
import StreamConfig.Proofs.Document.Cuts
import StreamConfig.Proofs.Document.Order
import StreamConfig.Proofs.Document.Paths

/-! # Where keys stand

A text and a value may have nothing to do with each other. Even so, every key of the value gets a
position, and no position is made up: either the key stands there, or the key before it in the
document has the same position.
* `Position.LiesIn` — a position on a line of the text; `liesIn_behind` gives one for every place
* `Position.HasKey` — a key with its colon stands at the position
* `Trail.follow_isOn` — one key
* `Trail.map_locate` — the keys and elements that get a position
* `scan_honest` — every text and every value
-/

namespace StreamConfig

/-! ## Positions in a text -/

namespace Position

/-- The line is one of the text, and the column one of the line, or one behind its end. -/
def LiesIn (p : Position) (source : String) : Prop :=
  1 ≤ p.line ∧ 1 ≤ p.column ∧
    ∃ l, (source.toList.splitOn '\n')[p.line - 1]? = some l ∧ p.column ≤ l.length + 1

/-- The key's text starts at the position, and behind it, or behind the quote that closes it, comes
a colon after any number of spaces and tabs. -/
def HasKey (p : Position) (source key : String) : Prop :=
  ∃ before quote gap after,
    source.toList = before ++ (key.toList ++ (quote ++ (gap ++ ':' :: after))) ∧
      (quote = [] ∨ quote = ['"'] ∨ quote = ['\'']) ∧ (∀ c ∈ gap, c = ' ' ∨ c = '\t') ∧
      p = behind before

theorem splitOn_cons (c : Char) (cs : List Char) :
    (c :: cs).splitOn '\n' =
      if c = '\n' then [] :: cs.splitOn '\n' else (cs.splitOn '\n').modifyHead (List.cons c) := by
  unfold List.splitOn
  rw [List.splitOnP_cons_eq_if_modifyHead]
  simp

theorem length_splitOn (cs : List Char) : (cs.splitOn '\n').length = cs.count '\n' + 1 := by
  induction cs with
  | nil => simp
  | cons c cs ih =>
    rw [splitOn_cons]
    by_cases hc : c = '\n' <;> simp [hc, ih]

theorem exists_first_line {part : List Char} (hpart : '\n' ∉ part) (rest : List Char) :
    ∃ l, ((part ++ rest).splitOn '\n')[0]? = some l ∧ part.length ≤ l.length := by
  induction part with
  | nil =>
    have hpos : 0 < (rest.splitOn '\n').length := by
      rw [length_splitOn]
      omega
    exact ⟨_, List.getElem?_eq_getElem hpos, Nat.zero_le _⟩
  | cons c part ih =>
    obtain ⟨hc, hpart⟩ := List.ne_and_not_mem_of_not_mem_cons hpart
    obtain ⟨l, hl, hlength⟩ := ih hpart
    refine ⟨c :: l, ?_, by simpa using hlength⟩
    rw [List.cons_append, splitOn_cons, if_neg (Ne.symm hc)]
    cases hlines : (part ++ rest).splitOn '\n' with
    | nil => simp [hlines] at hl
    | cons first others =>
      rw [hlines] at hl
      simpa using hl

/-- A place of the text is on the line that its line feeds tell, and not behind the end of it. -/
theorem liesIn_behind {source : String} {cs rest : List Char} (h : source.toList = cs ++ rest) :
    (behind cs).LiesIn source := by
  rcases line_cases cs with hcs | ⟨whole, last, rfl, hlast⟩
  · obtain ⟨l, hl, hlength⟩ := exists_first_line hcs rest
    rw [behind_line hcs]
    exact ⟨Nat.le_refl 1, by simp, l, by simpa [h] using hl, by simpa using hlength⟩
  · obtain ⟨l, hl, hlength⟩ := exists_first_line hlast rest
    rw [behind_lines whole hlast]
    refine ⟨by simp, by simp, l, ?_, by simpa using hlength⟩
    rw [h, List.append_assoc, List.cons_append, List.splitOn_append_cons_self,
      List.getElem?_append_right (by simp [length_splitOn]), length_splitOn]
    simpa using hl

end Position

/-! ## Keys and elements that get a position -/

namespace Node

/-- Keys get a position, and so do elements that are objects with a first key. -/
def isLocated (n : Node) : Bool :=
  match n.key?, n.value with
  | some _, _ => true
  | none, .object (_ :: _) => true
  | none, _ => false

theorem isLocated_iff (n : Node) :
    n.isLocated = true ↔ n.key? ≠ none ∨ ∃ e m, n.value = .object (e :: m) := by
  unfold isLocated
  split
  next hkey => simp [hkey]
  next hkey hvalue => simp [hvalue]
  next hkey hother =>
    simp only [Bool.false_eq_true, hkey, ne_eq, not_true_eq_false, false_or, false_iff]
    rintro ⟨e, m, hvalue⟩
    exact hother e m hvalue

end Node

namespace Trail

theorem map_firstOf (q : Pointer) (v : Value) (path : List String) (t : Trail) :
    (firstOf q v (locate (Pointer.ofPath path) v t).1).map (·.1) =
      if Node.isLocated ⟨path, none, v⟩ then [q] else [] := by
  cases v with
  | object m => cases m <;> rfl
  | null | bool | number | string | array => rfl

mutual
/-- What gets a position: keys, and elements that are objects with a first key. -/
theorem map_locate (path : List String) (v : Value) (t : Trail) :
    (locate (Pointer.ofPath path) v t).1.map (·.1) =
      ((v.nodes path).filter Node.isLocated).map Node.place := by
  cases v with
  | array items => exact map_locateItems path 0 items t
  | object m => exact map_locateEntries path m t
  | null | bool | number | string => rfl

theorem map_locateItems (path : List String) (index : Nat) (items : List Value) (t : Trail) :
    (locateItems (Pointer.ofPath path) index items t).1.map (·.1) =
      ((Value.itemNodes path index items).filter Node.isLocated).map Node.place := by
  cases items with
  | nil => rfl
  | cons v rest =>
    have hinside := map_locate (path ++ [toString index]) v t
    have hothers := map_locateItems path (index + 1) rest
      (locate ((Pointer.ofPath path).item index) v t).2
    have hfirst := map_firstOf ((Pointer.ofPath path).item index) v (path ++ [toString index]) t
    rw [Pointer.ofPath_snoc] at hinside hfirst
    have hplace : Node.place ⟨path ++ [toString index], none, v⟩ =
        (Pointer.ofPath path).item index := Pointer.ofPath_snoc path _
    rw [locateItems_cons, List.map_append, List.map_append, hothers, Value.itemNodes,
      List.filter_cons, List.filter_append]
    change List.map _ (firstOf _ v (locate ((Pointer.ofPath path).child _) v t).1) ++ _ = _
    rw [hfirst]
    split
    · rw [List.map_cons, List.map_append, hplace, ← hinside]
      rfl
    · rw [List.map_append, ← hinside]
      rfl

theorem map_locateEntries (path : List String) (m : List (String × Value)) (t : Trail) :
    (locateEntries (Pointer.ofPath path) m t).1.map (·.1) =
      ((Value.entryNodes path m).filter Node.isLocated).map Node.place := by
  cases m with
  | nil => rfl
  | cons e rest =>
    obtain ⟨k, v⟩ := e
    have hinside := map_locate (path ++ [k]) v (t.follow k)
    have hothers := map_locateEntries path rest
      (locate ((Pointer.ofPath path).child k) v (t.follow k)).2
    rw [Pointer.ofPath_snoc] at hinside
    rw [locateEntries_cons, List.map_cons, List.map_append, hinside, hothers, Value.entryNodes,
      List.filter_cons_of_pos rfl, List.map_cons, List.filter_append, List.map_append, Node.place,
      Pointer.ofPath_snoc]
end

/-! ## Every position is a place of the text -/

/-- The trail has come to a place of the text, and its last position is not behind that place. -/
def IsOn (source : String) (t : Trail) : Prop :=
  ∃ cs ds rest, source.toList = cs ++ rest ∧ ds <+: cs ∧
    t = ⟨Cursor.between cs rest, Position.behind ds⟩

theorem isOn_start (source : String) : (start source).IsOn source :=
  ⟨[], [], source.toList, rfl, List.prefix_refl _, rfl⟩

theorem IsOn.liesIn {source : String} {t : Trail} (h : t.IsOn source) : t.last.LiesIn source := by
  obtain ⟨cs, ds, rest, hsource, ⟨more, rfl⟩, rfl⟩ := h
  rw [List.append_assoc] at hsource
  exact Position.liesIn_behind hsource

/-- One key: the position is where it stands, or stays. -/
theorem follow_isOn {source : String} {t : Trail} (h : t.IsOn source) (k : String) :
    (t.follow k).IsOn source ∧
      ((t.follow k).last = t.last ∨ (t.follow k).last.HasKey source k) := by
  obtain ⟨cs, ds, rest, hsource, hds, rfl⟩ := h
  unfold follow
  cases hfind : (Cursor.between cs rest).find k with
  | none => exact ⟨⟨cs, ds, rest, hsource, hds, rfl⟩, .inl rfl⟩
  | some c =>
    obtain ⟨passed, left, rfl, rfl, quote, behind, rfl, hquote, hcolon⟩ :=
      Cursor.exists_ahead_of_seek hfind
    obtain ⟨gap, after, hgap, rfl⟩ := isBeforeColon_iff.1 hcolon
    rw [← List.append_assoc] at hsource
    dsimp only
    rw [Cursor.advance_between, Cursor.position_between, List.take_left, List.drop_left]
    refine ⟨⟨_, cs ++ passed, _, ?_, List.prefix_append .., rfl⟩, .inr ?_⟩
    · rw [hsource]
      simp only [List.append_assoc]
    · exact ⟨cs ++ passed, quote, gap, after, hsource, hquote,
        fun c hc => by simpa [Text.isInlineBlank] using hgap c hc, rfl⟩

end Trail

namespace Value

mutual
theorem allKeys_of_forall {ok : String → Bool} (h : ∀ k, ok k = true) (v : Value) :
    v.allKeys ok = true := by
  cases v with
  | array items => exact itemsAllKeys_of_forall h items
  | object m => exact entriesAllKeys_of_forall h m
  | null | bool | number | string => rfl

theorem itemsAllKeys_of_forall {ok : String → Bool} (h : ∀ k, ok k = true) (items : List Value) :
    itemsAllKeys ok items = true := by
  cases items with
  | nil => rfl
  | cons v rest => simp [itemsAllKeys, allKeys_of_forall h v, itemsAllKeys_of_forall h rest]

theorem entriesAllKeys_of_forall {ok : String → Bool} (h : ∀ k, ok k = true)
    (m : List (String × Value)) : entriesAllKeys ok m = true := by
  cases m with
  | nil => rfl
  | cons e rest =>
    simp [entriesAllKeys, h e.1, allKeys_of_forall h e.2, entriesAllKeys_of_forall h rest]
end

end Value

namespace Positions

/-- From one position on, each key has the same position as the key before it, or one where it
stands. -/
def AreHonest (source : String) (ps : Positions) : Position → List (Pointer × String) → Prop
  | _, [] => True
  | last, (p, k) :: rest =>
    ∃ at', ps.get? p = some at' ∧ (at' = last ∨ at'.HasKey source k) ∧ ps.AreHonest source at' rest

theorem areHonest_of_records {source : String} {ps : Positions} {t : Trail} (h : t.IsOn source)
    {ks : List (Pointer × String)} (hks : ∀ e ∈ t.records ks, ps.get? e.1 = some e.2) :
    ps.AreHonest source t.last ks := by
  induction ks generalizing t with
  | nil => trivial
  | cons k ks ih =>
    obtain ⟨p, k⟩ := k
    obtain ⟨hon, hhonest⟩ := Trail.follow_isOn h k
    obtain ⟨hhere, hrest⟩ := List.forall_mem_cons.1 hks
    exact ⟨_, hhere, hhonest, ih hon hrest⟩

theorem liesIn_of_mem_scan {source : String} {v : Value} {e : Pointer × Position}
    (he : e ∈ scan source v) : e.2.LiesIn source := by
  have hfollow : Trail.Preserves (fun _ => true) (Trail.IsOn source) :=
    fun t k _ h => (Trail.follow_isOn h k).1
  have hkeys := Value.allKeys_of_forall (fun _ => rfl) v
  obtain ⟨t, ht, heq⟩ := (Trail.recorded_locate hfollow "" v hkeys (Trail.isOn_start source)).1 e he
  rw [heq]
  exact ht.liesIn

theorem get?_isSome_iff {ps : Positions} {p : Pointer} :
    (ps.get? p).isSome = true ↔ p ∈ ps.map (·.1) := by
  simp [get?]

theorem mem_of_get? {ps : Positions} {p : Pointer} {at' : Position} (h : ps.get? p = some at') :
    (p, at') ∈ ps := by
  obtain ⟨e, he, rfl⟩ := Option.map_eq_some_iff.1 h
  have hp : e.1 = p := by simpa using List.find?_some he
  rw [← hp]
  exact List.mem_of_find?_eq_some he

theorem filterMap_get? {ps : Positions} (hnodup : (ps.map (·.1)).Nodup) :
    (ps.map (·.1)).filterMap ps.get? = ps.map (·.2) := by
  rw [List.filterMap_map, ← List.filterMap_eq_map]
  exact List.filterMap_congr fun e he => get?_of_mem hnodup he

end Positions

/-- Keys are the nodes that have one, and elements all others. Every key of a value has a position
in any text, and an element has one exactly if it is an object that is not empty; in document order
they do not go back; they lie in the text; and each key has the position of the key before it, or of
the start of the text if it is the first, unless it stands at its own. -/
theorem scan_honest (source : String) (v : Value) (hv : v.hasDistinctKeys = true) :
    let ps := Positions.scan source v
    (∀ n ∈ v.nodes [], (ps.get? n.place).isSome = true ↔
        n.key? ≠ none ∨ ∃ e m, n.value = .object (e :: m)) ∧
      ((v.nodes []).filterMap fun n => ps.get? n.place).Pairwise Position.IsUpTo ∧
      (∀ n ∈ v.nodes [], ∀ at', ps.get? n.place = some at' → at'.LiesIn source) ∧
      ps.AreHonest source ⟨1, 1⟩ (v.keyPlaces "") := by
  intro ps
  have hnodup := Positions.nodup_scan source hv
  have hplaces : ps.map (·.1) = ((v.nodes []).filter Node.isLocated).map Node.place :=
    Trail.map_locate [] v _
  have hlocated : ∀ n ∈ v.nodes [], (ps.get? n.place).isSome = n.isLocated := by
    intro n hn
    rw [Bool.eq_iff_iff, Positions.get?_isSome_iff, hplaces, List.mem_map]
    constructor
    · rintro ⟨n', hn', hsame⟩
      -- no other node has the same place
      obtain ⟨hn', hlocated⟩ := List.mem_filter.1 hn'
      rwa [← List.inj_on_of_nodup_map (Value.nodup_places hv) hn' hn hsame]
    · exact fun h => ⟨n, List.mem_filter.2 ⟨hn, h⟩, rfl⟩
  refine ⟨fun n hn => ?_, ?_, fun n _ at' hat => ?_, ?_⟩
  · rw [hlocated n hn, Node.isLocated_iff]
  · have hpositions : (v.nodes []).filterMap (fun n => ps.get? n.place) = ps.map (·.2) := by
      calc (v.nodes []).filterMap (fun n => ps.get? n.place)
          = ((v.nodes []).filter Node.isLocated).filterMap (fun n => ps.get? n.place) := by
            rw [List.filterMap_filter]
            refine List.filterMap_congr fun n hn => ?_
            rw [← hlocated n hn]
            cases ps.get? n.place <;> rfl
        _ = (ps.map (·.1)).filterMap ps.get? := by
            rw [hplaces, List.filterMap_map]
            rfl
        _ = ps.map (·.2) := Positions.filterMap_get? hnodup
    rw [hpositions, List.pairwise_map]
    exact Positions.ordered_scan source v
  · exact Positions.liesIn_of_mem_scan (Positions.mem_of_get? hat)
  · have hrecords := (Trail.sublist_records "" v (Trail.start source)).1
    exact Positions.areHonest_of_records (Trail.isOn_start source) fun e he =>
      Positions.get?_of_mem hnodup (hrecords.mem he)

/-- A text that disagrees with the value: the second key of the value only stands in a block scalar,
so it and what is below it have the position of the first one. -/
theorem scan_honest_elsewhere :
    let source := "é: 1\n'b' : |\n  a: 3\n"
    let v : Value := .object [("b", .object []), ("a", .array [.object [("é", .null)], .array []])]
    let ps := Positions.scan source v
    v.hasDistinctKeys = true ∧
      ((v.nodes []).map fun n => ps.get? n.place) =
        [some ⟨2, 2⟩, some ⟨2, 2⟩, some ⟨2, 2⟩, some ⟨2, 2⟩, none] ∧
      ps.AreHonest source ⟨1, 1⟩ (v.keyPlaces "") := by
  intro source v ps
  have hv : v.hasDistinctKeys = true := by decide
  exact ⟨hv, by decide +kernel, (scan_honest source v hv).2.2.2⟩

end StreamConfig
