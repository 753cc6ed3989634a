import Mathlib.Data.List.Induction
import StreamConfig.Proofs.Document.Trails

/-! # Paths and their pointers

A pointer is the text of a path of keys and indices. Whatever the keys are, the text loses nothing
of the path, and going back from a place one step at a time passes through the parts of its path:
* `Pointer.ofPath` — the pointer of a path; `ofPath_injective` says that no other path has it
* `Value.nodes` — the keys and elements of a value with their paths, in document order
* `Positions.nearest_child` — one step back
* `nearest_eq` — all steps back: the longest part of the path that has a position
* `pointers_faithful` — what this says about the positions of a document
-/

namespace StreamConfig

namespace Pointer

/-- The place at the end of a path of keys and indices. -/
def ofPath (path : List String) : Pointer := path.foldl child ""

@[simp] theorem ofPath_nil : ofPath [] = "" := rfl

@[simp] theorem ofPath_snoc (path : List String) (token : String) :
    ofPath (path ++ [token]) = child (ofPath path) token := by
  simp [ofPath]

theorem child_ne_empty (p : Pointer) (token : String) : child p token ≠ "" := by
  intro h
  have htoList := congrArg String.toList h
  simp [toList_child] at htoList

/-- One step further can be undone: it tells the place before it and the key. -/
theorem child_inj {p q : Pointer} {a b : String} (h : child p a = child q b) : p = q ∧ a = b := by
  have hparent : some p = some q := by
    rw [← parent?_child p a, h, parent?_child]
  obtain rfl := Option.some.inj hparent
  exact ⟨rfl, child_eq_of_isBelow (q := p.child a) (.refl _) (h ▸ .refl _)⟩

theorem ofPath_injective : Function.Injective ofPath := by
  intro path path'
  -- from the last step, since that is the one a pointer can be taken apart at
  induction path using List.reverseRecOn generalizing path' with
  | nil =>
    intro h
    rcases List.eq_nil_or_concat path' with rfl | ⟨before, token, rfl⟩
    · rfl
    · rw [List.concat_eq_append, ofPath_snoc] at h
      exact absurd h.symm (child_ne_empty _ _)
  | append_singleton before token ih =>
    intro h
    rcases List.eq_nil_or_concat path' with rfl | ⟨before', token', rfl⟩
    · rw [ofPath_snoc] at h
      exact absurd h (child_ne_empty _ _)
    · rw [List.concat_eq_append, ofPath_snoc, ofPath_snoc] at h
      obtain ⟨hbefore, rfl⟩ := child_inj h
      rw [ih hbefore, List.concat_eq_append]

end Pointer

/-! ## Keys and elements -/

/-- A key or an element of a value: the path to it, the key if it is one, and what stands there. -/
structure Node where
  path : List String
  key? : Option String
  value : Value

/-- The pointer of a key or an element. -/
def Node.place (n : Node) : Pointer := Pointer.ofPath n.path

namespace Value

mutual
/-- The keys and elements below the end of a path, parents before children. -/
def nodes (path : List String) : Value → List Node
  | .array items => itemNodes path 0 items
  | .object m => entryNodes path m
  | _ => []

def itemNodes (path : List String) (index : Nat) : List Value → List Node
  | [] => []
  | v :: rest =>
    ⟨path ++ [toString index], none, v⟩ ::
      (nodes (path ++ [toString index]) v ++ itemNodes path (index + 1) rest)

def entryNodes (path : List String) : List (String × Value) → List Node
  | [] => []
  | (k, v) :: rest =>
    ⟨path ++ [k], some k, v⟩ :: (nodes (path ++ [k]) v ++ entryNodes path rest)
end

mutual
theorem map_place_nodes (path : List String) (v : Value) :
    (v.nodes path).map Node.place = v.pointers (Pointer.ofPath path) := by
  cases v with
  | array items => exact map_place_itemNodes path 0 items
  | object m => exact map_place_entryNodes path m
  | null | bool | number | string => rfl

theorem map_place_itemNodes (path : List String) (index : Nat) (items : List Value) :
    (itemNodes path index items).map Node.place =
      itemPointers (Pointer.ofPath path) index items := by
  cases items with
  | nil => rfl
  | cons v rest =>
    have hinside := map_place_nodes (path ++ [toString index]) v
    rw [Pointer.ofPath_snoc] at hinside
    rw [itemNodes, itemPointers, List.map_cons, List.map_append, hinside,
      map_place_itemNodes path (index + 1) rest, Node.place, Pointer.ofPath_snoc]
    rfl

theorem map_place_entryNodes (path : List String) (m : List (String × Value)) :
    (entryNodes path m).map Node.place = entryPointers (Pointer.ofPath path) m := by
  cases m with
  | nil => rfl
  | cons e rest =>
    obtain ⟨k, v⟩ := e
    have hinside := map_place_nodes (path ++ [k]) v
    rw [Pointer.ofPath_snoc] at hinside
    rw [entryNodes, entryPointers, List.map_cons, List.map_append, hinside,
      map_place_entryNodes path rest, Node.place, Pointer.ofPath_snoc]
end

theorem nodup_places {v : Value} (h : v.hasDistinctKeys = true) :
    ((v.nodes []).map Node.place).Nodup := by
  rw [map_place_nodes]
  exact nodup_pointers "" h

end Value

/-! ## The nearest position -/

namespace Positions

variable (ps : Positions)

theorem nearestTo_child (steps : Nat) (p : Pointer) (token : String) :
    nearestTo ps (steps + 1) (p.child token) =
      (ps.get? (p.child token)).getD (nearestTo ps steps p) := by
  rw [nearestTo, Pointer.parent?_child]
  cases ps.get? (p.child token) <;> rfl

theorem nearestTo_root (steps : Nat) :
    nearestTo ps (steps + 1) "" = (ps.get? "").getD Position.origin := by
  rw [nearestTo]
  cases ps.get? "" <;> rfl

/-- As many steps as a path has, and one more, are enough. -/
theorem nearestTo_ofPath {steps : Nat} (path : List String) (h : path.length < steps) :
    nearestTo ps steps (Pointer.ofPath path) =
      nearestTo ps (path.length + 1) (Pointer.ofPath path) := by
  induction path using List.reverseRecOn generalizing steps with
  | nil =>
    obtain ⟨steps, rfl⟩ := Nat.exists_eq_add_one.2 h
    rw [Pointer.ofPath_nil, nearestTo_root, nearestTo_root]
  | append_singleton before token ih =>
    rw [List.length_append, List.length_singleton] at h ⊢
    obtain ⟨steps, rfl⟩ := Nat.exists_eq_add_one.2 (Nat.zero_lt_of_lt h)
    rw [Pointer.ofPath_snoc, nearestTo_child, nearestTo_child, ih (by omega)]

theorem length_le_ofPath (path : List String) :
    path.length ≤ (Pointer.ofPath path).toList.length := by
  induction path using List.reverseRecOn with
  | nil => simp
  | append_singleton before token ih =>
    rw [Pointer.ofPath_snoc, Pointer.toList_child]
    simp only [List.length_append, List.length_cons, List.length_nil]
    omega

theorem nearest_ofPath (path : List String) :
    ps.nearest (Pointer.ofPath path) =
      nearestTo ps (path.length + 1) (Pointer.ofPath path) :=
  nearestTo_ofPath ps path (Nat.lt_succ_of_le (length_le_ofPath path))

theorem nearest_root : ps.nearest (Pointer.ofPath []) = (ps.get? "").getD Position.origin :=
  nearestTo_root ps _

/-- A place with no position of its own has that of the place before the last step. -/
theorem nearest_child (path : List String) (token : String) :
    ps.nearest (Pointer.ofPath (path ++ [token])) =
      (ps.get? (Pointer.ofPath (path ++ [token]))).getD (ps.nearest (Pointer.ofPath path)) := by
  rw [nearest_ofPath, nearest_ofPath, List.length_append, List.length_singleton,
    Pointer.ofPath_snoc, nearestTo_child]

/-- The first part of a path has a position, and no longer part of it has one. -/
structure IsLongestLocated (path upTo : List String) (at' : Position) : Prop where
  isPrefix : upTo <+: path
  located : ps.get? (Pointer.ofPath upTo) = some at'
  longest : ∀ longer, longer <+: path → upTo.length < longer.length →
    ps.get? (Pointer.ofPath longer) = none

theorem nearest_eq (path : List String) :
    (∃ upTo at', ps.IsLongestLocated path upTo at' ∧ ps.nearest (Pointer.ofPath path) = at') ∨
      (∀ upTo, upTo <+: path → ps.get? (Pointer.ofPath upTo) = none) ∧
        ps.nearest (Pointer.ofPath path) = Position.origin := by
  -- the search drops one step after the other, and the last one first
  induction path using List.reverseRecOn with
  | nil =>
    rw [nearest_root]
    cases hroot : ps.get? "" with
    | some at' =>
      refine .inl ⟨[], at', ⟨List.prefix_refl _, hroot, fun longer hlonger hlength => ?_⟩, rfl⟩
      rw [List.prefix_nil.1 hlonger] at hlength
      exact absurd hlength (Nat.lt_irrefl _)
    | none =>
      refine .inr ⟨fun upTo hupTo => ?_, rfl⟩
      rw [List.prefix_nil.1 hupTo]
      exact hroot
  | append_singleton before token ih =>
    rw [nearest_child]
    cases hhere : ps.get? (Pointer.ofPath (before ++ [token])) with
    | some at' =>
      refine .inl ⟨before ++ [token], at', ⟨List.prefix_refl _, hhere, ?_⟩, rfl⟩
      intro longer hlonger hlength
      exact absurd hlonger.length_le (Nat.not_le_of_lt hlength)
    | none =>
      -- the parts of the path are itself, which has no position, and those of the path before
      have hparts : ∀ {part}, part <+: before ++ [token] →
          part = before ++ [token] ∨ part <+: before := fun hpart => List.prefix_concat_iff.1 hpart
      rcases ih with ⟨upTo, at', hlongest, hnearest⟩ | ⟨hnone, hnearest⟩
      · refine .inl ⟨upTo, at', ⟨?_, hlongest.located, fun longer hlonger hlength => ?_⟩, hnearest⟩
        · exact hlongest.isPrefix.trans (List.prefix_append ..)
        · rcases hparts hlonger with rfl | hbefore
          · exact hhere
          · exact hlongest.longest longer hbefore hlength
      · refine .inr ⟨fun upTo hupTo => ?_, hnearest⟩
        rcases hparts hupTo with rfl | hbefore
        · exact hhere
        · exact hnone upTo hbefore

end Positions

/-- Paths have pointers of their own, so every position of a document belongs to one key or element
of it (no object that is read from a text repeats a key), and the nearest position of a path is the
one of the longest part of it that has any; the start of the text if no part has one. -/
theorem pointers_faithful (source : String) (v : Value) :
    Function.Injective Pointer.ofPath ∧
      (v.hasDistinctKeys = true → ((v.nodes []).map Node.place).Nodup) ∧
      ((Positions.scan source v).map (·.1)).Sublist ((v.nodes []).map Node.place) ∧
      ∀ path,
        (∃ upTo at', (Positions.scan source v).IsLongestLocated path upTo at' ∧
          (Positions.scan source v).nearest (Pointer.ofPath path) = at') ∨
        (∀ upTo, upTo <+: path → (Positions.scan source v).get? (Pointer.ofPath upTo) = none) ∧
          (Positions.scan source v).nearest (Pointer.ofPath path) = ⟨1, 1⟩ := by
  refine ⟨Pointer.ofPath_injective, Value.nodup_places, ?_, fun path => ?_⟩
  · rw [Value.map_place_nodes]
    exact Trail.sublist_locate "" v _
  · exact Positions.nearest_eq _ path

/-- An empty key below a key with both signs that pointers escape; what stands under the empty key
has its position. -/
theorem pointers_faithful_escaped :
    let source := "\x7b\"~/\": \x7b\"\": [null]\x7d\x7d"
    let v : Value := .object [("~/", .object [("", .array [.null])])]
    let ps := Positions.scan source v
    v.hasDistinctKeys = true ∧ ((v.nodes []).map Node.place).Nodup ∧
      ps.get? "/~0~1/" = some ⟨1, 10⟩ ∧
      ps.nearest (Pointer.ofPath ["~/", "", "0", "x"]) = ⟨1, 10⟩ := by
  intro source v ps
  have hv : v.hasDistinctKeys = true := by decide
  obtain ⟨-, hnodup, -, hpaths⟩ := pointers_faithful source v
  refine ⟨hv, hnodup hv, by decide, ?_⟩
  rcases hpaths ["~/", "", "0", "x"] with ⟨upTo, at', hlongest, heq⟩ | ⟨hnone, -⟩
  · have hlength : 2 ≤ upTo.length := by
      by_contra hshort
      exact absurd (hlongest.longest ["~/", ""] (by decide) (by simp; omega)) (by decide)
    have hle : upTo.length ≤ 4 := hlongest.isPrefix.length_le
    have hlocated := hlongest.located
    rw [List.prefix_iff_eq_take.1 hlongest.isPrefix] at hlocated
    rw [heq]
    obtain hlen | hlen | hlen : upTo.length = 2 ∨ upTo.length = 3 ∨ upTo.length = 4 := by omega
    · rw [hlen] at hlocated
      exact Option.some.inj (hlocated.symm.trans (by decide))
    · have hitem : ps.get? (Pointer.ofPath ["~/", "", "0"]) = none := by decide
      rw [hlen] at hlocated
      exact nomatch hlocated.symm.trans hitem
    · have hbelow : ps.get? (Pointer.ofPath ["~/", "", "0", "x"]) = none := by decide
      rw [hlen] at hlocated
      exact nomatch hlocated.symm.trans hbelow
  · exact absurd (hnone ["~/", ""] (by decide)) (by decide)

end StreamConfig
