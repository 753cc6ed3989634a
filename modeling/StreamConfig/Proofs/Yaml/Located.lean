import StreamConfig.Proofs.Yaml.Trees

/-! # Keys in block style have their own places

Every key of a tree in block style is found on its own line and at its own column, as long as each
scalar of the tree lets the search for the key behind it pass.
* `Line.seek_next` — the search for the next key gets over the rest of a line
* `Line.follow_key` — a key is found behind the margin of its line
* `Line.records_eq` — so following the keys of some lines one by one gives their places
* `scan_exact_of_quiet` — every tree
* `astray_in_scalar` — a colon in a scalar is taken for that of a key
-/

namespace StreamConfig.Yaml

open Cursor

/-! ## Positions of lines -/

theorem EndsLine.behind_append {behind part : List Char} (h : EndsLine behind)
    (hpart : '\n' ∉ part) :
    Position.behind (behind ++ part) = ⟨(Position.behind behind).line, part.length + 1⟩ := by
  unfold Position.behind
  rw [h.takeWhile_append hpart, List.count_append, List.count_eq_zero_of_not_mem hpart]
  simp

namespace Line

variable {l : Line} {ls : List Line} {behind : List Char}

theorem line_behind_text (hl : l.content.isWellFormed = true) (behind : List Char) :
    (Position.behind (behind ++ l.text)).line = (Position.behind behind).line + 1 := by
  have hnewline := newline_not_mem hl (List.append_nil _).symm
  simp [Position.behind, text, List.count_eq_zero_of_not_mem hnewline]

theorem textOf_cons (l : Line) (ls : List Line) :
    textOf (l :: ls) = marginText l.margin ++
      (l.content.name ++ (l.content.colon ++ (l.content.scalar ++ '\n' :: textOf ls))) := by
  simp [textOf, text, upTo]

theorem isName_of_nextKey? (hls : ∀ l ∈ ls, l.content.isWellFormed = true) {k : String}
    (hk : nextKey? ls = some k) : isName k = true := by
  obtain ⟨found, hfound, rfl⟩ := Option.map_eq_some_iff.1 hk
  obtain ⟨l, hl, hkey⟩ := List.mem_filterMap.1 (List.mem_of_head? hfound)
  exact (isName_of_key? (hls l hl) hkey).1

/-- The search for the next key gets over the rest of a line. -/
theorem seek_next (h : AreLaid (l :: ls)) (hquiet : areQuiet (l :: ls) = true)
    (hbehind : EndsLine behind) {k : String} (hk : nextKey? ls = some k) :
    (between (behind ++ (marginText l.margin ++ l.content.name))
        (l.content.colon ++ (l.content.scalar ++ '\n' :: textOf ls))).seek k.toList 0 =
      (between (behind ++ l.text) (textOf ls)).seek k.toList 0 := by
  obtain ⟨hl, hls⟩ := List.forall_mem_cons.1 h.wellFormed
  cases ls with
  | nil => cases hk
  | cons below ls =>
    obtain ⟨hhead, -⟩ := List.isChain_cons.1 h.chain
    simp only [areQuiet, Bool.and_eq_true, hk, Option.all_some] at hquiet
    exact seek_line (isName_of_nextKey? hls hk) hl (hls below List.mem_cons_self)
      (hhead below rfl) hbehind hquiet.1

/-- A key is found behind the margin of its line. -/
theorem follow_key (hl : l.content.isWellFormed = true) (hbehind : EndsLine behind)
    {k : Pointer × String} (hkey : l.content.key? = some k) {t : Trail}
    (hseek : t.cursor.seek k.2.toList 0 = (between behind (textOf (l :: ls))).seek k.2.toList 0) :
    t.follow k.2 = ⟨between (behind ++ (marginText l.margin ++ l.content.name))
        (l.content.colon ++ (l.content.scalar ++ '\n' :: textOf ls)),
      ⟨(Position.behind behind).line, l.column⟩⟩ := by
  obtain ⟨hname, heq⟩ := isName_of_key? hl hkey
  obtain ⟨more, hcolon⟩ : ∃ more, l.content.colon = ':' :: more := by
    cases hcontent : l.content with
    | opening => exact ⟨[], rfl⟩
    | entry => exact ⟨[' '], rfl⟩
    | item =>
      rw [hcontent] at hkey
      cases hkey
  have hnewline := newline_not_mem_margin l.margin
  have hstart : StartsToken (behind ++ marginText l.margin) := by
    unfold StartsToken
    rw [hbehind.takeWhile_append hnewline]
    exact isTokenStart_margin l.margin
  have hfind : t.cursor.find k.2 = some (between (behind ++ marginText l.margin)
      (k.2.toList ++ (l.content.colon ++ (l.content.scalar ++ '\n' :: textOf ls)))) := by
    rw [find_eq_seek, hseek, textOf_cons, seek_frame hname _ _ fun _ => isFrame_of_mem_margin, heq,
      hcolon, List.cons_append]
    exact seek_name hname hstart _
  unfold Trail.follow
  rw [hfind]
  dsimp only
  rw [advance_between, List.take_left, List.drop_left, position_between,
    hbehind.behind_append hnewline, length_marginText, heq, List.append_assoc]
  rfl

/-- Following the keys of some lines one by one records their places, if the next key is searched as
from the start of the lines. By induction on the lines; each one keeps that up for the next. -/
theorem records_eq (h : AreLaid ls) (hquiet : areQuiet ls = true) (hbehind : EndsLine behind)
    {t : Trail} (hseek : ∀ k, nextKey? ls = some k →
      t.cursor.seek k.toList 0 = (between behind (textOf ls)).seek k.toList 0) :
    t.records (keysOf ls) = placesFrom (Position.behind behind).line ls := by
  induction ls generalizing t behind with
  | nil => rfl
  | cons l ls ih =>
    obtain ⟨hl, hls⟩ := List.forall_mem_cons.1 h.wellFormed
    have hrest : AreLaid ls := ⟨hls, h.chain.tail⟩
    have hquietRest : areQuiet ls = true := (Bool.and_eq_true_iff.1 hquiet).2
    have hend := EndsLine.text behind l
    rw [placesFrom, ← line_behind_text hl behind]
    cases hkey : l.content.key? with
    | none =>
      have hkeys : keysOf (l :: ls) = keysOf ls := by simp [keysOf, hkey]
      have hname := Content.name_eq_nil hkey
      rw [hkeys]
      refine ih hrest hquietRest hend fun k hk => ?_
      have hnext := seek_next h hquiet hbehind hk
      rw [hseek k (by rw [nextKey?, hkeys]; exact hk), textOf_cons,
        seek_frame (isName_of_nextKey? hls hk) _ _ fun _ => isFrame_of_mem_margin]
      simpa [hname] using hnext
    | some k =>
      have hkeys : keysOf (l :: ls) = k :: keysOf ls := by simp [keysOf, hkey]
      have hfollow := follow_key hl hbehind hkey (hseek k.2 (by rw [nextKey?, hkeys]; rfl))
      rw [hkeys, Trail.records, hfollow]
      refine congrArg _ (ih hrest hquietRest hend fun k' hk' => ?_)
      exact seek_next h hquiet hbehind hk'

theorem map_placesFrom (number : Nat) (ls : List Line) :
    (placesFrom number ls).map (·.1) = (keysOf ls).map (·.1) := by
  induction ls generalizing number with
  | nil => rfl
  | cons l ls ih =>
    cases hkey : l.content.key? <;> simp [placesFrom, keysOf, hkey, ih (number + 1)]

end Line

/-! ## Whole documents -/

/-- The places of a tree are those of all keys of its value, and if every scalar of the tree lets
the search for the next key pass, each key is found at its own place. -/
theorem scan_exact_of_quiet {b : Tree} (h : b.isWellFormed = true) (hquiet : b.isQuiet = true) :
    b.places.map (·.1) = b.value.keyPointers "" ∧
      ∀ e ∈ b.places, (Positions.scan b.text b.value).get? e.1 = some e.2 := by
  have hlaid := Tree.areLaid_lines "" h
  refine ⟨(Line.map_placesFrom 1 _).trans (Tree.map_keysOf "" h), fun e he => ?_⟩
  have hstart : EndsLine [] := rfl
  have hrecords : (Trail.start b.text).records (Line.keysOf (b.lines "")) = b.places := by
    refine Line.records_eq hlaid hquiet hstart fun k _ => ?_
    rw [Trail.start, Cursor.start, Tree.text, String.toList_ofList]
    rfl
  have hmem : e ∈ Positions.scan b.text b.value :=
    (Tree.sublist_records "" h _).1.subset (hrecords ▸ he)
  exact Positions.get?_of_mem (Positions.nodup_scan _ (Tree.hasDistinctKeys_value h)) hmem

/-- A key with a scalar, and a second key below it. -/
def stacked (scalar : List Char) (below : Tree) : Tree :=
  .mapping [("a", .scalar scalar (.string (String.ofList scalar))), ("b", below)]

/-- Quotes that are closed, an apostrophe and a bar let the search pass. -/
theorem scan_exact_of_quiet_quoted :
    let b := stacked ['x', ' ', '"', 'b', ':', 'c', '"', ' ', ':', '|']
      (.sequence [.scalar ['i', 't', '\'', 's'] (.string "it's"),
        .mapping [("c", .scalar ['-', '5'] (.number (.int (-5))))]])
    (b.isWellFormed = true ∧ b.isQuiet = true) ∧
      b.places.map (·.1) = b.value.keyPointers "" ∧
        ∀ e ∈ b.places, (Positions.scan b.text b.value).get? e.1 = some e.2 := by
  intro b
  have hwell : b.isWellFormed = true := by decide
  have hquiet : b.isQuiet = true := by decide
  exact ⟨⟨hwell, hquiet⟩, scan_exact_of_quiet hwell hquiet⟩

/-- A colon in a scalar is taken for that of the second key, although no blank follows it. -/
theorem astray_in_scalar :
    let b := stacked ['x', ' ', 'b', ':', 'c'] (.scalar ['y'] (.string "y"))
    b.isWellFormed = true ∧ ("/b", ⟨2, 1⟩) ∈ b.places ∧
      (Positions.scan b.text b.value).get? "/b" = some ⟨1, 6⟩ := by
  refine ⟨by decide, by decide, ?_⟩
  rfl

end StreamConfig.Yaml
