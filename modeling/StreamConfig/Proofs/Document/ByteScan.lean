import StreamConfig.Proofs.Document.Bytes
import StreamConfig.Proofs.Document.Offsets
import StreamConfig.Proofs.Document.Standing

/-! # Looking for keys by offsets

The search for keys, written as a loop over the offsets of bytes. It comes to all bytes of a text,
those inside of characters too, and takes slices of it on the way.
* `turn?` — one turn of the loop
* `turn?_eq` — at a character it is one look of a cursor
* `turn?_inside` — inside of a character it goes on to the next byte
* `nextKey?_eq` — the loop ends where a cursor does
* `scan_in_bounds` — every text and every value
-/

namespace StreamConfig

namespace Offset

open Text

/-! ## One turn -/

/-- Bytes between two offsets. -/
def byteSlice? (bytes : List Char) (start stop : Nat) : Option (List Char) :=
  if start ≤ stop ∧ stop ≤ bytes.length then some ((bytes.drop start).take (stop - start)) else none

/-- The key's offsets if it is the quoted text of `n` bytes behind the quote at `i`, or else the
offset behind the closing quote. -/
def quotedTurn? (src key : List Char) (i n : Nat) : Option (Turn (Option (Nat × Nat))) := do
  let bytes := byteChars src
  let close := i + 1 + n
  let body ← byteSlice? bytes (i + 1) close
  if body == byteChars key && isBeforeColon (bytes.drop (close + 1)) then
    return .done (some (i + 1, close))
  else return .go (close + 1)

/-- One turn of the search for a key. It ends the search with the offsets at which the key starts
and stops, or leads to the next offset; `none` is a failure. -/
def turn? (src key : List Char) (i : Nat) : Option (Turn (Option (Nat × Nat))) :=
  let bytes := byteChars src
  let before := (bytes.take i).reverse
  match bytes.drop i with
  | [] => none
  | b :: behind =>
    -- a comment
    if b == '#' && isCommentStart before then do
      return .go (← lineEnd? src i)
    -- a quoted text, if the quote is closed
    else if (b == '"' || b == '\'') && isTokenStart before then
      match quotedLength? b behind with
      | none => return .go (i + 1)
      | some n => quotedTurn? src key i n
    -- a block scalar, if it has an owner
    else if (b == '|' || b == '>') && isTokenStart before then do
      match ← blockEnd? src i with
      | none => return .go (i + 1)
      | some stop => return .go stop
    else
      let stop := i + utf8Length key
      if isTokenStart before && (byteChars key).isPrefixOf (b :: behind) &&
          isBeforeColon (bytes.drop stop) then
        return .done (some (i, stop))
      else return .go (i + 1)

theorem byteSlice?_eq (cs part rest : List Char) {start stop : Nat}
    (hstart : start = utf8Length cs) (hstop : stop = start + utf8Length part) :
    byteSlice? (byteChars (cs ++ (part ++ rest))) start stop = some (byteChars part) := by
  have hbounds : start ≤ stop ∧ stop ≤ (byteChars (cs ++ (part ++ rest))).length := by
    rw [length_byteChars, utf8Length_append, utf8Length_append]
    omega
  rw [byteSlice?, if_pos hbounds, hstop, Nat.add_sub_cancel_left, hstart, drop_byteChars_left,
    take_byteChars_left]

theorem turn?_inside (key cs rest : List Char) {c : Char} {k : Nat} (hpos : 0 < k)
    (hk : k < c.utf8Size) :
    turn? (cs ++ c :: rest) key (utf8Length cs + k) = some (.go (utf8Length cs + k + 1)) := by
  have hsize := length_unitChars c
  have hwide : ∀ w ∈ unitChars c, isAscii w = false := by
    rcases unitChars_cases c with hunits | ⟨-, u, us, hunits, hwide⟩
    · rw [hunits, List.length_singleton] at hsize
      omega
    · rwa [hunits]
  have hdrop : (byteChars (c :: rest)).drop k = (unitChars c).drop k ++ byteChars rest := by
    rw [byteChars_cons, List.drop_append_of_le_length (by omega)]
  have htake : (byteChars (c :: rest)).take k = (unitChars c).take k := by
    rw [byteChars_cons, List.take_append_of_le_length (by omega)]
  -- neither the byte at the offset nor the one before it is a character
  have hlast : 0 < ((unitChars c).take k).reverse.length := by
    rw [List.length_reverse, List.length_take]
    omega
  have hfirst : 0 < ((unitChars c).drop k).length := by
    rw [List.length_drop]
    omega
  obtain ⟨w, ws, hbefore⟩ := List.exists_cons_of_length_pos hlast
  obtain ⟨b, bs, hbehind⟩ := List.exists_cons_of_length_pos hfirst
  have hw := hwide w (List.mem_of_mem_take (List.mem_reverse.1 (hbefore ▸ List.mem_cons_self)))
  have hb := hwide b (List.mem_of_mem_drop (hbehind ▸ List.mem_cons_self))
  rw [turn?, drop_byteChars, take_byteChars, hdrop, htake, List.reverse_append, hbefore, hbehind]
  simp (disch := decide) [beq_eq_false hb, not_isTokenStart hw]

/-- The turn that belongs to a look at the character behind a text. -/
def turnOf (cs key : List Char) (c : Char) (rest : List Char) :
    Sighting → Turn (Option (Nat × Nat))
  | .key behind =>
    let start := utf8Length (cs ++ (c :: rest).take behind)
    .done (some (start, start + utf8Length key))
  | .pass more => .go (utf8Length cs + 1 + utf8Length (rest.take more))

theorem exists_body {quote : Char} {rest : List Char} {n : Nat}
    (h : quotedLength? quote rest = some n) :
    ∃ body behind, rest = body ++ quote :: behind ∧ n = body.length := by
  obtain ⟨hn, hclose⟩ := List.getElem?_eq_some_iff.1 (getElem?_of_quotedLength? h)
  refine ⟨rest.take n, rest.drop (n + 1), ?_, (List.length_take_of_le (Nat.le_of_lt hn)).symm⟩
  rw [← hclose, ← List.drop_eq_getElem_cons hn, List.take_append_drop]

theorem quotedTurn?_eq (cs key body rest : List Char) {quote : Char}
    (hquote : isAscii quote = true) :
    quotedTurn? (cs ++ quote :: (body ++ quote :: rest)) key (utf8Length cs) (utf8Length body) =
      some (turnOf cs key quote (body ++ quote :: rest)
        (if body == key && isBeforeColon rest then .key 1 else .pass (body.length + 1))) := by
  have hsize := utf8Size_of_isAscii hquote
  have hstart : utf8Length cs + 1 = utf8Length (cs ++ [quote]) := by simp [hsize]
  have hbody := byteSlice?_eq (cs ++ [quote]) body (quote :: rest) hstart rfl
  have hbehind := drop_byteChars_left (cs ++ quote :: (body ++ [quote])) rest
  have hclose : utf8Length (cs ++ quote :: (body ++ [quote])) =
      utf8Length cs + 1 + utf8Length body + 1 := by
    simp [hsize]
    omega
  have hsame : (byteChars body == byteChars key) = (body == key) := by
    rw [Bool.eq_iff_iff, beq_iff_eq, beq_iff_eq, byteChars_inj]
  rw [← List.append_cons] at hbody
  rw [hclose, List.append_assoc, List.cons_append, List.append_assoc,
    List.singleton_append] at hbehind
  rw [quotedTurn?, hbody, Option.bind_eq_bind, Option.bind_some, hbehind, isBeforeColon_byteChars,
    hsame]
  split
  next hfound =>
    obtain rfl := beq_iff_eq.1 (Bool.and_eq_true_iff.1 hfound).1
    simp [turnOf, hsize]
  next => simp [turnOf, List.take_length_add_append, hsize, Nat.add_assoc]

/-- At a character the turn is one look. -/
theorem turn?_eq (key cs rest : List Char) (c : Char) :
    turn? (cs ++ c :: rest) key (utf8Length cs) =
      some (turnOf cs key c rest (lookAt key (cs.reverse.takeWhile (· != '\n')) c rest)) := by
  have hdrop := drop_byteChars_left cs (c :: rest)
  have hkey := drop_byteChars cs (c :: rest) (utf8Length key)
  obtain ⟨htoken, hcomment⟩ := starts_byteChars cs
  obtain ⟨b, behind, hbytes, hfirst, hascii⟩ := firstByte c rest
  rw [hbytes] at hdrop
  rw [turn?, hdrop, take_byteChars_left]
  dsimp only
  simp (disch := decide) only [htoken, hcomment, hfirst]
  unfold lookAt
  split
  next hmark =>
    -- a comment ends with its line
    obtain ⟨rfl, -⟩ : c = '#' ∧ _ := by simpa using hmark
    have hline : rest.take (lineLength rest) = rest.takeWhile (· != '\n') :=
      (List.prefix_iff_eq_take.1 (List.takeWhile_prefix _)).symm
    rw [lineEnd?_eq _ _ rfl, turnOf, hline, Nat.add_assoc]
    rfl
  next =>
    split
    next hmark =>
      -- quotes are looked for among the bytes behind
      have hc : c = '"' ∨ c = '\'' := by simpa using (Bool.and_eq_true_iff.1 hmark).1
      have hquote : isAscii c = true := by rcases hc with rfl | rfl <;> rfl
      obtain ⟨rfl, rfl⟩ := hascii hquote
      rw [quotedLength?_byteChars hc]
      cases hlength : quotedLength? b rest with
      | none => rfl
      | some n =>
        obtain ⟨body, behind, rfl, rfl⟩ := exists_body hlength
        have hbehind : (body ++ b :: behind).drop (body.length + 1) = behind := by
          rw [List.drop_length_add_append]
          rfl
        dsimp only [Option.map_some]
        rw [List.take_left, hbehind]
        exact quotedTurn?_eq cs key body behind hquote
    next =>
      split
      next hmark =>
        -- the end of a block scalar is found by slices
        have hc : c = '|' ∨ c = '>' := by simpa using (Bool.and_eq_true_iff.1 hmark).1
        have hbar : isAscii c = true ∧ c ≠ '\n' := by
          rcases hc with rfl | rfl <;> exact ⟨rfl, by decide⟩
        rw [blockEnd?_eq cs rest hbar.1 hbar.2]
        cases blockLength? (cs.reverse.takeWhile (· != '\n')) rest <;> rfl
      next =>
        -- a key may start with any character, so its bytes are compared
        have hplain := isKey_byteChars key (c :: rest)
        rw [hbytes] at hplain
        rw [hkey, hbytes, Bool.and_assoc, hplain, ← Bool.and_assoc]
        split
        next => simp [turnOf]
        next => rfl

/-! ## The whole search -/

/-- The offsets at which the next key starts and stops. -/
def nextKey? (src key : List Char) (i : Nat) : Option (Option (Nat × Nat)) :=
  takeTurns? (turn? src key) (utf8Length src) (fun _ => none) i

/-- The offset of a place in a text. -/
def offsetOf (src : List Char) (c : Cursor) : Nat := utf8Length src - utf8Length c.rest

@[simp] theorem offsetOf_between (cs rest : List Char) :
    offsetOf (cs ++ rest) (Cursor.between cs rest) = utf8Length cs := by
  simp [offsetOf, Cursor.between]

theorem lt_utf8Length (cs : List Char) (c : Char) (rest : List Char) :
    utf8Length cs < utf8Length (cs ++ c :: rest) := by
  have hpos := c.utf8Size_pos
  rw [utf8Length_append, utf8Length_cons]
  omega

theorem nextKey?_inside (key cs rest : List Char) {c : Char} {k : Nat} (hpos : 0 < k)
    (hk : k ≤ c.utf8Size) :
    nextKey? (cs ++ c :: rest) key (utf8Length cs + k) =
      nextKey? (cs ++ c :: rest) key (utf8Length cs + c.utf8Size) := by
  obtain ⟨left, hleft⟩ := Nat.exists_eq_add_of_le hk
  induction left generalizing k with
  | zero => rw [hleft, Nat.add_zero]
  | succ left ih =>
    have hturn := turn?_inside key cs rest hpos (by omega : k < c.utf8Size)
    have hinside : utf8Length cs + k < utf8Length (cs ++ c :: rest) := by
      rw [utf8Length_append, utf8Length_cons]
      omega
    rw [nextKey?, takeTurns?_go _ hinside hturn (Nat.lt_succ_self _)]
    exact @ih (k + 1) (Nat.succ_pos k) (by omega) (by omega)

theorem pass_eq_zero {key before rest : List Char} {c : Char} {more : Nat} (hc : isAscii c = false)
    (h : lookAt key before c rest = .pass more) : more = 0 := by
  simp (disch := decide) only [lookAt, beq_eq_false hc, Bool.false_and, Bool.or_self,
    Bool.false_eq_true, if_false] at h
  split at h
  next => cases h
  next =>
    cases h
    rfl

/-- What one look passes over, turns pass over too. -/
theorem nextKey?_pass {key cs rest : List Char} {c : Char} {more : Nat}
    (h : lookAt key (cs.reverse.takeWhile (· != '\n')) c rest = .pass more) :
    nextKey? (cs ++ c :: rest) key (utf8Length cs) =
      nextKey? (cs ++ c :: rest) key (utf8Length (cs ++ c :: rest.take more)) := by
  have hturn := turn?_eq key cs rest c
  rw [h] at hturn
  rw [nextKey?, takeTurns?_go _ (lt_utf8Length cs c rest) hturn (by omega), ← nextKey?]
  cases hc : isAscii c with
  | true =>
    have hoffset : utf8Length cs + 1 + utf8Length (rest.take more) =
        utf8Length (cs ++ c :: rest.take more) := by
      simp [utf8Size_of_isAscii hc, Nat.add_assoc]
    rw [hoffset]
  | false =>
    obtain rfl := pass_eq_zero hc h
    simpa using nextKey?_inside key cs rest Nat.one_pos c.utf8Size_pos

theorem nextKey?_eq (key cs rest : List Char) :
    nextKey? (cs ++ rest) key (utf8Length cs) =
      some (((Cursor.between cs rest).seek key 0).map fun c =>
        (offsetOf (cs ++ rest) c, offsetOf (cs ++ rest) c + utf8Length key)) := by
  -- on what is left of the text: a look may pass over many characters
  induction hlength : rest.length using Nat.strong_induction_on generalizing cs rest with
  | _ length ih =>
    cases rest with
    | nil =>
      rw [Cursor.seek_nil, List.append_nil]
      exact takeTurns?_end _ (Nat.le_refl _)
    | cons c rest =>
      rw [Cursor.seek_zero]
      cases hlook : lookAt key (cs.reverse.takeWhile (· != '\n')) c rest with
      | key behind =>
        have hturn := turn?_eq key cs rest c
        rw [hlook] at hturn
        have hfound := offsetOf_between (cs ++ (c :: rest).take behind) ((c :: rest).drop behind)
        rw [List.append_assoc, List.take_append_drop] at hfound
        rw [nextKey?, takeTurns?_done _ (lt_utf8Length cs c rest) hturn, Option.map_some,
          Cursor.advance_between, hfound]
      | pass more =>
        have hsplit : cs ++ c :: rest.take more ++ rest.drop more = cs ++ c :: rest := by
          rw [List.append_assoc, List.cons_append, List.take_append_drop]
        have hrest := ih (rest.drop more).length (by simp at hlength ⊢; omega)
          (cs ++ c :: rest.take more) (rest.drop more) rfl
        have hseek := Cursor.seek_drop key (cs ++ [c]) rest more
        rw [hsplit] at hrest
        rw [← List.append_cons] at hseek
        rw [nextKey?_pass hlook, hrest, ← hseek]

/-! ## Bounds of a turn -/

/-- The turn leads to a greater offset, or to the offsets of a key of which the first has a
position; all of them are in the text. -/
def MovesOn (src : List Char) (i : Nat) : Turn (Option (Nat × Nat)) → Prop
  | .go next => i < next ∧ next ≤ utf8Length src
  | .done (some (start, stop)) =>
    i ≤ start ∧ start ≤ stop ∧ stop ≤ utf8Length src ∧ ∃ p, positionOf? src start = some p
  | .done none => False

theorem exists_char {src : List Char} {i : Nat} (h : i < utf8Length src) :
    ∃ cs c rest k, src = cs ++ c :: rest ∧ i = utf8Length cs + k ∧ k < c.utf8Size := by
  induction src generalizing i with
  | nil => cases h
  | cons c src ih =>
    by_cases hi : i < c.utf8Size
    · exact ⟨[], c, src, i, rfl, by simp, hi⟩
    · obtain ⟨cs, d, rest, k, rfl, hk, hlt⟩ := @ih (i - c.utf8Size) (by simp at h; omega)
      exact ⟨c :: cs, d, rest, k, rfl, by simp; omega, hlt⟩

theorem movesOn_turnOf {key cs rest : List Char} {c : Char} {sighting : Sighting}
    (h : lookAt key (cs.reverse.takeWhile (· != '\n')) c rest = sighting) :
    MovesOn (cs ++ c :: rest) (utf8Length cs) (turnOf cs key c rest sighting) := by
  cases sighting with
  | key behind =>
    obtain ⟨quote, left, hahead, -⟩ := isKeyAhead_of_lookAt h
    have hsplit : cs ++ c :: rest = cs ++ (c :: rest).take behind ++ (key ++ (quote ++ left)) := by
      rw [← hahead, List.append_assoc, List.take_append_drop]
    have hlength := congrArg utf8Length hsplit
    have hposition := positionOf?_eq (cs ++ (c :: rest).take behind) (key ++ (quote ++ left))
    simp only [utf8Length_append] at hlength
    rw [← hsplit] at hposition
    refine ⟨?_, Nat.le_add_right _ _, ?_, _, hposition⟩ <;> simp only [utf8Length_append] <;> omega
  | pass more =>
    have hrest : utf8Length rest = utf8Length (rest.take more) + utf8Length (rest.drop more) := by
      rw [← utf8Length_append, List.take_append_drop]
    have hpos := c.utf8Size_pos
    refine ⟨by omega, ?_⟩
    rw [utf8Length_append, utf8Length_cons]
    omega

/-- No turn fails, wherever it is taken. -/
theorem exists_turn (key : List Char) {src : List Char} {i : Nat} (h : i < utf8Length src) :
    ∃ turn, turn? src key i = some turn ∧ MovesOn src i turn := by
  obtain ⟨cs, c, rest, k, rfl, rfl, hk⟩ := exists_char h
  cases k with
  | zero => exact ⟨_, turn?_eq key cs rest c, movesOn_turnOf rfl⟩
  | succ k =>
    exact ⟨_, turn?_inside key cs rest (Nat.succ_pos k) hk, Nat.lt_succ_self _, Nat.succ_le_of_lt h⟩

/-! ## Following keys -/

/-- How far the look-up of keys has come: the offset behind the last key found, and the position of
that key. -/
structure Scanner where
  cursor : Nat
  last : Position
deriving DecidableEq, Repr

namespace Scanner

def start : Scanner := ⟨0, Position.origin⟩

/-- Looks up one more key. -/
def follow? (src : List Char) (s : Scanner) (key : String) : Option Scanner := do
  match ← nextKey? src key.toList s.cursor with
  | some (start, stop) => return ⟨stop, ← positionOf? src start⟩
  | none => return s

/-- Looks up keys one after the other, and tells how far each has led. -/
def run? (src : List Char) : Scanner → List String → Option (List Scanner)
  | _, [] => some []
  | s, key :: keys => do
    let next ← s.follow? src key
    return next :: (← run? src next keys)

/-- A trail that keeps offsets. -/
def ofTrail (source : String) (t : Trail) : Scanner := ⟨offsetOf source.toList t.cursor, t.last⟩

theorem ofTrail_start (source : String) : ofTrail source (Trail.start source) = start := by
  simp [ofTrail, Trail.start, Cursor.start, offsetOf, start]

theorem ofTrail_between {source : String} {cs rest : List Char} (h : source.toList = cs ++ rest)
    (last : Position) : ofTrail source ⟨Cursor.between cs rest, last⟩ = ⟨utf8Length cs, last⟩ := by
  rw [ofTrail, h, offsetOf_between]

/-- One more key: the same as for a trail, and not back. -/
theorem follow?_eq {source : String} {t : Trail} (h : t.IsOn source) (key : String) :
    (ofTrail source t).follow? source.toList key = some (ofTrail source (t.follow key)) ∧
      (ofTrail source t).cursor ≤ (ofTrail source (t.follow key)).cursor := by
  obtain ⟨cs, ds, rest, hsource, hds, rfl⟩ := h
  have hnext := nextKey?_eq key.toList cs rest
  rw [← hsource, ← Cursor.find_eq_seek] at hnext
  rw [ofTrail_between hsource]
  unfold follow? Trail.follow
  dsimp only
  rw [hnext]
  cases hfind : (Cursor.between cs rest).find key with
  | none =>
    dsimp only
    rw [ofTrail_between hsource]
    exact ⟨rfl, Nat.le_refl _⟩
  | some c =>
    obtain ⟨passed, left, rfl, rfl, quote, behind, rfl, -, -⟩ := Cursor.exists_ahead_of_seek hfind
    have hstart : source.toList = cs ++ passed ++ (key.toList ++ (quote ++ behind)) := by
      rw [hsource, List.append_assoc]
    have hstop : source.toList = cs ++ passed ++ key.toList ++ (quote ++ behind) := by
      simp only [hsource, List.append_assoc]
    have hoffset : offsetOf source.toList (Cursor.between (cs ++ passed)
        (key.toList ++ (quote ++ behind))) = utf8Length (cs ++ passed) := by
      rw [hstart, offsetOf_between]
    have hposition := positionOf?_eq (cs ++ passed) (key.toList ++ (quote ++ behind))
    rw [← hstart] at hposition
    dsimp only [Option.map_some, Option.bind_eq_bind, Option.bind_some]
    rw [hoffset, hposition, Cursor.advance_between, List.take_left, List.drop_left,
      ofTrail_between hstop]
    simp [Cursor.position_between, Nat.add_assoc]

/-- How far a trail has come with each of some keys. -/
def trails (t : Trail) : List (Pointer × String) → List Trail
  | [] => []
  | k :: ks => t.follow k.2 :: trails (t.follow k.2) ks

theorem records_eq_zip (t : Trail) (ks : List (Pointer × String)) :
    t.records ks = (ks.map (·.1)).zip ((trails t ks).map (·.last)) := by
  induction ks generalizing t with
  | nil => rfl
  | cons k ks ih => simp [Trail.records, trails, ih]

theorem run?_eq {source : String} {t : Trail} (h : t.IsOn source) (ks : List (Pointer × String)) :
    (ofTrail source t).run? source.toList (ks.map (·.2)) =
        some ((trails t ks).map (ofTrail source)) ∧
      ((t :: trails t ks).map (ofTrail source)).Pairwise (·.cursor ≤ ·.cursor) := by
  induction ks generalizing t with
  | nil => exact ⟨rfl, List.pairwise_singleton _ _⟩
  | cons k ks ih =>
    obtain ⟨hfollow, hstep⟩ := follow?_eq h k.2
    obtain ⟨hrun, hcursors⟩ := ih (Trail.follow_isOn h k.2).1
    refine ⟨?_, ?_⟩
    · rw [List.map_cons, run?, hfollow, Option.bind_eq_bind, Option.bind_some, hrun]
      rfl
    · -- what is not behind the first state is not behind the one before it
      rw [trails, List.map_cons]
      refine List.pairwise_cons.2 ⟨fun s hs => ?_, hcursors⟩
      rcases List.mem_cons.1 hs with rfl | hs
      · exact hstep
      · exact hstep.trans (List.rel_of_pairwise_cons hcursors hs)

end Scanner

end Offset

/-- No turn of a search fails, at whichever offset it is taken: it leads to a greater one, or to a
key. And looking up the keys of a value one after the other does not fail either: the offset that is
reached does not go back or leave the text, and the positions are the ones of the scan. -/
theorem scan_in_bounds (source : String) (v : Value) :
    let src := source.toList
    let keys := v.keyPlaces ""
    (∀ key i, i < Text.utf8Length src →
        ∃ turn, Offset.turn? src key i = some turn ∧ Offset.MovesOn src i turn) ∧
      ∃ states, Offset.Scanner.start.run? src (keys.map (·.2)) = some states ∧
        (Offset.Scanner.start :: states).Pairwise (·.cursor ≤ ·.cursor) ∧
        (∀ s ∈ states, s.cursor ≤ Text.utf8Length src) ∧
        ((keys.map (·.1)).zip (states.map (·.last))).Sublist (Positions.scan source v) := by
  intro src keys
  refine ⟨fun key i hi => Offset.exists_turn key hi, ?_⟩
  have hstart := Trail.isOn_start source
  obtain ⟨hrun, hcursors⟩ := Offset.Scanner.run?_eq hstart keys
  rw [List.map_cons, Offset.Scanner.ofTrail_start] at hcursors
  rw [Offset.Scanner.ofTrail_start] at hrun
  refine ⟨_, hrun, hcursors, ?_, ?_⟩
  · intro s hs
    obtain ⟨t, -, rfl⟩ := List.mem_map.1 hs
    exact Nat.sub_le _ _
  · rw [List.map_map]
    have hrecords := (Trail.sublist_records "" v (Trail.start source)).1
    rwa [Offset.Scanner.records_eq_zip] at hrecords

/-- A bar behind a dash and a character of two bytes: the dash is indented by two, so the line below
belongs to the scalar. The text ends with a backslash behind a quote that nothing closes, where the
empty key is looked for. -/
theorem scan_in_bounds_multibyte :
    let source := "é- |\n   ü: 1\nü: '\\"
    let src := source.toList
    let v : Value := .object [("ü", .object [("", .null)])]
    4 < Text.utf8Length src ∧ Offset.turn? src ['ü'] 4 = some (.go 14) ∧
      Offset.MovesOn src 4 (.go 14) ∧
      Offset.Scanner.start.run? src ["ü", ""] = some [⟨17, ⟨3, 1⟩⟩, ⟨17, ⟨3, 1⟩⟩] ∧
      [("/ü", ⟨3, 1⟩), ("/ü/", ⟨3, 1⟩)].Sublist (Positions.scan source v) := by
  intro source src v
  have hin : 4 < Text.utf8Length src := by decide
  have hturn : Offset.turn? src ['ü'] 4 = some (.go 14) := by decide +kernel
  have hrun : Offset.Scanner.start.run? src ["ü", ""] = some [⟨17, ⟨3, 1⟩⟩, ⟨17, ⟨3, 1⟩⟩] := by
    decide +kernel
  obtain ⟨hturns, states, hstates, -, -, hscan⟩ := scan_in_bounds source v
  obtain ⟨turn, hsame, hmoves⟩ := hturns ['ü'] 4 hin
  obtain rfl := Option.some.inj (hturn.symm.trans hsame)
  obtain rfl := Option.some.inj (hrun.symm.trans hstates)
  exact ⟨hin, hturn, hmoves, hrun, hscan⟩

end StreamConfig
