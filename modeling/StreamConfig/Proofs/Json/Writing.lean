import Mathlib.Data.List.Forall2
import Mathlib.Data.List.TakeWhile
import StreamConfig.Proofs.Json.Literals
import StreamConfig.Proofs.Json.Reading

/-! # What is written reads back

Reader and writer know nothing of each other. Still a value that is written is read as itself, the
order of keys included, as long as the reader has room for it, no key of it is repeated and its
numbers are integers of 64 bits. Doubles are left out.
* `ReadsAs`, `ReadsAsEntry` — texts from which a value or an entry is read, whatever stands behind
* `itemsRest_separated`, `entriesRest_separated` — such texts with commas and blanks between them
* `IsPortable` — what reads back; `IsPortable.readsAs` in every layout, by induction on it
* `read_written`, `read_pretty` — whole texts
-/

namespace StreamConfig.Json

/-! ## Pieces -/

theorem skipSpace_of_first {c : Char} (hc : isSpace c = false) (cs : List Char) :
    skipSpace (c :: cs) = c :: cs := by
  rw [skipSpace, List.dropWhile_cons, hc]
  rfl

theorem skipSpace_spaces {gap : List Char} (hgap : gap.all isSpace = true) {c : Char}
    (hc : isSpace c = false) (cs : List Char) : skipSpace (gap ++ c :: cs) = c :: cs := by
  rw [skipSpace, List.dropWhile_append_of_pos (List.all_eq_true.1 hgap)]
  exact skipSpace_of_first hc cs

/-- From this text the value is read, whatever stands behind it that is not the rest of a word. -/
structure ReadsAs (room : Nat) (text : List Char) (v : Value) : Prop where
  /-- where an item may stand, this is one and not the end of them -/
  starts : ∃ c cs, text = c :: cs ∧ isSpace c = false ∧ c ≠ ']'
  reads : ∀ {rest}, EndsWord rest → value room (text ++ rest) = some (v, rest)

theorem ReadsAs.read_spaces {room : Nat} {text : List Char} {v : Value} (h : ReadsAs room text v)
    {gap rest : List Char} (hgap : gap.all isSpace = true) (hrest : EndsWord rest) :
    value room (skipSpace (gap ++ (text ++ rest))) = some (v, rest) := by
  obtain ⟨c, cs, rfl, hc, -⟩ := h.starts
  rw [List.cons_append, skipSpace_spaces hgap hc, ← List.cons_append]
  exact h.reads hrest

/-- From this text the entry is read, the blanks between colon and value being of any number. -/
def ReadsAsEntry (room : Nat) (text : List Char) (e : String × Value) : Prop :=
  ∃ gap written, gap.all isSpace = true ∧ ReadsAs room written e.2 ∧
    text = '"' :: (e.1.toList.flatMap escaped ++ '"' :: ':' :: (gap ++ written))

/-- Pieces with a comma and blanks between them. -/
def separated (lead : List Char) (pieces : List (List Char)) : List Char :=
  List.intercalate (',' :: lead) pieces

theorem separated_cons_cons (lead piece next : List Char) (pieces : List (List Char)) :
    separated lead (piece :: next :: pieces) =
      piece ++ (',' :: (lead ++ separated lead (next :: pieces))) := by
  rw [separated, List.intercalate_cons_cons, List.append_assoc]
  rfl

theorem exists_separated_cons (lead : List Char) (c : Char) (cs : List Char)
    (pieces : List (List Char)) : ∃ more, separated lead ((c :: cs) :: pieces) = c :: more := by
  cases pieces with
  | nil => exact ⟨cs, by rw [separated, List.intercalate_singleton]⟩
  | cons next pieces => exact ⟨_, separated_cons_cons lead (c :: cs) next pieces⟩

/-- There is a character for every piece but the first. -/
theorem length_le_separated (lead : List Char) (pieces : List (List Char)) :
    pieces.length ≤ (separated lead pieces).length + 1 := by
  induction pieces with
  | nil => exact Nat.zero_le _
  | cons piece pieces ih =>
    cases pieces with
    | nil => exact Nat.le_add_left _ _
    | cons next pieces =>
      rw [separated_cons_cons]
      simp only [List.length_cons, List.length_append] at ih ⊢
      omega

theorem length_le_rounds (lead : List Char) (pieces : List (List Char)) (behind : List Char) :
    pieces.length ≤ (separated lead pieces ++ behind).length + 1 := by
  have := length_le_separated lead pieces
  rw [List.length_append]
  omega

section Pieces

variable {room : Nat} {gap lead tail : List Char} (hgap : gap.all isSpace = true)
  (hlead : lead.all isSpace = true) (htail : tail.all isSpace = true)

include hgap

theorem itemsRest_more {piece cs rest : List Char} {v : Value} {vs : List Value} {rounds : Nat}
    (h : ReadsAs room piece v) (hmore : itemsRest (value room) rounds cs = some (vs, rest)) :
    itemsRest (value room) (rounds + 1) (gap ++ (piece ++ ',' :: cs)) = some (v :: vs, rest) := by
  rw [itemsRest, h.read_spaces hgap (endsWord_cons (by decide) _)]
  simp only [Option.bind_eq_bind, Option.bind_some]
  rw [skipSpace_of_first (by decide)]
  simp only [hmore, Option.bind_some]
  rfl

/-- One entry has been read; what comes behind it decides how the reader goes on. -/
theorem entriesRest_piece {piece behind : List Char} {e : String × Value}
    (h : ReadsAsEntry room piece e) (hbehind : EndsWord behind) (rounds : Nat) :
    entriesRest (value room) (rounds + 1) (gap ++ (piece ++ behind)) =
      match skipSpace behind with
      | ',' :: cs => (entriesRest (value room) rounds cs).bind fun r => some (e :: r.1, r.2)
      | '\x7d' :: rest => some ([e], rest)
      | _ => none := by
  obtain ⟨between, written, hbetween, hwritten, rfl⟩ := h
  rw [List.cons_append, entriesRest, skipSpace_spaces hgap (by decide)]
  simp only [List.append_assoc, List.cons_append, stringRest_escaped, Option.bind_eq_bind,
    Option.bind_some]
  rw [skipSpace_of_first (by decide)]
  simp only [hwritten.read_spaces hbetween hbehind, Option.bind_some, List.reverse_nil,
    List.nil_append, String.ofList_toList]
  rfl

theorem entriesRest_more {piece cs rest : List Char} {e : String × Value} {es : Entries}
    {rounds : Nat} (h : ReadsAsEntry room piece e)
    (hmore : entriesRest (value room) rounds cs = some (es, rest)) :
    entriesRest (value room) (rounds + 1) (gap ++ (piece ++ ',' :: cs)) = some (e :: es, rest) := by
  rw [entriesRest_piece hgap h (endsWord_cons (by decide) cs), skipSpace_of_first (by decide)]
  simp only [hmore, Option.bind_some]

include htail

theorem itemsRest_last {piece : List Char} {v : Value} (h : ReadsAs room piece v) (rounds : Nat)
    (rest : List Char) :
    itemsRest (value room) (rounds + 1) (gap ++ (piece ++ (tail ++ ']' :: rest))) =
      some ([v], rest) := by
  rw [itemsRest, h.read_spaces hgap (endsWord_spaces htail (by decide) _)]
  simp only [Option.bind_eq_bind, Option.bind_some]
  rw [skipSpace_spaces htail (by decide)]
  rfl

theorem entriesRest_last {piece : List Char} {e : String × Value} (h : ReadsAsEntry room piece e)
    (rounds : Nat) (rest : List Char) :
    entriesRest (value room) (rounds + 1) (gap ++ (piece ++ (tail ++ '\x7d' :: rest))) =
      some ([e], rest) := by
  rw [entriesRest_piece hgap h (endsWord_spaces htail (by decide) rest),
    skipSpace_spaces htail (by decide)]
  rfl

include hlead

theorem itemsRest_separated {pieces : List (List Char)} {vs : List Value}
    (h : List.Forall₂ (ReadsAs room) pieces vs) (hne : pieces ≠ []) {rounds : Nat}
    (hrounds : pieces.length ≤ rounds) (rest : List Char) :
    itemsRest (value room) rounds (gap ++ (separated lead pieces ++ (tail ++ ']' :: rest))) =
      some (vs, rest) := by
  induction h generalizing gap rounds with
  | nil => exact absurd rfl hne
  | @cons piece v pieces vs hpiece hpieces ih =>
    obtain ⟨rounds, rfl⟩ := Nat.exists_eq_add_of_lt hrounds
    cases hpieces with
    | nil =>
      rw [separated, List.intercalate_singleton]
      exact itemsRest_last hgap htail hpiece _ rest
    | cons hnext hpieces =>
      rw [separated_cons_cons, List.append_assoc, List.cons_append, List.append_assoc]
      exact itemsRest_more hgap hpiece
        (ih hlead (List.cons_ne_nil _ _) (Nat.le_of_succ_le_succ hrounds))

theorem entriesRest_separated {pieces : List (List Char)} {es : Entries}
    (h : List.Forall₂ (ReadsAsEntry room) pieces es) (hne : pieces ≠ []) {rounds : Nat}
    (hrounds : pieces.length ≤ rounds) (rest : List Char) :
    entriesRest (value room) rounds
      (gap ++ (separated lead pieces ++ (tail ++ '\x7d' :: rest))) = some (es, rest) := by
  induction h generalizing gap rounds with
  | nil => exact absurd rfl hne
  | @cons piece e pieces es hpiece hpieces ih =>
    obtain ⟨rounds, rfl⟩ := Nat.exists_eq_add_of_lt hrounds
    cases hpieces with
    | nil =>
      rw [separated, List.intercalate_singleton]
      exact entriesRest_last hgap htail hpiece _ rest
    | cons hnext hpieces =>
      rw [separated_cons_cons, List.append_assoc, List.cons_append, List.append_assoc]
      exact entriesRest_more hgap hpiece
        (ih hlead (List.cons_ne_nil _ _) (Nat.le_of_succ_le_succ hrounds))

end Pieces

section Brackets

variable {room : Nat} {lead tail : List Char} (hlead : lead.all isSpace = true)
  (htail : tail.all isSpace = true)

include hlead htail

/-- Blanks and the first piece stand behind the bracket; the piece does not close it. -/
theorem value_array {piece : List Char} {pieces : List (List Char)} {vs : List Value}
    (h : List.Forall₂ (ReadsAs room) (piece :: pieces) vs) (rest : List Char) :
    value (room + 1)
      ('[' :: (lead ++ (separated lead (piece :: pieces) ++ (tail ++ ']' :: rest)))) =
        some (.array vs, rest) := by
  have hread := itemsRest_separated (rfl : [].all isSpace = true) hlead htail h
    (List.cons_ne_nil _ _) (length_le_rounds lead (piece :: pieces) (tail ++ ']' :: rest)) rest
  obtain ⟨v, _, hpiece, -, -⟩ := List.forall₂_cons_left_iff.1 h
  obtain ⟨c, cs, rfl, hc, hclose⟩ := hpiece.starts
  obtain ⟨more, hmore⟩ := exists_separated_cons lead c cs pieces
  rw [hmore, List.cons_append] at hread ⊢
  rw [value, skipSpace_spaces hlead hc]
  split
  next heq =>
    cases heq
    exact absurd rfl hclose
  next =>
    rw [List.nil_append] at hread
    rw [hread]
    rfl

theorem value_object {piece : List Char} {pieces : List (List Char)} {es : Entries}
    (h : List.Forall₂ (ReadsAsEntry room) (piece :: pieces) es) (rest : List Char) :
    value (room + 1)
      ('\x7b' :: (lead ++ (separated lead (piece :: pieces) ++ (tail ++ '\x7d' :: rest)))) =
        some (.object (Entries.ofList es), rest) := by
  have hread := entriesRest_separated (rfl : [].all isSpace = true) hlead htail h
    (List.cons_ne_nil _ _) (length_le_rounds lead (piece :: pieces) (tail ++ '\x7d' :: rest)) rest
  obtain ⟨e, _, ⟨_, _, _, _, rfl⟩, -, -⟩ := List.forall₂_cons_left_iff.1 h
  obtain ⟨more, hmore⟩ := exists_separated_cons lead '"' _ pieces
  rw [hmore, List.cons_append] at hread ⊢
  rw [value, skipSpace_spaces hlead (by decide)]
  show Option.map _ (entriesRest (value room) _ _) = _
  rw [List.nil_append] at hread
  rw [hread]
  rfl

end Brackets

/-! ## Values -/

/-- What is written reads back as it is, with this much room for arrays and objects. -/
inductive IsPortable : (room : Nat) → Value → Prop
  | null {room} : IsPortable room .null
  | bool {room} (b) : IsPortable room (.bool b)
  | int {room n} (hmin : Number.minSigned ≤ n) (hmax : n ≤ Number.maxUnsigned) :
      IsPortable room (.number (.int n))
  | string {room} (s) : IsPortable room (.string s)
  | array {room items} (h : ∀ v ∈ items, IsPortable room v) : IsPortable (room + 1) (.array items)
  | object {room es} (hkeys : (Entries.keys es).Nodup) (h : ∀ e ∈ es, IsPortable room e.2) :
      IsPortable (room + 1) (.object es)

/-- A layout sets the pieces apart by blanks only. -/
structure Layout.IsBlank (l : Layout) : Prop where
  lead : ∀ depth, (l.lead depth).toList.all isSpace = true
  colon : ∃ gap, l.colon.toList = ':' :: gap ∧ gap.all isSpace = true

theorem readsAs_string (room : Nat) (s : String) : ReadsAs room (literal s).toList (.string s) where
  starts := ⟨'"', _, String.toList_ofList, rfl, by decide⟩
  reads := by
    intro rest _
    rw [literal, String.toList_ofList, List.cons_append, List.append_assoc, value]
    show (stringRest [] (s.toList.flatMap escaped ++ '"' :: rest)).map _ = _
    rw [stringRest_escaped]
    simp

/-- Nothing else starts as a number does. -/
theorem value_of_number {c : Char} (hc : c = '-' ∨ c.isDigit = true) (room : Nat)
    (cs : List Char) :
    value room (c :: cs) = (number (c :: cs)).map fun r => (.number r.1, r.2) := by
  rw [value]
  case x_2 => exact List.cons_ne_nil c cs
  all_goals
    rintro _ ⟨⟩
    exact absurd hc (by decide)

theorem isSpace_eq_false_of_number {c : Char} (hc : c = '-' ∨ c.isDigit = true) :
    isSpace c = false := by
  refine Bool.eq_false_iff.2 fun hspace => ?_
  simp only [isSpace, Bool.or_eq_true, beq_iff_eq] at hspace
  obtain ((rfl | rfl) | rfl) | rfl := hspace <;> exact absurd hc (by decide)

theorem readsAs_int (room : Nat) {n : Int} (hmin : Number.minSigned ≤ n)
    (hmax : n ≤ Number.maxUnsigned) : ReadsAs room (toString n).toList (.number (.int n)) := by
  obtain ⟨c, cs, htext, hc⟩ := exists_toString n
  refine ⟨⟨c, cs, htext, isSpace_eq_false_of_number hc, ?_⟩, fun {rest} hrest => ?_⟩
  · rintro rfl
    exact absurd hc (by decide)
  · rw [htext, List.cons_append, value_of_number hc, ← List.cons_append, ← htext,
      number_toString hmin hmax hrest]
    rfl

theorem expect_append (word rest : List Char) : expect word (word ++ rest) = some rest := by
  have hprefix : word.isPrefixOf (word ++ rest) = true :=
    List.isPrefixOf_iff_prefix.2 (List.prefix_append word rest)
  rw [expect, if_pos hprefix, List.drop_left]

/-- A word is told by its first character. -/
theorem readsAs_word {text : String} {c : Char} {word : List Char} {v : Value}
    (htext : text.toList = c :: word) (hc : isSpace c = false) (hclose : c ≠ ']')
    (hvalue : ∀ room cs, value room (c :: cs) = (expect word cs).map (v, ·)) (room : Nat) :
    ReadsAs room text.toList v where
  starts := ⟨c, word, htext, hc, hclose⟩
  reads := by
    intro rest _
    rw [htext, List.cons_append, hvalue, expect_append]
    rfl

theorem readsAs_null (room : Nat) : ReadsAs room "null".toList .null := by
  have htext : "null".toList = 'n' :: ['u', 'l', 'l'] := rfl
  exact readsAs_word htext rfl (by decide) (fun _ _ => by rw [value]) room

theorem readsAs_bool (room : Nat) (b : Bool) :
    ReadsAs room (if b then "true" else "false").toList (.bool b) := by
  cases b with
  | true =>
    have htext : "true".toList = 't' :: ['r', 'u', 'e'] := rfl
    exact readsAs_word htext rfl (by decide) (fun _ _ => by rw [value]) room
  | false =>
    have htext : "false".toList = 'f' :: ['a', 'l', 's', 'e'] := rfl
    exact readsAs_word htext rfl (by decide) (fun _ _ => by rw [value]) room

/-! ## Arrays and objects -/

theorem toList_bracketed_nil (opening closing lead tail : String) :
    (bracketed opening closing lead tail []).toList = opening.toList ++ closing.toList :=
  String.toList_append

theorem toList_bracketed_cons (opening closing lead tail piece : String) (pieces : List String) :
    (bracketed opening closing lead tail (piece :: pieces)).toList =
      opening.toList ++ (lead.toList ++
        (separated lead.toList (piece.toList :: pieces.map String.toList) ++
          (tail.toList ++ closing.toList))) := by
  rw [bracketed, if_neg (by simp)]
  simp only [String.toList_append, String.toList_intercalate, List.append_assoc]
  rfl

section Bracketed

variable {room : Nat} {lead tail : String} (hlead : lead.toList.all isSpace = true)
  (htail : tail.toList.all isSpace = true)

include hlead htail

theorem readsAs_array {pieces : List String} {vs : List Value}
    (h : List.Forall₂ (ReadsAs room) (pieces.map String.toList) vs) :
    ReadsAs (room + 1) (bracketed "[" "]" lead tail pieces).toList (.array vs) := by
  cases pieces with
  | nil =>
    cases h
    rw [toList_bracketed_nil]
    refine ⟨⟨'[', _, rfl, rfl, by decide⟩, fun {rest} _ => ?_⟩
    show value (room + 1) ('[' :: ']' :: rest) = _
    rw [value, skipSpace_of_first (by decide)]
    rfl
  | cons piece pieces =>
    rw [toList_bracketed_cons]
    refine ⟨⟨'[', _, rfl, rfl, by decide⟩, fun {rest} _ => ?_⟩
    have hread := value_array hlead htail h rest
    simpa using hread

theorem readsAs_object {pieces : List String} {es : Entries}
    (h : List.Forall₂ (ReadsAsEntry room) (pieces.map String.toList) es)
    (hkeys : (Entries.keys es).Nodup) :
    ReadsAs (room + 1) (bracketed "\x7b" "\x7d" lead tail pieces).toList (.object es) := by
  cases pieces with
  | nil =>
    cases h
    rw [toList_bracketed_nil]
    refine ⟨⟨'\x7b', _, rfl, rfl, by decide⟩, fun {rest} _ => ?_⟩
    show value (room + 1) ('\x7b' :: '\x7d' :: rest) = _
    rw [value, skipSpace_of_first (by decide)]
    rfl
  | cons piece pieces =>
    rw [toList_bracketed_cons]
    refine ⟨⟨'\x7b', _, rfl, rfl, by decide⟩, fun {rest} _ => ?_⟩
    have hread := value_object hlead htail h rest
    rw [ofList_of_nodup hkeys] at hread
    simpa using hread

end Bracketed

/-! ## Written values -/

variable {l : Layout}

theorem forall₂_writtenItems {room depth : Nat} {vs : List Value}
    (h : ∀ v ∈ vs, ReadsAs room (written l depth v).toList v) :
    List.Forall₂ (ReadsAs room) ((writtenItems l depth vs).map String.toList) vs := by
  induction vs with
  | nil => exact .nil
  | cons v vs ih =>
    obtain ⟨hv, hvs⟩ := List.forall_mem_cons.1 h
    exact .cons hv (ih hvs)

theorem forall₂_writtenEntries (hl : l.IsBlank) {room depth : Nat} {es : Entries}
    (h : ∀ e ∈ es, ReadsAs room (written l depth e.2).toList e.2) :
    List.Forall₂ (ReadsAsEntry room) ((writtenEntries l depth es).map String.toList) es := by
  induction es with
  | nil => exact .nil
  | cons e es ih =>
    obtain ⟨he, hes⟩ := List.forall_mem_cons.1 h
    obtain ⟨gap, hcolon, hgap⟩ := hl.colon
    refine .cons ⟨gap, _, hgap, he, ?_⟩ (ih hes)
    simp [literal, hcolon]

theorem IsPortable.readsAs (hl : l.IsBlank) {room : Nat} {v : Value} (h : IsPortable room v)
    (depth : Nat) : ReadsAs room (written l depth v).toList v := by
  induction h generalizing depth with
  | null => exact readsAs_null _
  | bool b => exact readsAs_bool _ b
  | int hmin hmax => exact readsAs_int _ hmin hmax
  | string s => exact readsAs_string _ s
  | array h ih =>
    exact readsAs_array (hl.lead _) (hl.lead _) (forall₂_writtenItems fun v hv => ih v hv _)
  | object hkeys h ih =>
    exact readsAs_object (hl.lead _) (hl.lead _)
      (forall₂_writtenEntries hl fun e he => ih e he _) hkeys

/-- A whole text, blanks behind the value included. -/
theorem read_written (hl : l.IsBlank) {v : Value} (h : IsPortable maxNesting v) {after : String}
    (hafter : ∀ c ∈ after.toList, isSpace c = true) : read (written l 0 v ++ after) = some v := by
  obtain ⟨⟨c, cs, hfirst, hc, -⟩, hread⟩ := h.readsAs hl 0
  have hend : EndsWord after.toList := fun c hc =>
    isWordChar_eq_false_of_isSpace (hafter c (List.mem_of_mem_head? hc))
  have hskip : skipSpace (written l 0 v ++ after).toList =
      (written l 0 v).toList ++ after.toList := by
    rw [String.toList_append, hfirst, List.cons_append, skipSpace_of_first hc]
  have hnothing : skipSpace after.toList = [] := List.dropWhile_eq_nil_iff.2 hafter
  rw [read, hskip, hread hend]
  simp only [hnothing, List.isEmpty_nil, if_true]

/-- No blanks at all. -/
theorem read_compact {v : Value} (h : IsPortable maxNesting v) : read (compact v) = some v := by
  have hnothing : ∀ c ∈ "".toList, isSpace c = true := by simp
  have hread := read_written (l := ⟨fun _ => "", ":"⟩) ⟨fun _ => rfl, [], rfl, rfl⟩ h hnothing
  rwa [String.append_empty] at hread

/-- A line for each piece and a line feed at the end. -/
theorem read_pretty {v : Value} (h : IsPortable maxNesting v) :
    read (pretty v ++ "\n") = some v := by
  have hspaces : ∀ depth,
      ("\n" ++ String.ofList (List.replicate (2 * depth) ' ')).toList.all isSpace = true := by
    simp [isSpace]
  exact read_written ⟨hspaces, [' '], rfl, rfl⟩ h (by simp [isSpace])

end StreamConfig.Json
