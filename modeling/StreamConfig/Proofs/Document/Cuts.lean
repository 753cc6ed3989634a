import StreamConfig.Proofs.Document.Passing
import StreamConfig.Proofs.Document.Trails

/-! # Texts cut at their quotes

A search that is outside of quotes stays outside of them as long as it finds keys that hold no quote
and behind which, at their closing quote, no token starts.
* `Cut` — a text as a row of bare characters and quoted pieces, with the pieces that are strings
* `Cursor.IsOutside` — a cursor that searches like one outside of all pieces
* `Cursor.IsOutside.find` — what it finds is apart from the strings, and leaves it outside
* `Trail.isOutside_locate` — so no key of a value is located in a string
-/

namespace StreamConfig

/-- A quoted piece of a text: what stands before it, and what stands between its quotes. -/
structure Quoted where
  before : List Char
  body : List Char

namespace Quoted

/-- Everything up to the end of the piece. -/
def upTo (q : Quoted) : List Char := q.before ++ '"' :: (q.body ++ ['"'])

/-- The position is that of one of the two quotes, or lies between them. -/
def Holds (q : Quoted) (p : Position) : Prop :=
  ∃ part, part <+: '"' :: q.body ∧ p = Position.behind (q.before ++ part)

/-- The place behind the text is in front of the piece or behind it. -/
def IsApart (q : Quoted) (behind : List Char) : Prop :=
  (∃ c more, q.before = behind ++ c :: more) ∨ q.upTo <+: behind

theorem not_holds_of_isApart {q : Quoted} {behind : List Char} (h : q.IsApart behind) :
    ¬ q.Holds (Position.behind behind) := by
  rintro ⟨part, ⟨more, hmore⟩, hpart⟩
  rcases h with ⟨c, between, hbefore⟩ | ⟨after, rfl⟩
  · rw [hbefore, List.append_assoc] at hpart
    exact Position.behind_ne (by simp) hpart.symm
  · -- the part is followed by a quote at least
    have hsplit : q.upTo ++ after = (q.before ++ part) ++ (more ++ '"' :: after) := by
      have hbody : '"' :: (q.body ++ '"' :: after) = part ++ (more ++ '"' :: after) := by
        rw [← List.cons_append, ← hmore, List.append_assoc]
      simp only [upTo, List.append_assoc, List.cons_append, List.nil_append, hbody]
    rw [hsplit] at hpart
    exact Position.behind_ne (by simp) hpart

end Quoted

/-- From the place between two texts on, the second one is a row of bare characters and of quoted
pieces that open where a token may start. A piece that a colon follows on its line is a key; a piece
without one may be a key too, or else is one of the strings that are listed. -/
inductive Cut : (behind rest : List Char) → (strings : List Quoted) → Prop
  | nil (behind : List Char) : Cut behind [] []
  | bare {behind rest : List Char} {strings : List Quoted} {c : Char} (hc : isBare c = true)
      (h : Cut (behind ++ [c]) rest strings) : Cut behind (c :: rest) strings
  | key {behind rest : List Char} {strings : List Quoted} {written : List Char}
      (hstart : StartsToken behind) (hbody : isQuotedBody written = true)
      (h : Cut (behind ++ '"' :: (written ++ ['"'])) rest strings) :
      Cut behind ('"' :: (written ++ '"' :: rest)) strings
  | string {behind rest : List Char} {strings : List Quoted} {body : List Char}
      (hstart : StartsToken behind) (hbody : isQuotedBody body = true)
      (hcolon : isBeforeColon rest = false)
      (h : Cut (behind ++ '"' :: (body ++ ['"'])) rest strings) :
      Cut behind ('"' :: (body ++ '"' :: rest)) (⟨behind, body⟩ :: strings)

namespace Cut

variable {behind rest : List Char} {strings : List Quoted}

theorem bares {passed : List Char} (hpassed : ∀ c ∈ passed, isBare c = true)
    (h : Cut (behind ++ passed) rest strings) : Cut behind (passed ++ rest) strings := by
  induction passed generalizing behind with
  | nil => simpa using h
  | cons c passed ih =>
    refine .bare (hpassed c List.mem_cons_self) (ih (fun d hd => hpassed d (.tail c hd)) ?_)
    rwa [List.append_assoc]

/-- A character that is no quote is bare. -/
theorem tail {c : Char} (hc : c ≠ '"') (h : Cut behind (c :: rest) strings) :
    Cut (behind ++ [c]) rest strings := by
  cases h with
  | bare _ h => exact h
  | key | string => exact absurd rfl hc

theorem pass {passed : List Char} (hquote : '"' ∉ passed)
    (h : Cut behind (passed ++ rest) strings) : Cut (behind ++ passed) rest strings := by
  induction passed generalizing behind with
  | nil => simpa using h
  | cons c passed ih =>
    obtain ⟨hc, hquote⟩ := List.ne_and_not_mem_of_not_mem_cons hquote
    rw [List.append_cons]
    exact ih hquote (tail (Ne.symm hc) h)

/-- Strings that are listed are still ahead. -/
theorem ahead (h : Cut behind rest strings) : ∀ q ∈ strings, behind <+: q.before := by
  induction h with
  | nil => simp
  | bare _ _ ih | key _ _ _ ih => exact fun q hq => (List.prefix_append ..).trans (ih q hq)
  | string _ _ _ _ ih =>
    intro q hq
    rcases List.mem_cons.1 hq with rfl | hq
    · exact List.prefix_refl _
    · exact (List.prefix_append ..).trans (ih q hq)

/-- In front of a bare character all of them are. -/
theorem isApart {c : Char} (hc : isBare c = true) (h : Cut behind (c :: rest) strings) :
    ∀ q ∈ strings, q.IsApart behind := by
  have hquote : c ≠ '"' := by
    rintro rfl
    cases hc
  intro q hq
  obtain ⟨more, hmore⟩ := (h.tail hquote).ahead q hq
  exact .inl ⟨c, more, by simp [← hmore]⟩

end Cut

/-- A key that holds no quote and does not end in a blank, an opening bracket, a comma or a colon:
no token starts at its closing quote. -/
def keepsShut (key : List Char) : Bool :=
  !key.contains '"' && !isTokenStart ('"' :: key).reverse

theorem keepsShut_iff {key : List Char} :
    keepsShut key = true ↔ '"' ∉ key ∧ isTokenStart ('"' :: key).reverse = false := by
  simp [keepsShut]

/-- The cursor finds what is found from a place outside of quotes; of the strings in the text some
are ahead of it, and all others are behind it. -/
def Cursor.IsOutside (strings : List Quoted) (c : Cursor) : Prop :=
  ∃ behind rest ahead, Cut behind rest ahead ∧ (∀ q ∈ strings, q ∈ ahead ∨ q.upTo <+: behind) ∧
    ∀ key, c.seek key 0 = (Cursor.between behind rest).seek key 0

/-- A key that is found stands apart from all strings, and a cursor behind it is outside again. -/
structure Cursor.IsFound (strings : List Quoted) (length : Nat) (c : Cursor) : Prop where
  isApart : ∃ cs, c.position = Position.behind cs ∧ ∀ q ∈ strings, q.IsApart cs
  isOutside : (c.advance length).IsOutside strings

section Search

variable {strings : List Quoted} {key : List Char} (hquote : '"' ∉ key)
  (hends : isTokenStart ('"' :: key).reverse = false)

include hquote in
/-- A key without quotes. -/
theorem isFound_bare {behind rest : List Char} {ahead : List Quoted} {c : Char}
    (hc : isBare c = true) (h : Cut behind (c :: rest) ahead)
    (hahead : ∀ q ∈ strings, q ∈ ahead ∨ q.upTo <+: behind) (hkey : key <+: c :: rest) :
    (Cursor.between behind (c :: rest)).IsFound strings key.length := by
  refine ⟨⟨behind, rfl, fun q hq => ?_⟩, ?_⟩
  · exact (hahead q hq).elim (h.isApart hc q) .inr
  · obtain ⟨left, hleft⟩ := hkey
    rw [← hleft] at h ⊢
    rw [Cursor.advance_between, List.take_left, List.drop_left]
    refine ⟨_, _, ahead, h.pass hquote, fun q hq => ?_, fun _ => rfl⟩
    exact (hahead q hq).imp_right fun hbehind => hbehind.trans (List.prefix_append ..)

include hends in
/-- A key between its quotes. -/
theorem isFound_quoted {behind rest : List Char} {ahead : List Quoted}
    (h : Cut (behind ++ '"' :: (key ++ ['"'])) rest ahead)
    (hahead : ∀ q ∈ strings, q ∈ ahead ∨ q.upTo <+: behind) :
    (Cursor.between (behind ++ ['"']) (key ++ '"' :: rest)).IsFound strings key.length := by
  refine ⟨⟨behind ++ ['"'], rfl, fun q hq => ?_⟩, ?_⟩
  · rcases hahead q hq with hmem | hbehind
    · obtain ⟨more, hmore⟩ := h.ahead q hmem
      have hbefore : q.before = behind ++ ['"'] ++ (key ++ '"' :: more) := by simp [← hmore]
      cases hkey : key ++ '"' :: more with
      | nil => simp at hkey
      | cons c others => exact .inl ⟨c, others, hkey ▸ hbefore⟩
    · exact .inr (hbehind.trans (List.prefix_append ..))
  · rw [Cursor.advance_between, List.take_left, List.drop_left]
    refine ⟨_, _, ahead, h, fun q hq => ?_, fun other => ?_⟩
    · exact (hahead q hq).imp_right fun hbehind => hbehind.trans (List.prefix_append ..)
    · -- the closing quote opens nothing
      have hclosing : (Cursor.between (behind ++ '"' :: key) ('"' :: rest)).seek other 0 = _ :=
        Cursor.seek_closing hends rest
      simpa using hclosing

include hquote hends in
/-- By induction on the cut: a search meets bare characters and passes over pieces as a whole. -/
theorem isFound_of_seek {behind rest : List Char} {ahead : List Quoted} (h : Cut behind rest ahead)
    (hahead : ∀ q ∈ strings, q ∈ ahead ∨ q.upTo <+: behind) {c : Cursor}
    (hseek : (Cursor.between behind rest).seek key 0 = some c) :
    c.IsFound strings key.length := by
  have hbehind : ∀ {ahead : List Quoted} {behind more : List Char},
      (∀ q ∈ strings, q ∈ ahead ∨ q.upTo <+: behind) →
      ∀ q ∈ strings, q ∈ ahead ∨ q.upTo <+: behind ++ more :=
    fun h q hq => (h q hq).imp_right fun hpart => hpart.trans (List.prefix_append ..)
  induction h with
  | nil =>
    rw [Cursor.seek_nil] at hseek
    cases hseek
  | @bare behind rest ahead d hd h ih =>
    rw [Cursor.seek_zero, lookAt_bare hd] at hseek
    split at hseek
    next behindKey hlook =>
      split at hlook
      next hkey =>
        cases hlook
        cases hseek
        simp only [Bool.and_eq_true, List.isPrefixOf_iff_prefix] at hkey
        exact isFound_bare hquote hd (.bare hd h) hahead hkey.1.2
      next => cases hlook
    next more hlook =>
      split at hlook
      next => cases hlook
      next =>
        cases hlook
        exact ih (hbehind hahead) hseek
  | @key behind rest ahead written hstart hbody h ih =>
    rw [← List.cons_append] at hseek
    cases hkey : written == key && isBeforeColon rest with
    | true =>
      obtain ⟨hwritten, hcolon⟩ := Bool.and_eq_true_iff.1 hkey
      obtain rfl := beq_iff_eq.1 hwritten
      rw [Cursor.seek_quoted_key hstart hbody hcolon] at hseek
      cases hseek
      exact isFound_quoted hends h hahead
    | false =>
      rw [Cursor.seek_quoted key rest hstart hbody hkey] at hseek
      exact ih (hbehind hahead) (by simpa using hseek)
  | @string behind rest ahead body hstart hbody hcolon h ih =>
    rw [← List.cons_append, Cursor.seek_quoted key rest hstart hbody (by simp [hcolon])] at hseek
    refine ih (fun q hq => ?_) (by simpa using hseek)
    rcases hahead q hq with hmem | hpart
    · -- the string that is passed over is behind now
      rcases List.mem_cons.1 hmem with rfl | hmem
      · exact .inr (List.prefix_refl _)
      · exact .inl hmem
    · exact .inr (hpart.trans (List.prefix_append ..))

end Search

theorem Cursor.IsOutside.find {strings : List Quoted} {c found : Cursor} (h : c.IsOutside strings)
    {key : String} (hkey : keepsShut key.toList = true) (hfound : c.find key = some found) :
    found.IsFound strings key.toList.length := by
  obtain ⟨behind, rest, ahead, hcut, hahead, hseek⟩ := h
  obtain ⟨hquote, hends⟩ := keepsShut_iff.1 hkey
  rw [Cursor.find_eq_seek, hseek] at hfound
  exact isFound_of_seek hquote hends hcut hahead hfound

/-! ## Trails -/

mutual
/-- Every key of a value, at any depth, passes a test. -/
def Value.allKeys (ok : String → Bool) : Value → Bool
  | .array items => itemsAllKeys ok items
  | .object m => entriesAllKeys ok m
  | _ => true

def Value.itemsAllKeys (ok : String → Bool) : List Value → Bool
  | [] => true
  | v :: rest => v.allKeys ok && itemsAllKeys ok rest

def Value.entriesAllKeys (ok : String → Bool) : List (String × Value) → Bool
  | [] => true
  | (k, v) :: rest => ok k && v.allKeys ok && entriesAllKeys ok rest
end

namespace Trail

section Invariant

variable {ok : String → Bool} {I : Trail → Prop}

/-- Every position is the last one of a trail that satisfies the invariant. -/
def Recorded (I : Trail → Prop) (ps : Positions) : Prop := ∀ e ∈ ps, ∃ t, I t ∧ e.2 = t.last

theorem Recorded.nil : Recorded I [] := fun _ he => nomatch he

theorem Recorded.append {ps qs : Positions} (h : Recorded I ps) (h' : Recorded I qs) :
    Recorded I (ps ++ qs) :=
  List.forall_mem_append.2 ⟨h, h'⟩

/-- An element is recorded where its first key is. -/
theorem Recorded.firstOf {ps : Positions} (h : Recorded I ps) (q : Pointer) (v : Value) :
    Recorded I (firstOf q v ps) := by
  unfold Trail.firstOf
  split
  · cases ps with
    | nil => exact .nil
    | cons d ps =>
      intro e he
      obtain rfl := List.mem_singleton.1 he
      exact h d List.mem_cons_self
  · exact .nil

/-- Following a key that passes the test preserves the invariant. -/
def Preserves (ok : String → Bool) (I : Trail → Prop) : Prop :=
  ∀ t k, ok k = true → I t → I (t.follow k)

mutual
/-- What following a key preserves, the walk over a value preserves if all keys pass the test. -/
theorem recorded_locate (hfollow : Preserves ok I) (p : Pointer) (v : Value)
    (hv : v.allKeys ok = true) {t : Trail} (h : I t) :
    Recorded I (locate p v t).1 ∧ I (locate p v t).2 := by
  cases v with
  | array items => exact recorded_locateItems hfollow p 0 items hv h
  | object m => exact recorded_locateEntries hfollow p m hv h
  | null | bool | number | string => exact ⟨.nil, h⟩

theorem recorded_locateItems (hfollow : Preserves ok I) (p : Pointer) (index : Nat)
    (items : List Value) (hv : Value.itemsAllKeys ok items = true) {t : Trail} (h : I t) :
    Recorded I (locateItems p index items t).1 ∧ I (locateItems p index items t).2 := by
  cases items with
  | nil => exact ⟨.nil, h⟩
  | cons v rest =>
    obtain ⟨hhere, hrest⟩ := Bool.and_eq_true_iff.1 hv
    obtain ⟨hinside, hbehind⟩ := recorded_locate hfollow (p.item index) v hhere h
    obtain ⟨hothers, hend⟩ :=
      recorded_locateItems hfollow p (index + 1) rest hrest hbehind
    rw [locateItems_cons]
    exact ⟨(hinside.firstOf _ v).append (hinside.append hothers), hend⟩

theorem recorded_locateEntries (hfollow : Preserves ok I) (p : Pointer)
    (m : List (String × Value)) (hv : Value.entriesAllKeys ok m = true) {t : Trail} (h : I t) :
    Recorded I (locateEntries p m t).1 ∧ I (locateEntries p m t).2 := by
  cases m with
  | nil => exact ⟨.nil, h⟩
  | cons e rest =>
    obtain ⟨k, v⟩ := e
    obtain ⟨hkey, hrest⟩ := Bool.and_eq_true_iff.1 hv
    obtain ⟨hkey, hhere⟩ := Bool.and_eq_true_iff.1 hkey
    have hfound := hfollow t k hkey h
    obtain ⟨hinside, hbehind⟩ := recorded_locate hfollow (p.child k) v hhere hfound
    obtain ⟨hothers, hend⟩ := recorded_locateEntries hfollow p rest hrest hbehind
    rw [locateEntries_cons]
    refine ⟨List.forall_mem_cons.2 ⟨⟨_, hfound, rfl⟩, ?_⟩, hend⟩
    exact hinside.append hothers
end

end Invariant

/-- The trail goes on outside of quotes, and has not been led into a string. -/
structure IsOutside (strings : List Quoted) (t : Trail) : Prop where
  cursor : t.cursor.IsOutside strings
  last : ∀ q ∈ strings, ¬ q.Holds t.last

theorem IsOutside.follow {strings : List Quoted} {t : Trail} (h : t.IsOutside strings)
    {key : String} (hkey : keepsShut key.toList = true) : (t.follow key).IsOutside strings := by
  unfold Trail.follow
  cases hfind : t.cursor.find key with
  | none => exact h
  | some c =>
    obtain ⟨⟨cs, hcs, hapart⟩, hcursor⟩ := h.cursor.find hkey hfind
    refine ⟨hcursor, fun q hq => ?_⟩
    dsimp only
    rw [hcs]
    exact Quoted.not_holds_of_isApart (hapart q hq)

/-- No key of a value is located in a string, whether or not the value agrees with the text. -/
theorem isOutside_locate {strings : List Quoted} {t : Trail} (h : t.IsOutside strings) (p : Pointer)
    {v : Value} (hv : v.allKeys (fun k => keepsShut k.toList) = true) :
    ∀ e ∈ (locate p v t).1, ∀ q ∈ strings, ¬ q.Holds e.2 := by
  intro e he
  have hfollow : Preserves (fun k => keepsShut k.toList) (IsOutside strings) :=
    fun _ _ hkey h => h.follow hkey
  obtain ⟨hrecorded, -⟩ := recorded_locate hfollow p v hv h
  obtain ⟨t', ht', heq⟩ := hrecorded e he
  rw [heq]
  exact ht'.last

end Trail

end StreamConfig
