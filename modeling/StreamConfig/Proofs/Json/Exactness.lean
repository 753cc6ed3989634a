import StreamConfig.Proofs.Document.Ready
import StreamConfig.Proofs.Json.Reading

/-! # When the positions of a JSON text are exact

Keys are looked up in a JSON text as in any other. With plain, different keys the look-up is exact
for the whole document exactly if every key has its colon on the line where it ends: a key whose
colon comes after a line break is passed over like a string.
* `follow_member` — one key: behind it the trail is ready again if its colon is on its line
* `Spelling.locate_eq_iff` — a whole spelling, by induction on it
* `scan_exact_iff` — every text that is read
-/

namespace StreamConfig

namespace Json

/-! ## Characters of spellings -/

theorem isBare_of_isSpace {c : Char} (h : isSpace c = true) : isBare c = true := by
  simp only [isSpace, Bool.or_eq_true, beq_iff_eq] at h
  rcases h with ((h | h) | h) | h <;> subst h <;> rfl

theorem isAsciiBlank_of_isSpace {c : Char} (h : isSpace c = true) :
    Text.isAsciiBlank c = true := by
  simp only [isSpace, Bool.or_eq_true, beq_iff_eq] at h
  rcases h with ((h | h) | h) | h <;> subst h <;> rfl

theorem isTokenStart_of_isSpace {c : Char} (h : isSpace c = true) : isTokenStart [c] = true := by
  simp [isTokenStart, isAsciiBlank_of_isSpace h]

theorem ne_colon_of_isSpace {c : Char} (h : isSpace c = true) : c ≠ ':' := by
  rintro rfl
  cases h

theorem isBare_of_isWordChar {c : Char} (h : isWordChar c = true) : isBare c = true := by
  unfold isBare
  simp only [Bool.and_eq_true, bne_iff_ne]
  refine ⟨⟨⟨⟨?_, ?_⟩, ?_⟩, ?_⟩, ?_⟩ <;> rintro rfl <;> revert h <;> decide

theorem ne_colon_of_isWordChar {c : Char} (h : isWordChar c = true) : c ≠ ':' := by
  rintro rfl
  revert h
  decide

theorem isColonFree_spaces {gap rest : List Char} (hgap : gap.all isSpace = true)
    (h : isColonFree rest = true) : isColonFree (gap ++ rest) = true :=
  isColonFree_append (fun c hc => ne_colon_of_isSpace (List.all_eq_true.1 hgap c hc)) h

/-- Blanks and a comma, if there is one, stand before what comes next. -/
theorem isColonFree_separator {after comma rest : List Char} (hafter : after.all isSpace = true)
    (hcomma : comma = [] ∨ comma = [',']) (h : isColonFree rest = true) :
    isColonFree (after ++ (comma ++ rest)) = true := by
  refine isColonFree_spaces hafter (isColonFree_append ?_ h)
  obtain rfl | rfl := hcomma
  · simp
  · simp

theorem isColonFree_cons {c : Char} (hc : c ≠ ':') {rest : List Char}
    (h : isColonFree rest = true) : isColonFree (c :: rest) = true := by
  simp [isColonFree, hc, h]

/-- Members start with a quote. -/
theorem Members.isColonFree_text {members : Members} (h : members.areWellFormed = true)
    {rest : List Char} (hrest : isColonFree rest = true) :
    isColonFree (members.text ++ rest) = true := by
  cases members with
  | nil => exact hrest
  | cons before written key gap between v after others =>
    simp only [Members.areWellFormed, Bool.and_eq_true] at h
    rw [Members.text, List.append_assoc]
    exact isColonFree_spaces h.1.1.1.1.1.1.1 rfl

mutual

/-- No colon of a spelling stands before a quote of it. -/
theorem Spelling.isColonFree_text {l : Spelling} (h : l.isWellFormed = true) {rest : List Char}
    (hrest : isColonFree rest = true) : isColonFree (l.text ++ rest) = true := by
  cases l with
  | word chars v =>
    simp only [Spelling.isWellFormed, Bool.and_eq_true, List.all_eq_true] at h
    exact isColonFree_append (fun c hc => ne_colon_of_isWordChar (h.1.2 c hc)) hrest
  | quoted body s => rfl
  | array gap items =>
    obtain ⟨hgap, hitems⟩ := Bool.and_eq_true_iff.1 h
    have hclose : isColonFree (']' :: rest) = true := isColonFree_cons (by decide) hrest
    have hinside := isColonFree_spaces hgap (Items.isColonFree_text hitems hclose)
    simpa [Spelling.text] using isColonFree_cons (c := '[') (by decide) hinside
  | object gap members =>
    obtain ⟨hgap, hmembers⟩ := Bool.and_eq_true_iff.1 h
    have hclose : isColonFree ('\x7d' :: rest) = true := isColonFree_cons (by decide) hrest
    have hinside := isColonFree_spaces hgap (Members.isColonFree_text hmembers hclose)
    simpa [Spelling.text] using isColonFree_cons (c := '\x7b') (by decide) hinside

theorem Items.isColonFree_text {items : Items} (h : items.areWellFormed = true) {rest : List Char}
    (hrest : isColonFree rest = true) : isColonFree (items.text ++ rest) = true := by
  cases items with
  | nil => exact hrest
  | cons before v after others =>
    simp only [Items.areWellFormed, Bool.and_eq_true] at h
    obtain ⟨⟨⟨hbefore, hv⟩, hafter⟩, hothers⟩ := h
    have hmore := isColonFree_separator hafter others.comma_eq
      (Items.isColonFree_text hothers hrest)
    simpa [Items.text] using isColonFree_spaces hbefore (Spelling.isColonFree_text hv hmore)

end

/-! ## What is recorded -/

/-- The positions among places. -/
def ofPlaces (places : List (Pointer × Option Position)) : Positions :=
  places.filterMap fun e => e.2.map (e.1, ·)

theorem ofPlaces_cons (p : Pointer) (place : Option Position)
    (rest : List (Pointer × Option Position)) :
    ofPlaces ((p, place) :: rest) = (place.map (p, ·)).toList ++ ofPlaces rest := by
  cases place with
  | none => rfl
  | some at' => rfl

theorem ofPlaces_append (places rest : List (Pointer × Option Position)) :
    ofPlaces (places ++ rest) = ofPlaces places ++ ofPlaces rest := List.filterMap_append

theorem locate_word {v : Value} (h : isWord v = true) (p : Pointer) (t : Trail) :
    Trail.locate p v t = ([], t) := by
  cases v with
  | null | bool | number => rfl
  | string | array | object => cases h

theorem firstOf_word {v : Value} (h : isWord v = true) (p : Pointer) (inside : Positions) :
    Trail.firstOf p v inside = [] := by
  cases v with
  | null | bool | number => rfl
  | string | array | object => cases h

/-- An element has a position in the walk exactly if it should have one. -/
theorem Spelling.map_firstOf {l : Spelling} (h : l.isWellFormed = true) (p : Pointer) (t : Trail)
    (behind : List Char) :
    (Trail.firstOf p l.value (Trail.locate p l.value t).1).map (·.1) =
      ((l.first? behind).map (p, ·)).toList.map (·.1) := by
  cases l with
  | word chars v =>
    simp only [Spelling.isWellFormed, Bool.and_eq_true] at h
    rw [Spelling.value, firstOf_word h.2]
    rfl
  | quoted | array => rfl
  | object gap members =>
    cases members with
    | nil | cons => rfl

/-- If what is below an element is exact, so is the element itself. -/
theorem Spelling.firstOf_eq {l : Spelling} (h : l.isWellFormed = true) (p : Pointer)
    (behind : List Char) :
    Trail.firstOf p l.value (ofPlaces (l.places p behind)) =
      ((l.first? behind).map (p, ·)).toList := by
  cases l with
  | word chars v =>
    simp only [Spelling.isWellFormed, Bool.and_eq_true] at h
    rw [Spelling.value, firstOf_word h.2]
    rfl
  | quoted | array => rfl
  | object gap members =>
    cases members with
    | nil | cons => rfl

mutual

/-- The walk over a spelling's value records the pointers that should be recorded. -/
theorem Spelling.map_locate {l : Spelling} (h : l.isWellFormed = true) (p : Pointer) (t : Trail)
    (behind : List Char) :
    (Trail.locate p l.value t).1.map (·.1) = (ofPlaces (l.places p behind)).map (·.1) := by
  cases l with
  | word chars v =>
    simp only [Spelling.isWellFormed, Bool.and_eq_true] at h
    rw [Spelling.value, locate_word h.2]
    rfl
  | quoted => rfl
  | array gap items => exact Items.map_locate (Bool.and_eq_true_iff.1 h).2 p 0 t _
  | object gap members => exact Members.map_locate (Bool.and_eq_true_iff.1 h).2 p t _

theorem Items.map_locate {items : Items} (h : items.areWellFormed = true) (p : Pointer)
    (index : Nat) (t : Trail) (behind : List Char) :
    (Trail.locateItems p index items.values t).1.map (·.1) =
      (ofPlaces (items.places p index behind)).map (·.1) := by
  cases items with
  | nil => rfl
  | cons before v after rest =>
    simp only [Items.areWellFormed, Bool.and_eq_true] at h
    obtain ⟨⟨⟨-, hv⟩, -⟩, hrest⟩ := h
    rw [Items.values, Trail.locateItems_cons, Items.places, ofPlaces_cons, ofPlaces_append]
    simp only [List.map_append]
    rw [Spelling.map_firstOf hv, Spelling.map_locate hv, Items.map_locate hrest]

theorem Members.map_locate {members : Members} (h : members.areWellFormed = true) (p : Pointer)
    (t : Trail) (behind : List Char) :
    (Trail.locateEntries p members.entries t).1.map (·.1) =
      (ofPlaces (members.places p behind)).map (·.1) := by
  cases members with
  | nil => rfl
  | cons before written key gap between v after rest =>
    simp only [Members.areWellFormed, Bool.and_eq_true] at h
    obtain ⟨⟨⟨-, hv⟩, -⟩, hrest⟩ := h
    rw [Members.entries, Trail.locateEntries_cons, Members.places, ofPlaces_cons, ofPlaces_append]
    simp only [List.map_append, List.map_cons]
    rw [Spelling.map_locate hv, Members.map_locate hrest]
    rfl

end

mutual

/-- The places of a spelling are those of its value. -/
theorem Spelling.map_places {l : Spelling} (h : l.isWellFormed = true) (p : Pointer)
    (behind : List Char) : (l.places p behind).map (·.1) = l.value.pointers p := by
  cases l with
  | word chars v =>
    simp only [Spelling.isWellFormed, Bool.and_eq_true] at h
    cases v with
    | null | bool | number => rfl
    | string | array | object => exact absurd h.2 Bool.false_ne_true
  | quoted => rfl
  | array gap items => exact Items.map_places (Bool.and_eq_true_iff.1 h).2 p 0 _
  | object gap members => exact Members.map_places (Bool.and_eq_true_iff.1 h).2 p _

theorem Items.map_places {items : Items} (h : items.areWellFormed = true) (p : Pointer)
    (index : Nat) (behind : List Char) :
    (items.places p index behind).map (·.1) = Value.itemPointers p index items.values := by
  cases items with
  | nil => rfl
  | cons before v after rest =>
    simp only [Items.areWellFormed, Bool.and_eq_true] at h
    obtain ⟨⟨⟨-, hv⟩, -⟩, hrest⟩ := h
    rw [Items.values, Items.places, Value.itemPointers,
      ← Spelling.map_places hv _ (behind ++ before), ← Items.map_places hrest, ← List.map_append]
    rfl

theorem Members.map_places {members : Members} (h : members.areWellFormed = true) (p : Pointer)
    (behind : List Char) :
    (members.places p behind).map (·.1) = Value.entryPointers p members.entries := by
  cases members with
  | nil => rfl
  | cons before written key gap between v after rest =>
    simp only [Members.areWellFormed, Bool.and_eq_true] at h
    obtain ⟨⟨⟨-, hv⟩, -⟩, hrest⟩ := h
    rw [Members.entries, Members.places, Value.entryPointers, ← Spelling.map_places hv,
      ← Members.map_places hrest, ← List.map_append]
    rfl

end

/-! ## The walk -/

/-- Two lists in two parts, where the second parts are compared only once the first ones agree. -/
theorem append_eq_append_iff_of_length {α : Type} {as as' bs bs' : List α} {a b : Bool}
    (hlength : as.length = as'.length) (hfirst : as = as' ↔ a = true)
    (hsecond : a = true → (bs = bs' ↔ b = true)) :
    as ++ bs = as' ++ bs' ↔ (a && b) = true := by
  rw [Bool.and_eq_true]
  constructor
  · intro h
    obtain ⟨has, hbs⟩ := List.append_inj h hlength
    exact ⟨hfirst.1 has, (hsecond (hfirst.1 has)).1 hbs⟩
  · rintro ⟨ha, hb⟩
    rw [hfirst.2 ha, (hsecond ha).2 hb]

theorem length_eq_of_map {ps qs : Positions} (h : ps.map (·.1) = qs.map (·.1)) :
    ps.length = qs.length := by
  rw [← List.length_map (·.1), h, List.length_map]

theorem free_of_spaces {gap : List Char} (hgap : gap.all isSpace = true) :
    ∀ c ∈ gap, isBare c = true ∧ c ≠ ':' := fun c hc =>
  have hspace := List.all_eq_true.1 hgap c hc
  ⟨isBare_of_isSpace hspace, ne_colon_of_isSpace hspace⟩

theorem startsToken_spaces {behind gap : List Char} (h : StartsToken behind)
    (hgap : gap.all isSpace = true) : StartsToken (behind ++ gap) :=
  h.append fun c hc => isTokenStart_of_isSpace (List.all_eq_true.1 hgap c hc)

/-- Behind an opening bracket and the blanks after it. -/
theorem ready_opened {t : Trail} {behind gap inside : List Char} {c : Char}
    (h : t.IsReady behind (c :: (gap ++ inside))) (hc : isBare c = true ∧ c ≠ ':')
    (hstart : isTokenStart [c] = true) (hgap : gap.all isSpace = true)
    (hinside : isColonFree inside = true) :
    t.IsReady (behind ++ c :: gap) inside ∧ StartsToken (behind ++ c :: gap) := by
  refine ⟨h.passFree (List.forall_mem_cons.2 ⟨hc, free_of_spaces hgap⟩) hinside, ?_⟩
  rw [List.append_cons]
  exact startsToken_spaces (startsToken_snoc behind hstart) hgap

/-- Behind the blanks after a value and the comma, if there is one. -/
theorem ready_separated {t : Trail} {behind after comma rest : List Char}
    (h : t.IsReady behind (after ++ (comma ++ rest))) (hafter : after.all isSpace = true)
    (hcomma : comma = [] ∨ comma = [',']) (hrest : isColonFree rest = true) :
    t.IsReady (behind ++ (after ++ comma)) rest ∧
      (comma ≠ [] → StartsToken (behind ++ (after ++ comma))) := by
  rw [← List.append_assoc] at h
  obtain rfl | rfl := hcomma
  · rw [List.append_nil] at h ⊢
    exact ⟨h.passFree (free_of_spaces hafter) hrest, fun hne => absurd rfl hne⟩
  · have hfree : ∀ c ∈ after ++ [','], isBare c = true ∧ c ≠ ':' :=
      List.forall_mem_append.2
        ⟨free_of_spaces hafter, List.forall_mem_singleton.2 (by decide)⟩
    refine ⟨h.passFree hfree hrest, fun _ => ?_⟩
    rw [← List.append_assoc]
    exact startsToken_snoc _ rfl

/-- What a plain key is, as it is written and as it is looked up. -/
theorem isPlainKey_of_written {written : List Char} {key : String}
    (hbody : isQuotedBody written = true)
    (hkey : (written.contains '\\' || key.toList == written) = true)
    (hplain : isPlainWritten written = true) : key.toList = written ∧ IsPlainKey key.toList := by
  simp only [isPlainWritten, Bool.and_eq_true, Bool.not_eq_true'] at hplain
  obtain ⟨hslash, hends⟩ := hplain
  rw [hslash, Bool.false_or, beq_iff_eq] at hkey
  have hnoSlash : '\\' ∉ written := fun hmem =>
    Bool.false_ne_true (hslash.symm.trans (List.contains_iff_mem.2 hmem))
  exact ⟨hkey, hkey ▸ ⟨not_mem_of_isQuotedBody hbody hnoSlash, hends⟩⟩

/-- Behind a key, its colon and the blanks around it, the trail is ready if the colon is on the
key's line; if not, the key has a position that is not its own. -/
theorem follow_member {t : Trail} {behind gap between rest : List Char} {key : String}
    (h : t.IsReady behind ('"' :: (key.toList ++ '"' :: (gap ++ ':' :: (between ++ rest)))))
    (hstart : StartsToken behind) (hkey : IsPlainKey key.toList)
    (hbody : isQuotedBody key.toList = true) (hgap : gap.all isSpace = true)
    (hbetween : between.all isSpace = true) (hrest : isColonFree rest = true) :
    ((t.follow key).last = Position.behind (behind ++ ['"']) ↔
        gap.all Text.isInlineBlank = true) ∧
      (gap.all Text.isInlineBlank = true → (t.follow key).IsReady
        (behind ++ ['"'] ++ key.toList ++ ['"'] ++ (gap ++ ':' :: between)) rest) := by
  -- whether the colon counts depends on the blanks before it alone
  have hcolon := isBeforeColon_blanks_colon (fun c hc => (free_of_spaces hgap c hc).2)
    (between ++ rest)
  cases hinline : gap.all Text.isInlineBlank with
  | false =>
    rw [hinline] at hcolon
    exact ⟨iff_of_false (h.astray hstart hkey hbody hcolon) Bool.false_ne_true,
      fun hfalse => absurd hfalse Bool.false_ne_true⟩
  | true =>
    rw [hinline] at hcolon
    obtain ⟨hlast, hready⟩ := h.follow hstart hkey hbody hcolon
    have happend : gap ++ ':' :: (between ++ rest) = (gap ++ ':' :: between) ++ rest := by simp
    have hkeyless := keyless_of_blanks
      (fun c hc => isAsciiBlank_of_isSpace (List.all_eq_true.1 hgap c hc))
      (isColonFree_spaces hbetween hrest)
    rw [happend] at hready hkeyless
    refine ⟨iff_of_true hlast rfl, fun _ => ?_⟩
    refine hready.pass (List.forall_mem_append.2 ⟨?_, ?_⟩) hkeyless
    · exact fun c hc => (free_of_spaces hgap c hc).1
    · exact List.forall_mem_cons.2 ⟨rfl, fun c hc => (free_of_spaces hbetween c hc).1⟩

mutual

/-- By induction on the spelling: the walk is exact below a value exactly if every key there has its
colon on its line, and then it is ready behind the value. -/
theorem Spelling.locate_eq_iff {l : Spelling} (h : l.isWellFormed = true)
    (hplain : l.hasPlainKeys = true) (p : Pointer) {t : Trail} {behind rest : List Char}
    (hready : t.IsReady behind (l.text ++ rest)) (hstart : StartsToken behind)
    (hrest : isColonFree rest = true) :
    ((Trail.locate p l.value t).1 = ofPlaces (l.places p behind) ↔ l.keepsColons = true) ∧
      (l.keepsColons = true → (Trail.locate p l.value t).2.IsReady (behind ++ l.text) rest) := by
  cases l with
  | word chars v =>
    simp only [Spelling.isWellFormed, Bool.and_eq_true, List.all_eq_true] at h
    obtain ⟨⟨-, hchars⟩, hv⟩ := h
    -- a word holds no keys and is passed over
    rw [Spelling.value, locate_word hv]
    refine ⟨iff_of_true rfl rfl, fun _ => hready.passFree (fun c hc => ?_) hrest⟩
    exact ⟨isBare_of_isWordChar (hchars c hc), ne_colon_of_isWordChar (hchars c hc)⟩
  | quoted body s =>
    refine ⟨iff_of_true rfl rfl, fun _ => ?_⟩
    -- no colon follows a string on its line, so it is passed over as a whole
    have htext : (Spelling.quoted body s).text ++ rest = '"' :: (body ++ '"' :: rest) := by
      simp [Spelling.text]
    rw [htext] at hready
    exact hready.passQuoted hstart h (isBeforeColon_eq_false hrest)
  | array gap items =>
    obtain ⟨hgap, hitems⟩ := Bool.and_eq_true_iff.1 h
    have htext : (Spelling.array gap items).text ++ rest =
        '[' :: (gap ++ (items.text ++ ']' :: rest)) := by
      simp [Spelling.text]
    have hclose : isColonFree (']' :: rest) = true := isColonFree_cons (by decide) hrest
    rw [htext] at hready
    obtain ⟨hopened, hstart'⟩ := ready_opened hready (by decide) rfl hgap
      (Items.isColonFree_text hitems hclose)
    obtain ⟨hexact, hdone⟩ := Items.locate_eq_iff hitems hplain p 0 hopened (fun _ => hstart')
      hclose
    refine ⟨hexact, fun hcolons => ?_⟩
    have hclosed := (hdone hcolons).passOne (by decide) hrest
    rw [Spelling.value, Trail.locate, Spelling.text]
    simpa using hclosed
  | object gap members =>
    obtain ⟨hgap, hmembers⟩ := Bool.and_eq_true_iff.1 h
    have htext : (Spelling.object gap members).text ++ rest =
        '\x7b' :: (gap ++ (members.text ++ '\x7d' :: rest)) := by
      simp [Spelling.text]
    have hclose : isColonFree ('\x7d' :: rest) = true := isColonFree_cons (by decide) hrest
    rw [htext] at hready
    obtain ⟨hopened, hstart'⟩ := ready_opened hready (by decide) rfl hgap
      (Members.isColonFree_text hmembers hclose)
    obtain ⟨hexact, hdone⟩ := Members.locate_eq_iff hmembers hplain p hopened (fun _ => hstart')
      hclose
    refine ⟨hexact, fun hcolons => ?_⟩
    have hclosed := (hdone hcolons).passOne (by decide) hrest
    rw [Spelling.value, Trail.locate, Spelling.text]
    simpa using hclosed

theorem Items.locate_eq_iff {items : Items} (h : items.areWellFormed = true)
    (hplain : items.allKeys (fun written _ => isPlainWritten written) = true) (p : Pointer)
    (index : Nat) {t : Trail} {behind rest : List Char}
    (hready : t.IsReady behind (items.text ++ rest))
    (hstart : items.comma ≠ [] → StartsToken behind) (hrest : isColonFree rest = true) :
    ((Trail.locateItems p index items.values t).1 = ofPlaces (items.places p index behind) ↔
        items.allKeys (fun _ gap => gap.all Text.isInlineBlank) = true) ∧
      (items.allKeys (fun _ gap => gap.all Text.isInlineBlank) = true →
        (Trail.locateItems p index items.values t).2.IsReady (behind ++ items.text) rest) := by
  cases items with
  | nil =>
    refine ⟨iff_of_true rfl rfl, fun _ => ?_⟩
    rwa [Items.text, List.append_nil]
  | cons before v after others =>
    simp only [Items.areWellFormed, Bool.and_eq_true] at h
    obtain ⟨⟨⟨hbefore, hv⟩, hafter⟩, hothers⟩ := h
    obtain ⟨hplainV, hplainOthers⟩ := Bool.and_eq_true_iff.1 hplain
    have hfree := Items.isColonFree_text hothers hrest
    have hmore := isColonFree_separator hafter others.comma_eq hfree
    have htext : (Items.cons before v after others).text ++ rest =
        before ++ (v.text ++ (after ++ (others.comma ++ (others.text ++ rest)))) := by
      simp [Items.text]
    rw [htext] at hready
    have hhere := hready.passFree (free_of_spaces hbefore) (Spelling.isColonFree_text hv hmore)
    have hstartHere := startsToken_spaces (hstart (List.cons_ne_nil _ _)) hbefore
    obtain ⟨hexact, hdone⟩ := Spelling.locate_eq_iff hv hplainV (p.item index) hhere hstartHere
      hmore
    -- what comes behind is judged only if the walk is exact so far
    have hothersEq := fun (hcolons : v.keepsColons = true) => by
      obtain ⟨hnext, hstartNext⟩ := ready_separated (hdone hcolons) hafter others.comma_eq hfree
      exact Items.locate_eq_iff hothers hplainOthers p (index + 1) hnext hstartNext hrest
    have hbelow := append_eq_append_iff_of_length
      (length_eq_of_map (Spelling.map_locate hv (p.item index) t (behind ++ before))) hexact
      fun hcolons => (hothersEq hcolons).1
    -- the element itself stands where its first key stands
    have hfirst := length_eq_of_map (Spelling.map_firstOf hv (p.item index) t (behind ++ before))
    rw [Items.values, Trail.locateItems_cons, Items.places, ofPlaces_cons, ofPlaces_append]
    dsimp only
    refine ⟨⟨fun heq => hbelow.1 (List.append_inj heq hfirst).2, fun hcolons => ?_⟩,
      fun hcolons => ?_⟩
    · have hinside := hexact.2 (Bool.and_eq_true_iff.1 hcolons).1
      rw [hbelow.2 hcolons, hinside, Spelling.firstOf_eq hv]
    · obtain ⟨hcolons, hcolons'⟩ := Bool.and_eq_true_iff.1 hcolons
      rw [Items.text]
      simpa using (hothersEq hcolons).2 hcolons'

theorem Members.locate_eq_iff {members : Members} (h : members.areWellFormed = true)
    (hplain : members.allKeys (fun written _ => isPlainWritten written) = true) (p : Pointer)
    {t : Trail} {behind rest : List Char} (hready : t.IsReady behind (members.text ++ rest))
    (hstart : members.comma ≠ [] → StartsToken behind) (hrest : isColonFree rest = true) :
    ((Trail.locateEntries p members.entries t).1 = ofPlaces (members.places p behind) ↔
        members.allKeys (fun _ gap => gap.all Text.isInlineBlank) = true) ∧
      (members.allKeys (fun _ gap => gap.all Text.isInlineBlank) = true →
        (Trail.locateEntries p members.entries t).2.IsReady (behind ++ members.text) rest) := by
  cases members with
  | nil =>
    refine ⟨iff_of_true rfl rfl, fun _ => ?_⟩
    rwa [Members.text, List.append_nil]
  | cons before written key gap between v after others =>
    simp only [Members.areWellFormed, Bool.and_eq_true] at h
    obtain ⟨⟨⟨⟨⟨⟨⟨hbefore, hbody⟩, hkey⟩, hgap⟩, hbetween⟩, hv⟩, hafter⟩, hothers⟩ := h
    obtain ⟨hplain, hplainOthers⟩ := Bool.and_eq_true_iff.1 hplain
    obtain ⟨hwritten, hplainV⟩ := Bool.and_eq_true_iff.1 hplain
    obtain ⟨rfl, hkeyPlain⟩ := isPlainKey_of_written hbody hkey hwritten
    have hfree := Members.isColonFree_text hothers hrest
    have hmore := isColonFree_separator hafter others.comma_eq hfree
    have htext : (Members.cons before key.toList key gap between v after others).text ++ rest =
        before ++ '"' :: (key.toList ++ '"' :: (gap ++ ':' :: (between ++
          (v.text ++ (after ++ (others.comma ++ (others.text ++ rest))))))) := by
      simp [Members.text]
    rw [htext] at hready
    have hhere := hready.passFree (free_of_spaces hbefore) rfl
    have hstartHere := startsToken_spaces (hstart (List.cons_ne_nil _ _)) hbefore
    -- three things in a row: the key, what is below it, and the members behind it
    obtain ⟨hfound, hfollowed⟩ := follow_member hhere hstartHere hkeyPlain hbody hgap hbetween
      (Spelling.isColonFree_text hv hmore)
    have hstartValue : StartsToken
        (behind ++ before ++ ['"'] ++ key.toList ++ ['"'] ++ (gap ++ ':' :: between)) := by
      rw [List.append_cons gap, ← List.append_assoc, ← List.append_assoc]
      exact startsToken_spaces (startsToken_snoc _ rfl) hbetween
    have hvalueEq := fun hinline => Spelling.locate_eq_iff hv hplainV (p.child key)
      (hfollowed hinline) hstartValue hmore
    have hothersEq := fun hinline (hcolons : v.keepsColons = true) => by
      obtain ⟨hnext, hstartNext⟩ := ready_separated ((hvalueEq hinline).2 hcolons) hafter
        others.comma_eq hfree
      exact Members.locate_eq_iff hothers hplainOthers p hnext hstartNext hrest
    have hlength := length_eq_of_map (Spelling.map_locate hv (p.child key) (t.follow key)
      (behind ++ before ++ ['"'] ++ key.toList ++ ['"'] ++ (gap ++ ':' :: between)))
    have hbelow := fun hinline => append_eq_append_iff_of_length hlength (hvalueEq hinline).1
      fun hcolons => (hothersEq hinline hcolons).1
    have hhead : [(p.child key, (t.follow key).last)] =
        [(p.child key, Position.behind (behind ++ before ++ ['"']))] ↔
          gap.all Text.isInlineBlank = true := by
      rw [← hfound, List.cons.injEq, Prod.mk.injEq]
      simp
    have hall := append_eq_append_iff_of_length (by rfl) hhead hbelow
    rw [Members.entries, Trail.locateEntries_cons, Members.places, ofPlaces_cons, ofPlaces_append,
      Members.allKeys, Bool.and_assoc]
    refine ⟨hall, fun hcolons => ?_⟩
    obtain ⟨hinline, hcolons⟩ := Bool.and_eq_true_iff.1 hcolons
    obtain ⟨hcolons, hcolons'⟩ := Bool.and_eq_true_iff.1 hcolons
    rw [Members.text]
    simpa using (hothersEq hinline hcolons).2 hcolons'

end

/-! ## Whole documents -/

/-- What is recorded under a place, if every place has been recorded as it should. -/
theorem get?_ofPlaces {places : List (Pointer × Option Position)}
    (hnodup : (places.map (·.1)).Nodup) {e : Pointer × Option Position} (h : e ∈ places) :
    (ofPlaces places).get? e.1 = e.2 := by
  induction places with
  | nil => exact absurd h List.not_mem_nil
  | cons d places ih =>
    obtain ⟨p, place⟩ := d
    obtain ⟨hp, hrest⟩ := List.nodup_cons.1 hnodup
    have hothers : (ofPlaces places).get? p = none := by
      refine Positions.get?_eq_none fun hmem => hp ?_
      obtain ⟨f, hf, hfp⟩ := List.mem_map.1 hmem
      obtain ⟨g, hg, hgf⟩ := List.mem_filterMap.1 hf
      obtain ⟨at', -, rfl⟩ := Option.map_eq_some_iff.1 hgf
      exact List.mem_map.2 ⟨g, hg, hfp⟩
    rw [ofPlaces_cons]
    rcases List.mem_cons.1 h with rfl | hmem
    · cases place with
      | none => exact hothers
      | some at' => exact (Positions.get?_cons ..).trans (if_pos rfl)
    · have hne : p ≠ e.1 := fun heq => hp (List.mem_map.2 ⟨e, hmem, heq.symm⟩)
      cases place with
      | none => exact ih hrest hmem
      | some at' => exact (Positions.get?_cons ..).trans ((if_neg hne).trans (ih hrest hmem))

theorem mem_ofPlaces {places : List (Pointer × Option Position)} {e : Pointer × Position} :
    e ∈ ofPlaces places ↔ (e.1, some e.2) ∈ places := by
  unfold ofPlaces
  rw [List.mem_filterMap]
  constructor
  · rintro ⟨⟨p, place⟩, hmem, heq⟩
    obtain ⟨at', rfl, rfl⟩ := Option.map_eq_some_iff.1 heq
    exact hmem
  · exact fun hmem => ⟨_, hmem, rfl⟩

/-- The positions of a document are recorded as they should be exactly if every key has its colon on
the line where it ends. -/
theorem Document.scan_eq_iff {d : Document} (h : d.isWellFormed = true)
    (hplain : d.root.hasPlainKeys = true) :
    Positions.scan d.text d.root.value = ofPlaces d.places ↔ d.root.keepsColons = true := by
  simp only [Document.isWellFormed, Bool.and_eq_true] at h
  obtain ⟨⟨hbefore, hroot⟩, hafter⟩ := h
  have hfree : isColonFree d.after = true := by
    rw [← List.append_nil d.after]
    exact isColonFree_spaces hafter rfl
  have htext : d.text.toList = d.before ++ (d.root.text ++ d.after) := by
    rw [Document.text, String.toList_ofList, List.append_assoc]
  have hstart := htext ▸ Trail.IsReady.start d.text
  have hready := hstart.passFree (free_of_spaces hbefore) (Spelling.isColonFree_text hroot hfree)
  exact (Spelling.locate_eq_iff hroot hplain "" hready (startsToken_spaces startsToken_nil hbefore)
    hfree).1

theorem Document.get?_scan_iff {d : Document} (h : d.isWellFormed = true)
    (hplain : d.root.hasPlainKeys = true) (hdistinct : d.root.value.hasDistinctKeys = true) :
    (∀ e ∈ d.places, (Positions.scan d.text d.root.value).get? e.1 = e.2) ↔
      d.root.keepsColons = true := by
  have hroot : d.root.isWellFormed = true := by
    simp only [Document.isWellFormed, Bool.and_eq_true] at h
    exact h.1.2
  -- every place occurs once, so a look-up tells what is recorded for it
  have hpointers : (d.places.map (·.1)).Nodup := by
    rw [Document.places, Spelling.map_places hroot]
    exact Value.nodup_pointers "" hdistinct
  have hsame : (Positions.scan d.text d.root.value).map (·.1) = (ofPlaces d.places).map (·.1) :=
    Spelling.map_locate hroot "" _ d.before
  rw [← Document.scan_eq_iff h hplain]
  constructor
  · intro hexact
    refine Positions.eq_of_get? hsame ?_ fun e he => hexact _ (mem_ofPlaces.1 he)
    rw [← hsame]
    exact Positions.nodup_scan _ hdistinct
  · intro heq e he
    rw [heq, get?_ofPlaces hpointers he]

/-- Every text that is read is the text of some document, and if no object in it repeats a key and
every key is plain, all its keys and elements have exactly the positions that they should have if
and only if every key has its colon on the line where it ends. -/
theorem scan_exact_iff {text : String} {v : Value} (h : read text = some v) :
    (∃ d : Document, d.Denotes text v) ∧
      ∀ d : Document, d.Denotes text v → d.root.value.hasDistinctKeys = true →
        d.root.hasPlainKeys = true →
        ((∀ e ∈ d.places, (Positions.scan text v).get? e.1 = e.2) ↔ d.root.keepsColons = true) := by
  refine ⟨exists_document_of_read h, fun d hd hdistinct hplain => ?_⟩
  obtain ⟨hwell, rfl, hvalue⟩ := hd
  rw [← hvalue hdistinct]
  exact Document.get?_scan_iff hwell hplain hdistinct

/-- An object whose only key has its colon on the next line. -/
def astrayDocument : Document :=
  ⟨[], .object []
    (.cons [] ['a'] "a" ['\n'] [' '] (.word ['t', 'r', 'u', 'e'] (.bool true)) [] .nil), []⟩

/-- The key in it is read, and does not have its own position. -/
theorem astray_of_line_break :
    read astrayDocument.text = some (.object [("a", .bool true)]) ∧
      ¬ ∀ e ∈ astrayDocument.places,
        (Positions.scan astrayDocument.text (.object [("a", .bool true)])).get? e.1 = e.2 := by
  have hread : read astrayDocument.text = some (.object [("a", .bool true)]) := by
    rw [Document.text, read, String.toList_ofList]
    rfl
  have hdenotes : astrayDocument.Denotes astrayDocument.text (.object [("a", .bool true)]) :=
    ⟨by decide, rfl, fun _ => rfl⟩
  refine ⟨hread, fun hexact => ?_⟩
  have hiff := (scan_exact_iff hread).2 astrayDocument hdenotes (by decide) (by decide)
  have hcolons := hiff.1 hexact
  exact absurd hcolons (by decide)

end Json

end StreamConfig
