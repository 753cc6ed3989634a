import StreamConfig.Proofs.Document.Cuts
import StreamConfig.Proofs.Json.Exactness

/-! # Keys are not located in strings

A JSON text is cut at its quotes into keys, strings and what stands between them. Whatever is
written in a string, no key is located there as long as no key of the document holds a quote or
ends in a character behind which a token starts.
* `Spelling.strings` — the strings of a spelling, with the text before each of them
* `Spelling.cut` — the cut of a spelling, by induction on it
* `scan_apart_from_strings` — every text that is read
* `led_into_string` — a key that ends in a colon leads the search into the string behind it
-/

namespace StreamConfig.Json

mutual

/-- The strings among the values of a spelling, given the text before it. -/
def Spelling.strings (behind : List Char) : Spelling → List Quoted
  | .word .. => []
  | .quoted body _ => [⟨behind, body⟩]
  | .array gap items => items.strings (behind ++ '[' :: gap)
  | .object gap members => members.strings (behind ++ '\x7b' :: gap)

def Items.strings (behind : List Char) : Items → List Quoted
  | .nil => []
  | .cons before v after rest =>
    let start := behind ++ before
    v.strings start ++ rest.strings (start ++ v.text ++ (after ++ rest.comma))

def Members.strings (behind : List Char) : Members → List Quoted
  | .nil => []
  | .cons before written _ gap between v after rest =>
    let own := behind ++ before ++ '"' :: (written ++ ['"'])
    let start := own ++ (gap ++ ':' :: between)
    v.strings start ++ rest.strings (start ++ v.text ++ (after ++ rest.comma))

end

def Document.strings (d : Document) : List Quoted := d.root.strings d.before

/-! ## Cuts of spellings -/

theorem isBare_spaces {gap : List Char} (hgap : gap.all isSpace = true) :
    ∀ c ∈ gap, isBare c = true :=
  fun c hc => (free_of_spaces hgap c hc).1

/-- The blanks behind a value and the comma, if there is one. -/
theorem cut_separated {behind after comma rest : List Char} {strings : List Quoted}
    (hafter : after.all isSpace = true) (hcomma : comma = [] ∨ comma = [','])
    (h : Cut (behind ++ (after ++ comma)) rest strings) :
    Cut behind (after ++ (comma ++ rest)) strings := by
  rw [← List.append_assoc after]
  refine .bares (List.forall_mem_append.2 ⟨isBare_spaces hafter, ?_⟩) h
  rcases hcomma with rfl | rfl
  · simp
  · exact List.forall_mem_singleton.2 rfl

theorem startsToken_separated {behind after comma : List Char} (hcomma : comma = [] ∨ comma = [','])
    (hne : comma ≠ []) : StartsToken (behind ++ (after ++ comma)) := by
  obtain rfl := hcomma.resolve_left hne
  rw [← List.append_assoc]
  exact startsToken_snoc _ rfl

mutual

theorem Spelling.cut {l : Spelling} (h : l.isWellFormed = true) {behind rest : List Char}
    {strings : List Quoted} (hstart : StartsToken behind) (hrest : isColonFree rest = true)
    (hcut : Cut (behind ++ l.text) rest strings) :
    Cut behind (l.text ++ rest) (l.strings behind ++ strings) := by
  cases l with
  | word chars v =>
    simp only [Spelling.isWellFormed, Bool.and_eq_true, List.all_eq_true] at h
    exact .bares (fun c hc => isBare_of_isWordChar (h.1.2 c hc)) hcut
  | quoted body s =>
    -- no colon follows a string on its line
    have htext : (Spelling.quoted body s).text ++ rest = '"' :: (body ++ '"' :: rest) := by
      simp [Spelling.text]
    rw [htext]
    exact .string hstart h (isBeforeColon_eq_false hrest) hcut
  | array gap items =>
    obtain ⟨hgap, hitems⟩ := Bool.and_eq_true_iff.1 h
    have hclose : isColonFree (']' :: rest) = true := isColonFree_cons (by decide) hrest
    have hbehind : Cut (behind ++ '[' :: gap ++ items.text) (']' :: rest) strings :=
      .bare rfl (by simpa [Spelling.text] using hcut)
    have hopened : StartsToken (behind ++ '[' :: gap) := by
      rw [List.append_cons]
      exact startsToken_spaces (startsToken_snoc behind rfl) hgap
    have hinside := Items.cut hitems (fun _ => hopened) hclose hbehind
    have htext : (Spelling.array gap items).text ++ rest =
        ('[' :: gap) ++ (items.text ++ ']' :: rest) := by
      simp [Spelling.text]
    rw [htext]
    exact .bares (List.forall_mem_cons.2 ⟨rfl, isBare_spaces hgap⟩) hinside
  | object gap members =>
    obtain ⟨hgap, hmembers⟩ := Bool.and_eq_true_iff.1 h
    have hclose : isColonFree ('\x7d' :: rest) = true := isColonFree_cons (by decide) hrest
    have hbehind : Cut (behind ++ '\x7b' :: gap ++ members.text) ('\x7d' :: rest) strings :=
      .bare rfl (by simpa [Spelling.text] using hcut)
    have hopened : StartsToken (behind ++ '\x7b' :: gap) := by
      rw [List.append_cons]
      exact startsToken_spaces (startsToken_snoc behind rfl) hgap
    have hinside := Members.cut hmembers (fun _ => hopened) hclose hbehind
    have htext : (Spelling.object gap members).text ++ rest =
        ('\x7b' :: gap) ++ (members.text ++ '\x7d' :: rest) := by
      simp [Spelling.text]
    rw [htext]
    exact .bares (List.forall_mem_cons.2 ⟨rfl, isBare_spaces hgap⟩) hinside

theorem Items.cut {items : Items} (h : items.areWellFormed = true) {behind rest : List Char}
    {strings : List Quoted} (hstart : items.comma ≠ [] → StartsToken behind)
    (hrest : isColonFree rest = true) (hcut : Cut (behind ++ items.text) rest strings) :
    Cut behind (items.text ++ rest) (items.strings behind ++ strings) := by
  cases items with
  | nil => simpa [Items.text, Items.strings] using hcut
  | cons before v after others =>
    simp only [Items.areWellFormed, Bool.and_eq_true] at h
    obtain ⟨⟨⟨hbefore, hv⟩, hafter⟩, hothers⟩ := h
    have hfree := Items.isColonFree_text hothers hrest
    have hmore := isColonFree_separator hafter others.comma_eq hfree
    -- from behind: the other items, the separator, the value and the blanks before it
    have hcutEnd : Cut (behind ++ before ++ v.text ++ (after ++ others.comma) ++ others.text)
        rest strings := by
      simpa [Items.text] using hcut
    have hcutOthers := Items.cut hothers (startsToken_separated others.comma_eq) hrest hcutEnd
    have hcutValue := Spelling.cut hv (startsToken_spaces (hstart (List.cons_ne_nil _ _)) hbefore)
      hmore (cut_separated hafter others.comma_eq hcutOthers)
    have htext : (Items.cons before v after others).text ++ rest =
        before ++ (v.text ++ (after ++ (others.comma ++ (others.text ++ rest)))) := by
      simp [Items.text]
    rw [htext, Items.strings, List.append_assoc (Spelling.strings _ v)]
    exact .bares (isBare_spaces hbefore) hcutValue

theorem Members.cut {members : Members} (h : members.areWellFormed = true)
    {behind rest : List Char} {strings : List Quoted}
    (hstart : members.comma ≠ [] → StartsToken behind) (hrest : isColonFree rest = true)
    (hcut : Cut (behind ++ members.text) rest strings) :
    Cut behind (members.text ++ rest) (members.strings behind ++ strings) := by
  cases members with
  | nil => simpa [Members.text, Members.strings] using hcut
  | cons before written key gap between v after others =>
    simp only [Members.areWellFormed, Bool.and_eq_true] at h
    obtain ⟨⟨⟨⟨⟨⟨⟨hbefore, hbody⟩, -⟩, hgap⟩, hbetween⟩, hv⟩, hafter⟩, hothers⟩ := h
    have hfree := Members.isColonFree_text hothers hrest
    have hmore := isColonFree_separator hafter others.comma_eq hfree
    have hstartHere := startsToken_spaces (hstart (List.cons_ne_nil _ _)) hbefore
    have hstartValue : StartsToken
        (behind ++ before ++ '"' :: (written ++ ['"']) ++ (gap ++ ':' :: between)) := by
      rw [List.append_cons gap, ← List.append_assoc, ← List.append_assoc]
      exact startsToken_spaces (startsToken_snoc _ rfl) hbetween
    have hcutEnd : Cut (behind ++ before ++ '"' :: (written ++ ['"']) ++ (gap ++ ':' :: between) ++
        v.text ++ (after ++ others.comma) ++ others.text) rest strings := by
      simpa [Members.text] using hcut
    have hcutOthers := Members.cut hothers (startsToken_separated others.comma_eq) hrest hcutEnd
    have hcutValue := Spelling.cut hv hstartValue hmore
      (cut_separated hafter others.comma_eq hcutOthers)
    have hcolon : ∀ c ∈ gap ++ ':' :: between, isBare c = true :=
      List.forall_mem_append.2 ⟨isBare_spaces hgap,
        List.forall_mem_cons.2 ⟨rfl, isBare_spaces hbetween⟩⟩
    have hcutKey := Cut.key hstartHere hbody (.bares hcolon hcutValue)
    have htext : (Members.cons before written key gap between v after others).text ++ rest =
        before ++ '"' :: (written ++ '"' :: ((gap ++ ':' :: between) ++
          (v.text ++ (after ++ (others.comma ++ (others.text ++ rest)))))) := by
      simp [Members.text]
    rw [htext, Members.strings, List.append_assoc (Spelling.strings _ v)]
    exact .bares (isBare_spaces hbefore) hcutKey

end

theorem Document.cut {d : Document} (h : d.isWellFormed = true) :
    Cut [] d.text.toList d.strings := by
  simp only [Document.isWellFormed, Bool.and_eq_true] at h
  obtain ⟨⟨hbefore, hroot⟩, hafter⟩ := h
  have hfree : isColonFree d.after = true := by
    rw [← List.append_nil d.after]
    exact isColonFree_spaces hafter rfl
  have hend : Cut (d.before ++ d.root.text) d.after [] := by
    rw [← List.append_nil d.after]
    exact .bares (isBare_spaces hafter) (.nil _)
  have hcut := Spelling.cut hroot (startsToken_spaces startsToken_nil hbefore) hfree hend
  rw [Document.text, String.toList_ofList, List.append_assoc]
  rw [List.append_nil] at hcut
  exact .bares (isBare_spaces hbefore) hcut

/-! ## Whole documents -/

/-- A spelling that is no string starts with a bare character. -/
theorem exists_bare_of_text {l : Spelling} (h : l.isWellFormed = true)
    (hquoted : ∀ body s, l ≠ .quoted body s) : ∃ c cs, l.text = c :: cs ∧ isBare c = true := by
  cases l with
  | word chars v =>
    simp only [Spelling.isWellFormed, Bool.and_eq_true, Bool.not_eq_true', List.all_eq_true] at h
    cases chars with
    | nil => simp at h
    | cons c cs => exact ⟨c, cs, rfl, isBare_of_isWordChar (h.1.2 c List.mem_cons_self)⟩
  | quoted body s => exact absurd rfl (hquoted body s)
  | array gap items => exact ⟨_, _, rfl, rfl⟩
  | object gap members => exact ⟨_, _, rfl, rfl⟩

/-- The trail at the start of a document. -/
theorem Document.isOutside_start {d : Document} (h : d.isWellFormed = true)
    (hquoted : ∀ body s, d.root ≠ .quoted body s) :
    (Trail.start d.text).IsOutside d.strings := by
  have hcut := Document.cut h
  refine ⟨⟨[], d.text.toList, d.strings, hcut, fun q hq => .inl hq, fun _ => rfl⟩, ?_⟩
  simp only [Document.isWellFormed, Bool.and_eq_true] at h
  obtain ⟨c, cs, hroot, hc⟩ := exists_bare_of_text h.1.2 hquoted
  obtain ⟨c', cs', htext, hc'⟩ : ∃ c' cs', d.text.toList = c' :: cs' ∧ isBare c' = true := by
    rw [Document.text, String.toList_ofList, hroot]
    cases hbefore : d.before with
    | nil => exact ⟨c, cs ++ d.after, rfl, hc⟩
    | cons b before => exact ⟨b, _, rfl, isBare_spaces h.1.1 b (by simp [hbefore])⟩
  rw [htext] at hcut
  exact fun q hq => Quoted.not_holds_of_isApart (hcut.isApart hc' q hq)

/-- Every text that is read is the text of some document, and if every key of the value holds no
quote and does not end in a blank, an opening bracket, a comma or a colon, then no key and no
element has its position in a string of the document. -/
theorem scan_apart_from_strings {text : String} {v : Value} (h : read text = some v)
    (hkeys : v.allKeys (fun k => keepsShut k.toList) = true) :
    (∃ d : Document, d.Denotes text v) ∧
      ∀ d : Document, d.Denotes text v →
        ∀ e ∈ Positions.scan text v, ∀ q ∈ d.strings, ¬ q.Holds e.2 := by
  refine ⟨exists_document_of_read h, fun d hd => ?_⟩
  obtain ⟨hwell, rfl, hvalue⟩ := hd
  by_cases hquoted : ∃ body s, d.root = .quoted body s
  · -- a text that is a string has no keys
    obtain ⟨body, s, hroot⟩ := hquoted
    have hv : v = .string s := by
      rw [← hvalue (by rw [hroot]; rfl), hroot]
      rfl
    rw [hv]
    exact fun _ he => nomatch he
  · have hroot : ∀ body s, d.root ≠ .quoted body s :=
      fun body s heq => hquoted ⟨body, s, heq⟩
    exact Trail.isOutside_locate (Document.isOutside_start hwell hroot) "" hkeys

/-- A key, a string behind it that holds what looks like a second key, and the second key. -/
def beforeString (key : String) : Document :=
  ⟨[], .object []
    (.cons [] key.toList key [] [] (.quoted [' ', 'x', ':', ' ', '1'] " x: 1") []
      (.cons [] ['x'] "x" [] [] (.word ['2'] (.number (.int 2))) [] .nil)), []⟩

/-- With a letter at the end of the first key the string is passed over. -/
theorem scan_apart_from_strings_letter :
    let v : Value := .object [("a", .string " x: 1"), ("x", .number (.int 2))]
    (read (beforeString "a").text = some v ∧ v.allKeys (fun k => keepsShut k.toList) = true) ∧
      ∀ e ∈ Positions.scan (beforeString "a").text v, ∀ q ∈ (beforeString "a").strings,
        ¬ q.Holds e.2 := by
  intro v
  have hread : read (beforeString "a").text = some v := by
    rw [Document.text, read, String.toList_ofList]
    rfl
  have hkeys : v.allKeys (fun k => keepsShut k.toList) = true := by decide
  have hdenotes : (beforeString "a").Denotes (beforeString "a").text v :=
    ⟨by decide, rfl, fun _ => rfl⟩
  exact ⟨⟨hread, hkeys⟩, (scan_apart_from_strings hread hkeys).2 _ hdenotes⟩

/-- With a colon at its end the second key is located in the string. -/
theorem led_into_string :
    read (beforeString "a:").text =
        some (.object [("a:", .string " x: 1"), ("x", .number (.int 2))]) ∧
      ∃ p, (Positions.scan (beforeString "a:").text
          (.object [("a:", .string " x: 1"), ("x", .number (.int 2))])).get? "/x" = some p ∧
        ∃ q ∈ (beforeString "a:").strings, q.Holds p := by
  refine ⟨?_, ⟨1, 9⟩, ?_, ⟨_, [' ', 'x', ':', ' ', '1']⟩, List.mem_singleton_self _, ['"', ' '], ?_⟩
  · rw [Document.text, read, String.toList_ofList]
    rfl
  · rfl
  · exact ⟨by decide, rfl⟩

end StreamConfig.Json
