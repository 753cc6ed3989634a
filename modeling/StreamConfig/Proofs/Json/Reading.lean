import StreamConfig.Proofs.Json.Steps

/-! # Every text that is read has a spelling

What the reader accepts is the text of a spelling. Each reader takes some characters off the front,
and those characters are the text of a part of it:
* `EndsString` — a string up to its closing quote
* `readsSpellings_value` — a value, by induction on the levels that may still be opened
* `exists_document_of_read` — a whole text; it denotes what is read if no key is repeated
-/

namespace StreamConfig.Json

/-! ## Strings -/

theorem value?_of_number? {cs : List Char} {n : Nat} (h : Text.Hex.number? cs = some n) :
    ∀ c ∈ cs, (Text.Hex.value? c).isSome = true := by
  unfold Text.Hex.number? at h
  generalize some 0 = acc at h
  induction cs generalizing acc with
  | nil => exact fun _ hc => absurd hc List.not_mem_nil
  | cons c cs ih =>
    rw [List.foldl_cons] at h
    refine List.forall_mem_cons.2 ⟨?_, ih _ h⟩
    cases hc : Text.Hex.value? c with
    | some d => rfl
    | none =>
      -- a digit without a value spoils the whole row
      have hspoilt : ∀ ds : List Char, ds.foldl (fun (acc : Option Nat) c => do
          return (← acc) * 16 + (← Text.Hex.value? c)) none = none := by
        intro ds
        induction ds with
        | nil => rfl
        | cons d ds ih => exact ih
      have hnone : (do return (← acc) * 16 + (← (none : Option Nat)) : Option Nat) = none := by
        cases acc <;> rfl
      rw [hc, hnone, hspoilt] at h
      cases h

/-- A row of hexadecimal digits holds no quote and no backslash. -/
theorem isQuotedBody_digits {digits : List Char} {n : Nat}
    (h : Text.Hex.number? digits = some n) (body : List Char) :
    isQuotedBody (digits ++ body) = isQuotedBody body := by
  have hdigits := value?_of_number? h
  clear h
  induction digits with
  | nil => rfl
  | cons c digits ih =>
    have hc := hdigits c List.mem_cons_self
    have hquote : (c != '"') = true := by
      rw [bne_iff_ne]
      rintro rfl
      exact absurd hc (by decide)
    have hslash : c ≠ '\\' := by
      rintro rfl
      exact absurd hc (by decide)
    rw [List.cons_append, isQuotedBody, hquote, Bool.true_and]
    · exact ih fun d hd => hdigits d (List.mem_cons_of_mem _ hd)
    · exact fun heq _ => hslash heq
    · exact fun _ _ heq _ => hslash heq

/-- What is left of a string, `before` having been read of it: a quoted body, which is the rest of
the string itself if there is no backslash in it. -/
def EndsString (before cs rest : List Char) (s : String) : Prop :=
  ∃ body, cs = body ++ '"' :: rest ∧ isQuotedBody body = true ∧
    ('\\' ∉ body → s.toList = before.reverse ++ body)

namespace EndsString

variable {before rest : List Char} {s : String}

theorem closing (before rest : List Char) :
    EndsString before ('"' :: rest) rest (String.ofList before.reverse) :=
  ⟨[], rfl, rfl, fun _ => by simp⟩

theorem escape {done cs : List Char} (escape : List Char)
    (hescape : ∀ body, isQuotedBody ('\\' :: (escape ++ body)) = isQuotedBody body)
    (h : EndsString done cs rest s) : EndsString before ('\\' :: (escape ++ cs)) rest s := by
  obtain ⟨body, rfl, hbody, -⟩ := h
  exact ⟨'\\' :: (escape ++ body), by simp, (hescape body).trans hbody,
    fun hslash => absurd List.mem_cons_self hslash⟩

theorem plain {c : Char} {cs : List Char} (hquote : c ≠ '"') (hslash : c ≠ '\\')
    (h : EndsString (c :: before) cs rest s) : EndsString before (c :: cs) rest s := by
  obtain ⟨body, rfl, hbody, hs⟩ := h
  refine ⟨c :: body, rfl, ?_, fun hmem => ?_⟩
  · rw [isQuotedBody, hbody, Bool.and_true, bne_iff_ne]
    · exact hquote
    · exact fun heq _ => hslash heq
    · exact fun _ _ heq _ => hslash heq
  · rw [hs (List.ne_and_not_mem_of_not_mem_cons hmem).2]
    simp

end EndsString

theorem endsString_of_stringRest {before cs rest : List Char} {s : String}
    (h : stringRest before cs = some (s, rest)) : EndsString before cs rest s := by
  induction before, cs using stringRest.induct with
  | case1 => cases h
  | case2 before cs =>
    cases h
    exact .closing before rest
  | case3 before a b c d cs hnone =>
    rw [stringRest, hnone] at h
    cases h
  | case4 before a b c d n hn hhigh e f g i cs hnone =>
    rw [stringRest, hn] at h
    simp [hhigh, hnone] at h
  | case5 before a b c d n hn hhigh e f g i cs m hm hlow ih =>
    rw [stringRest, hn] at h
    simp only [hhigh, hm, hlow, if_true] at h
    refine (ih h).escape ('u' :: a :: b :: c :: d :: '\\' :: 'u' :: [e, f, g, i]) fun body => ?_
    exact (isQuotedBody_digits hn ('\\' :: 'u' :: e :: f :: g :: i :: body)).trans
      (isQuotedBody_digits hm body)
  | case6 before a b c d n hn hhigh e f g i cs m hm hlow =>
    rw [stringRest, hn] at h
    simp [hhigh, hm, hlow] at h
  | case7 before a b c d cs n hn hhigh hlone =>
    rw [stringRest, hn] at h
    simp only [hhigh, if_true] at h
    cases h
  | case8 before a b c d cs n hn hhigh hlow =>
    rw [stringRest, hn] at h
    simp [hhigh, hlow] at h
  | case9 before a b c d cs n hn hhigh hlow ih =>
    rw [stringRest, hn] at h
    simp only [hhigh, hlow] at h
    exact (ih h).escape ('u' :: [a, b, c, d]) (isQuotedBody_digits hn)
  | case10 before c cs hunicode hnone =>
    rw [stringRest, hnone] at h
    · cases h
    · exact hunicode
  | case11 before c cs hunicode e he ih =>
    rw [stringRest, he] at h
    · exact (ih h).escape [c] fun _ => rfl
    · exact hunicode
  | case12 before c cs hquote hunicode hescape hbad =>
    rw [stringRest, if_pos hbad] at h
    · cases h
    · exact hquote
    · exact hunicode
    · exact hescape
  | case13 before c cs hquote hunicode hescape hgood ih =>
    rw [stringRest, if_neg hgood] at h
    · -- a backslash that starts no escape is refused
      have hslash : c ≠ '\\' := by
        rintro rfl
        exact hgood (Bool.or_true _)
      exact (ih h).plain hquote hslash
    · exact hquote
    · exact hunicode
    · exact hescape

/-! ## Values -/

/-- A value is read off the text of a spelling, which denotes the value if no key is repeated. -/
def Spells (l : Spelling) (cs rest : List Char) (v : Value) : Prop :=
  l.isWellFormed = true ∧ cs = l.text ++ rest ∧ (l.value.hasDistinctKeys = true → l.value = v)

/-- A reader of values that reads nothing but the texts of spellings. -/
def ReadsSpellings (one : ValueReader) : Prop :=
  ∀ {cs rest v}, one cs = some (v, rest) → ∃ l, Spells l cs rest v

theorem exists_spaces (cs : List Char) : ∃ gap, cs = gap ++ skipSpace cs ∧ gap.all isSpace = true :=
  ⟨cs.takeWhile isSpace, List.takeWhile_append_dropWhile.symm, List.all_takeWhile⟩

theorem exists_items_of_itemsRest {one : ValueReader} (hone : ReadsSpellings one) {rounds : Nat}
    {cs rest : List Char} {vs : List Value} (h : itemsRest one rounds cs = some (vs, rest)) :
    ∃ items : Items, items.areWellFormed = true ∧ items ≠ .nil ∧ cs = items.text ++ ']' :: rest ∧
      (Value.itemsHaveDistinctKeys items.values = true → items.values = vs) := by
  induction rounds generalizing cs vs with
  | zero => cases h
  | succ rounds ih =>
    obtain ⟨before, hbefore, hbefore'⟩ := exists_spaces cs
    cases itemsStep h with
    | @more v ws left ds _ hv hcomma hws =>
      obtain ⟨l, hl, htext, hvalue⟩ := hone hv
      obtain ⟨after, hafter, hafter'⟩ := exists_spaces left
      obtain ⟨items, hitems, hne, htext', hvalues⟩ := ih hws
      refine ⟨.cons before l after items, ?_, fun hnil => (by cases hnil), ?_, fun hdistinct => ?_⟩
      · simp [Items.areWellFormed, hl, hitems, hbefore', hafter']
      · rw [hbefore, htext, hafter, hcomma, htext', Items.text, Items.comma_of_ne_nil hne]
        simp
      · obtain ⟨hhere, hthere⟩ := Bool.and_eq_true_iff.1 hdistinct
        rw [Items.values, hvalue hhere, hvalues hthere]
    | @last v left _ hv hclose =>
      obtain ⟨l, hl, htext, hvalue⟩ := hone hv
      obtain ⟨after, hafter, hafter'⟩ := exists_spaces left
      refine ⟨.cons before l after .nil, ?_, fun hnil => (by cases hnil), ?_, fun hdistinct => ?_⟩
      · simp [Items.areWellFormed, hl, hbefore', hafter']
      · rw [hbefore, htext, hafter, hclose, Items.text]
        simp [Items.comma, Items.text]
      · rw [Items.values, hvalue (Bool.and_eq_true_iff.1 hdistinct).1]
        rfl

/-- A key between its quotes, as it is written. -/
theorem exists_written_of_stringRest {cs rest : List Char} {k : String}
    (h : stringRest [] cs = some (k, rest)) :
    ∃ written, cs = written ++ '"' :: rest ∧ isQuotedBody written = true ∧
      (written.contains '\\' || k.toList == written) = true := by
  obtain ⟨written, hquoted, hwritten, hplain⟩ := endsString_of_stringRest h
  refine ⟨written, hquoted, hwritten, ?_⟩
  by_cases hslash : '\\' ∈ written
  · rw [List.contains_iff_mem.2 hslash, Bool.true_or]
  · rw [hplain hslash]
    simp

theorem exists_members_of_entriesRest {one : ValueReader} (hone : ReadsSpellings one)
    {rounds : Nat} {cs rest : List Char} {es : Entries}
    (h : entriesRest one rounds cs = some (es, rest)) :
    ∃ members : Members, members.areWellFormed = true ∧ members ≠ .nil ∧
      cs = members.text ++ '\x7d' :: rest ∧
      (Value.entriesHaveDistinctKeys members.entries = true → members.entries = es) := by
  induction rounds generalizing cs es with
  | zero => cases h
  | succ rounds ih =>
    obtain ⟨before, hbefore, hbefore'⟩ := exists_spaces cs
    cases entriesStep h with
    | @more quoted k behindKey behindColon v left fs ds _ hquote hk hcolon hv hcomma hfs =>
      obtain ⟨written, hquoted, hwritten, hkey⟩ := exists_written_of_stringRest hk
      obtain ⟨gap, hgap, hgap'⟩ := exists_spaces behindKey
      obtain ⟨between, hbetween, hbetween'⟩ := exists_spaces behindColon
      obtain ⟨l, hl, htext, hvalue⟩ := hone hv
      obtain ⟨after, hafter, hafter'⟩ := exists_spaces left
      obtain ⟨members, hmembers, hne, htext', hentries⟩ := ih hfs
      refine ⟨.cons before written k gap between l after members, ?_,
        fun hnil => (by cases hnil), ?_, fun hdistinct => ?_⟩
      · simp only [Members.areWellFormed, hl, hmembers, hwritten, hbefore', hgap', hbetween',
          hafter', hkey, Bool.and_self]
      · rw [hbefore, hquote, hquoted, hgap, hcolon, hbetween, htext, hafter, hcomma, htext',
          Members.text, Members.comma_of_ne_nil hne]
        simp
      · obtain ⟨hhere, hthere⟩ := Bool.and_eq_true_iff.1 hdistinct
        rw [Members.entries, hvalue hhere, hentries hthere]
    | @last quoted k behindKey behindColon v left _ hquote hk hcolon hv hclose =>
      obtain ⟨written, hquoted, hwritten, hkey⟩ := exists_written_of_stringRest hk
      obtain ⟨gap, hgap, hgap'⟩ := exists_spaces behindKey
      obtain ⟨between, hbetween, hbetween'⟩ := exists_spaces behindColon
      obtain ⟨l, hl, htext, hvalue⟩ := hone hv
      obtain ⟨after, hafter, hafter'⟩ := exists_spaces left
      refine ⟨.cons before written k gap between l after .nil, ?_,
        fun hnil => (by cases hnil), ?_, fun hdistinct => ?_⟩
      · simp only [Members.areWellFormed, hl, hwritten, hbefore', hgap', hbetween', hafter',
          hkey, Bool.and_self]
      · rw [hbefore, hquote, hquoted, hgap, hcolon, hbetween, htext, hafter, hclose, Members.text]
        simp [Members.comma, Members.text]
      · rw [Members.entries, hvalue (Bool.and_eq_true_iff.1 hdistinct).1]
        rfl

/-- Entries with different keys are what is written one after the other. -/
theorem ofList_of_nodup {es : Entries} (h : (Entries.keys es).Nodup) : Entries.ofList es = es := by
  suffices hwrite : ∀ m : Entries, (Entries.keys (m ++ es)).Nodup →
      es.foldl (fun m e => Entries.insert m e.1 e.2) m = m ++ es from hwrite [] h
  clear h
  induction es with
  | nil => exact fun m _ => (List.append_nil m).symm
  | cons e es ih =>
    intro m hm
    have hnew : ¬ Entries.contains m e.1 = true := by
      rw [Entries.contains_iff]
      intro hmem
      rw [Entries.keys, List.map_append] at hm
      exact (List.nodup_append.1 hm).2.2 e.1 hmem e.1 List.mem_cons_self rfl
    rw [List.foldl_cons, Entries.insert, if_neg hnew, ih, List.append_assoc]
    · rfl
    · rwa [List.append_assoc]

/-- By induction on the levels that may still be opened: what is read as a value is a spelling. -/
theorem readsSpellings_value (room : Nat) : ReadsSpellings (value room) := by
  induction room using Nat.strongRecOn with
  | ind room ih =>
    intro cs rest v h
    cases valueStep h with
    | @word chars _ _ hne hchars hv =>
      exact ⟨.word chars v, by simp [Spelling.isWellFormed, hne, hchars, hv], rfl, fun _ => rfl⟩
    | @string ds s _ hs =>
      obtain ⟨body, rfl, hbody, -⟩ := endsString_of_stringRest hs
      exact ⟨.quoted body s, hbody, by simp [Spelling.text], fun _ => rfl⟩
    | @emptyArray ds _ hclose =>
      obtain ⟨gap, hgap, hgap'⟩ := exists_spaces ds
      refine ⟨.array gap .nil, ?_, ?_, fun _ => rfl⟩
      · simp [Spelling.isWellFormed, Items.areWellFormed, hgap']
      · rw [hgap, hclose, Spelling.text, Items.text]
        simp
    | @array inner rounds ds vs _ hinner hvs =>
      obtain ⟨gap, hgap, hgap'⟩ := exists_spaces ds
      obtain ⟨items, hitems, -, htext, hvalues⟩ := exists_items_of_itemsRest (ih inner hinner) hvs
      refine ⟨.array gap items, ?_, ?_, fun hdistinct => ?_⟩
      · simp [Spelling.isWellFormed, hitems, hgap']
      · rw [hgap, htext, Spelling.text]
        simp
      · rw [Spelling.value, hvalues hdistinct]
    | @emptyObject ds _ hclose =>
      obtain ⟨gap, hgap, hgap'⟩ := exists_spaces ds
      refine ⟨.object gap .nil, ?_, ?_, fun _ => rfl⟩
      · simp [Spelling.isWellFormed, Members.areWellFormed, hgap']
      · rw [hgap, hclose, Spelling.text, Members.text]
        simp
    | @object inner rounds ds es _ hinner hes =>
      obtain ⟨gap, hgap, hgap'⟩ := exists_spaces ds
      obtain ⟨members, hmembers, -, htext, hentries⟩ :=
        exists_members_of_entriesRest (ih inner hinner) hes
      refine ⟨.object gap members, ?_, ?_, fun hdistinct => ?_⟩
      · simp [Spelling.isWellFormed, hmembers, hgap']
      · rw [hgap, htext, Spelling.text]
        simp
      · -- without repeated keys nothing is overwritten
        obtain ⟨hkeys, hinside⟩ := Bool.and_eq_true_iff.1 hdistinct
        have heq := hentries hinside
        rw [Spelling.value, ← heq, ofList_of_nodup (of_decide_eq_true hkeys)]

/-- The text of a document, which denotes the value if no key is repeated. -/
structure Document.Denotes (d : Document) (text : String) (v : Value) : Prop where
  isWellFormed : d.isWellFormed = true
  text : d.text = text
  value : d.root.value.hasDistinctKeys = true → d.root.value = v

/-- Every text that is read is the text of a document. -/
theorem exists_document_of_read {text : String} {v : Value} (h : read text = some v) :
    ∃ d : Document, d.Denotes text v := by
  unfold read at h
  split at h
  next w left hw =>
    obtain ⟨l, hl, htext, hvalue⟩ := readsSpellings_value maxNesting hw
    obtain ⟨before, hbefore, hbefore'⟩ := exists_spaces text.toList
    obtain ⟨after, hafter, hafter'⟩ := exists_spaces left
    split at h
    next hempty =>
      cases h
      have hleft : left = after := by rw [hafter, List.isEmpty_iff.1 hempty, List.append_nil]
      refine ⟨⟨before, l, after⟩, ?_, ?_, hvalue⟩
      · simp [Document.isWellFormed, hbefore', hl, hafter']
      · rw [Document.text, List.append_assoc, ← hleft, ← htext, ← hbefore, String.ofList_toList]
    next => cases h
  next => cases h

end StreamConfig.Json
