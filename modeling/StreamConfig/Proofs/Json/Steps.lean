import StreamConfig.Proofs.Json.Words

/-! # What one step of the reader does

Everything that a reader of values, items or entries can have done when it gives something, so that
no other proof opens these readers:
* `ItemsStep`, `EntriesStep` — one item or entry, and what comes behind it
* `ValueStep` — one value, the arrays and objects in it being read one level deeper
-/

namespace StreamConfig.Json

/-- A reader of values, which may give up. -/
abbrev ValueReader := List Char → Option (Value × List Char)

/-- One item has been read, and then the other ones or the closing bracket. -/
inductive ItemsStep (one : ValueReader) (rounds : Nat) (cs : List Char) :
    List Value → List Char → Prop
  | more {v vs left ds rest} : one (skipSpace cs) = some (v, left) → skipSpace left = ',' :: ds →
      itemsRest one rounds ds = some (vs, rest) → ItemsStep one rounds cs (v :: vs) rest
  | last {v left rest} : one (skipSpace cs) = some (v, left) → skipSpace left = ']' :: rest →
      ItemsStep one rounds cs [v] rest

/-- A key, its colon and its value have been read, and then the other entries or the closing
brace. -/
inductive EntriesStep (one : ValueReader) (rounds : Nat) (cs : List Char) :
    Entries → List Char → Prop
  | more {quoted k behindKey behindColon v left es ds rest} : skipSpace cs = '"' :: quoted →
      stringRest [] quoted = some (k, behindKey) → skipSpace behindKey = ':' :: behindColon →
      one (skipSpace behindColon) = some (v, left) → skipSpace left = ',' :: ds →
      entriesRest one rounds ds = some (es, rest) → EntriesStep one rounds cs ((k, v) :: es) rest
  | last {quoted k behindKey behindColon v left rest} : skipSpace cs = '"' :: quoted →
      stringRest [] quoted = some (k, behindKey) → skipSpace behindKey = ':' :: behindColon →
      one (skipSpace behindColon) = some (v, left) → skipSpace left = '\x7d' :: rest →
      EntriesStep one rounds cs [(k, v)] rest

/-- One value has been read with this much room for arrays and objects. -/
inductive ValueStep (room : Nat) : List Char → Value → List Char → Prop
  | word {chars v rest} : chars ≠ [] → chars.all isWordChar = true → isWord v = true →
      ValueStep room (chars ++ rest) v rest
  | string {cs s rest} : stringRest [] cs = some (s, rest) →
      ValueStep room ('"' :: cs) (.string s) rest
  | emptyArray {cs rest} : skipSpace cs = ']' :: rest → ValueStep room ('[' :: cs) (.array []) rest
  | array {inner rounds cs vs rest} : inner < room →
      itemsRest (value inner) rounds (skipSpace cs) = some (vs, rest) →
      ValueStep room ('[' :: cs) (.array vs) rest
  | emptyObject {cs rest} : skipSpace cs = '\x7d' :: rest →
      ValueStep room ('\x7b' :: cs) (.object []) rest
  | object {inner rounds cs es rest} : inner < room →
      entriesRest (value inner) rounds (skipSpace cs) = some (es, rest) →
      ValueStep room ('\x7b' :: cs) (.object (Entries.ofList es)) rest

theorem itemsStep {one : ValueReader} {rounds : Nat} {cs rest : List Char} {vs : List Value}
    (h : itemsRest one (rounds + 1) cs = some (vs, rest)) : ItemsStep one rounds cs vs rest := by
  rw [itemsRest] at h
  obtain ⟨⟨v, left⟩, hv, h⟩ := Option.bind_eq_some_iff.1 h
  dsimp only at h
  split at h
  next ds hcomma =>
    obtain ⟨⟨ws, _⟩, hws, h⟩ := Option.bind_eq_some_iff.1 h
    cases h
    exact .more hv hcomma hws
  next ds hclose =>
    cases h
    exact .last hv hclose
  next => cases h

theorem entriesStep {one : ValueReader} {rounds : Nat} {cs rest : List Char} {es : Entries}
    (h : entriesRest one (rounds + 1) cs = some (es, rest)) :
    EntriesStep one rounds cs es rest := by
  rw [entriesRest] at h
  split at h
  next quoted hquote =>
    obtain ⟨⟨k, behindKey⟩, hk, h⟩ := Option.bind_eq_some_iff.1 h
    dsimp only at h
    split at h
    next behindColon hcolon =>
      obtain ⟨⟨v, left⟩, hv, h⟩ := Option.bind_eq_some_iff.1 h
      dsimp only at h
      split at h
      next ds hcomma =>
        obtain ⟨⟨fs, _⟩, hfs, h⟩ := Option.bind_eq_some_iff.1 h
        cases h
        exact .more hquote hk hcolon hv hcomma hfs
      next ds hclose =>
        cases h
        exact .last hquote hk hcolon hv hclose
      next => cases h
    next => cases h
  next => cases h

/-- The words that have a value of their own. -/
theorem valueStep_of_expect {room : Nat} {c : Char} {word cs rest : List Char} {v w : Value}
    (h : (expect word cs).map (w, ·) = some (v, rest)) (hc : isWordChar c = true)
    (hword : word.all isWordChar = true) (hw : isWord w = true) :
    ValueStep room (c :: cs) v rest := by
  obtain ⟨_, hleft, hv⟩ := Option.map_eq_some_iff.1 h
  cases hv
  rw [exists_word_of_expect hleft, ← List.cons_append]
  exact .word (List.cons_ne_nil _ _) (by simp [hc, hword]) hw

theorem valueStep {room : Nat} {cs rest : List Char} {v : Value}
    (h : value room cs = some (v, rest)) : ValueStep room cs v rest := by
  unfold value at h
  split at h
  next => cases h
  next ds =>
    obtain ⟨⟨s, _⟩, hs, hv⟩ := Option.map_eq_some_iff.1 h
    cases hv
    exact .string hs
  next ds =>
    split at h
    next => cases h
    next inner =>
      split at h
      next hclose =>
        cases h
        exact .emptyArray hclose
      next =>
        obtain ⟨⟨vs, _⟩, hvs, hv⟩ := Option.map_eq_some_iff.1 h
        cases hv
        exact .array (Nat.lt_succ_self inner) hvs
  next ds =>
    split at h
    next => cases h
    next inner =>
      split at h
      next hclose =>
        cases h
        exact .emptyObject hclose
      next =>
        obtain ⟨⟨es, _⟩, hes, hv⟩ := Option.map_eq_some_iff.1 h
        cases hv
        exact .object (Nat.lt_succ_self inner) hes
  next => exact valueStep_of_expect h (by decide) (by decide) rfl
  next => exact valueStep_of_expect h (by decide) (by decide) rfl
  next => exact valueStep_of_expect h (by decide) (by decide) rfl
  next =>
    obtain ⟨⟨n, _⟩, hn, hv⟩ := Option.map_eq_some_iff.1 h
    cases hv
    obtain ⟨chars, rfl, hne, hchars⟩ := exists_word_of_number hn
    exact .word hne hchars rfl

end StreamConfig.Json
