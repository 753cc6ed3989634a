import StreamConfig.Proofs.Schema.Resolution
import StreamConfig.Proofs.Text.ByteOrder

/-! # The rules of denotation

What a block denotes is found by a search over its keys that stops early. Here are the rules which
that search follows, each with the condition under which it applies, and no order in which they
are tried.
* `Registry.KeysDenote` — what a list of keys denotes
* `Registry.Denotes` — what a block denotes
* `resolve_denotes` — resolution answers as the rules say and not otherwise
-/

namespace StreamConfig

namespace Text

/-- The same texts in the order of their bytes. -/
def InByteOrder (names sorted : List String) : Prop :=
  sorted.Perm names ∧ sorted.Pairwise fun a b => ¬ bytes b < bytes a

/-- Bytes in order are those of texts in order. -/
theorem not_bytes_lt_iff {a b : String} : ¬ bytes b < bytes a ↔ a ≤ b := by
  constructor
  · intro h
    exact String.not_lt.1 fun hlt => h (bytes_lt hlt)
  · intro hle hlt
    rcases lt_or_eq_of_le hle with hbefore | rfl
    · exact List.lt_asymm (bytes_lt hbefore) hlt
    · exact List.lt_irrefl _ hlt

theorem inByteOrder_iff {names sorted : List String} :
    InByteOrder names sorted ↔ sorted = sortTexts names := by
  have hsorted : (sortTexts names).Pairwise fun a b => a ≤ b :=
    pairwise_sortBy_le (fun s => s) names
  have hperm : (sortTexts names).Perm names := perm_sortBy _ names
  simp only [InByteOrder, not_bytes_lt_iff]
  constructor
  · rintro ⟨hsame, horder⟩
    refine List.Perm.eq_of_pairwise ?_ horder hsorted (hsame.trans hperm.symm)
    exact fun a b _ _ hab hba => String.le_antisymm hab hba
  · rintro rfl
    exact ⟨hperm, hsorted⟩

/-- Two texts in order. -/
theorem inByteOrder_pair {a b : String} (h : a ≤ b) : InByteOrder [a, b] [a, b] :=
  ⟨.refl _, List.pairwise_pair.2 (not_bytes_lt_iff.2 h)⟩

/-- It does not matter in which order the texts come. -/
theorem InByteOrder.of_perm {names names' sorted : List String} (h : InByteOrder names sorted)
    (hnames : names.Perm names') : InByteOrder names' sorted :=
  ⟨h.1.trans hnames, h.2⟩

end Text

namespace Registry

/-- What a list of keys denotes: a component under its name, or the reason why there is none.
`default` is the name to fall back on, empty for none. -/
inductive KeysDenote (r : Registry) (kind : Kind) (default : String) (keys : List String) :
    Except ResolveError (String × Component) → Prop
  /-- several keys name components; the first two of them are told, in the order of their bytes -/
  | ambiguous {a b first second : String} {others : List String}
      (hnamed : r.named kind keys = a :: b :: others)
      (horder : Text.InByteOrder [a, b] [first, second]) :
      KeysDenote r kind default keys (.error (.ambiguous kind first second))
  /-- one key names a component -/
  | sole {key : String} {c : Component} (hnamed : r.named kind keys = [key])
      (hc : r.get? kind key = some c) : KeysDenote r kind default keys (.ok (key, c))
  /-- all keys are reserved, and the default names a component -/
  | fallback {c : Component} (hopen : candidates kind keys = []) (hdefault : default ≠ "")
      (hc : r.get? kind default = some c) : KeysDenote r kind default keys (.ok (default, c))
  /-- no key names a component, and the default is of no help -/
  | nothing {names : List String} (hnamed : r.named kind keys = [])
      (hdefault : candidates kind keys = [] → default ≠ "" → r.get? kind default = none)
      (horder : Text.InByteOrder (candidates kind keys) names) :
      KeysDenote r kind default keys (.error (.noCandidate kind names))

/-- What a block denotes. -/
inductive Denotes (r : Registry) (kind : Kind) (default : String) :
    Value → Except ResolveError (String × Component) → Prop
  | notAnObject {v : Value} (hv : v.entries? = none) :
      Denotes r kind default v (.error (.notAnObject v.shape))
  /-- a text under `type` names a component, whatever the other keys are -/
  | typed {es : Entries} {name : String} {c : Component} (htype : es.text? "type" = some name)
      (hc : r.get? kind name = some c) : Denotes r kind default (.object es) (.ok (name, c))
  /-- a text under `type` names none -/
  | unrecognised {es : Entries} {name : String} (htype : es.text? "type" = some name)
      (hc : r.get? kind name = none) :
      Denotes r kind default (.object es) (.error (.unrecognised kind name))
  /-- without a text under `type` the keys decide -/
  | keys {es : Entries} {answer : Except ResolveError (String × Component)}
      (htype : es.text? "type" = none) (hkeys : r.KeysDenote kind default es.keys answer) :
      Denotes r kind default (.object es) answer

/-- A component together with the name that it is registered under. -/
def withName (c : Component) : String × Component := (c.name, c)

variable {r : Registry} {kind : Kind} {default : String}

theorem withName_of_get? {name : String} {c : Component} (h : r.get? kind name = some c) :
    withName c = (name, c) := by
  rw [withName, (answers_of_get? h).2]

theorem named_eq_nil_of_candidates {keys : List String} (h : candidates kind keys = []) :
    r.named kind keys = [] := by
  unfold candidates at h
  unfold named
  rw [← List.filter_filter, List.filter_comm, h]
  rfl

/-- One key that names a component. -/
theorem resolveKeys_of_sole {keys : List String} {key : String} {c : Component}
    (hnamed : r.named kind keys = [key]) (hc : r.get? kind key = some c) :
    r.resolveKeys kind default keys = .ok c := by
  simp [resolveKeys, search_none, hnamed, hc]

/-- No key that names a component. -/
theorem resolveKeys_of_named_nil {keys : List String} (hnamed : r.named kind keys = []) :
    r.resolveKeys kind default keys =
      match (if (candidates kind keys).isEmpty && default != "" then r.get? kind default
        else none) with
      | some c => .ok c
      | none => .error (.noCandidate kind (Text.sortTexts (candidates kind keys))) := by
  cases hdefault : (if (candidates kind keys).isEmpty && default != "" then r.get? kind default
      else none) with
  | some c => simp only [resolveKeys, search_none, hnamed, hdefault]
  | none => simp only [resolveKeys, search_none, hnamed, hdefault]

/-- The search over keys follows a rule. -/
theorem keysDenote_resolveKeys (keys : List String) :
    r.KeysDenote kind default keys ((r.resolveKeys kind default keys).map withName) := by
  match hnamed : r.named kind keys with
  | a :: b :: others =>
    rw [resolveKeys_of_named hnamed]
    split
    next hab => exact .ambiguous hnamed (Text.inByteOrder_pair (le_of_lt hab))
    next hab =>
      have hpair := Text.inByteOrder_pair (String.not_lt.1 hab)
      exact .ambiguous hnamed (hpair.of_perm (.swap a b []))
  | [key] =>
    have hkey : key ∈ r.named kind keys := by simp [hnamed]
    obtain ⟨c, hc⟩ := exists_get?_of_named hkey
    rw [resolveKeys_of_sole hnamed hc, Except.map, withName_of_get? hc]
    exact .sole hnamed hc
  | [] =>
    rw [resolveKeys_of_named_nil hnamed]
    split
    next c hc =>
      split at hc
      next hopen =>
        rw [Bool.and_eq_true, List.isEmpty_iff, bne_iff_ne] at hopen
        rw [Except.map, withName_of_get? hc]
        exact .fallback hopen.1 hopen.2 hc
      next => cases hc
    next hnone =>
      refine .nothing hnamed (fun hopen hdefault => ?_) (Text.inByteOrder_iff.2 rfl)
      simpa [hopen, hdefault] using hnone

/-- What a rule says of keys is what the search finds. -/
theorem KeysDenote.resolveKeys_eq {keys : List String}
    {answer : Except ResolveError (String × Component)}
    (h : r.KeysDenote kind default keys answer) :
    (r.resolveKeys kind default keys).map withName = answer := by
  cases h with
  | @ambiguous a b first second _ hnamed horder =>
    rw [resolveKeys_of_named hnamed]
    obtain ⟨hperm, hsorted⟩ := horder
    have hle : first ≤ second := Text.not_bytes_lt_iff.1 (List.pairwise_pair.1 hsorted)
    rcases List.perm_pair.1 hperm with hsame | hswapped
    · obtain ⟨rfl, rfl⟩ : first = a ∧ second = b := by simpa using hsame
      rw [← ambiguous_comm, if_neg (String.not_lt.2 hle)]
      rfl
    · obtain ⟨rfl, rfl⟩ : first = b ∧ second = a := by simpa using hswapped
      rw [if_neg (String.not_lt.2 hle)]
      rfl
  | sole hnamed hc =>
    rw [resolveKeys_of_sole hnamed hc, Except.map, withName_of_get? hc]
  | fallback hopen hdefault hc =>
    rw [resolveKeys_of_named_nil (named_eq_nil_of_candidates hopen)]
    simp [hopen, hdefault, hc, Except.map, withName_of_get? hc]
  | nothing hnamed hnone horder =>
    rw [resolveKeys_of_named_nil hnamed, Text.inByteOrder_iff.1 horder]
    split
    next c hc =>
      split at hc
      next hopen =>
        rw [Bool.and_eq_true, List.isEmpty_iff, bne_iff_ne] at hopen
        rw [hnone hopen.1 hopen.2] at hc
        cases hc
      next => cases hc
    next => rfl

theorem denotes_resolve (v : Value) :
    r.Denotes kind default v ((r.resolve kind default v).map withName) := by
  cases v with
  | object es =>
    cases htype : Entries.text? es "type" with
    | some name =>
      rw [resolve_of_type htype]
      split
      next c hc =>
        rw [Except.map, withName_of_get? hc]
        exact .typed htype hc
      next hc => exact .unrecognised htype hc
    | none =>
      rw [resolve_of_no_type htype]
      exact .keys htype (keysDenote_resolveKeys _)
  | null | bool | number | string | array => exact .notAnObject rfl

theorem Denotes.resolve_eq {v : Value} {answer : Except ResolveError (String × Component)}
    (h : r.Denotes kind default v answer) : (r.resolve kind default v).map withName = answer := by
  cases h with
  | notAnObject hv =>
    cases v with
    | object => cases hv
    | null | bool | number | string | array => rfl
  | typed htype hc => simp only [resolve_of_type htype, hc, Except.map, withName_of_get? hc]
  | unrecognised htype hc => simp only [resolve_of_type htype, hc, Except.map]
  | keys htype hkeys => rw [resolve_of_no_type htype, hkeys.resolveKeys_eq]

end Registry

/-- Resolution answers as the rules say and not otherwise: for a block on the refreshed registry,
and for a list of keys, which may repeat, on the registry as it stands. -/
theorem resolve_denotes (r : Registry) (kind : Kind) (default : String) :
    (∀ v answer, ((resolve kind default v).run r).1.map Registry.withName = answer ↔
      r.refreshed.Denotes kind default v answer) ∧
    (∀ keys answer, (r.resolveKeys kind default keys).map Registry.withName = answer ↔
      r.KeysDenote kind default keys answer) := by
  constructor
  · intro v answer
    have hrun : ((resolve kind default v).run r).1 = r.refreshed.resolve kind default v := rfl
    rw [hrun]
    constructor
    · rintro rfl
      exact Registry.denotes_resolve v
    · exact Registry.Denotes.resolve_eq
  · intro keys answer
    constructor
    · rintro rfl
      exact Registry.keysDenote_resolveKeys keys
    · exact Registry.KeysDenote.resolveKeys_eq

end StreamConfig
