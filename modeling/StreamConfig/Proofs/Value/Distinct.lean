import StreamConfig.Document.Format
import StreamConfig.Proofs.Json.Steps

/-! # No value that is read repeats a key

Both readers build objects with `Entries.ofList`, so no object of a document has a key twice:
* `hasDistinctKeys_ofList` — an object built from values in which no key is repeated
* `Json.Gives`, `Yaml.Ensures` — what a reader of either format gives, closed under its steps
* `hasDistinctKeys_of_parseDocument` — a whole document, in either format
-/

namespace StreamConfig

namespace Value

theorem itemsHaveDistinctKeys_iff {items : List Value} :
    itemsHaveDistinctKeys items = true ↔ ∀ v ∈ items, v.hasDistinctKeys = true := by
  induction items with
  | nil => simp [itemsHaveDistinctKeys]
  | cons v rest ih => simp [itemsHaveDistinctKeys, ih]

theorem entriesHaveDistinctKeys_iff {es : Entries} :
    entriesHaveDistinctKeys es = true ↔ ∀ e ∈ es, e.2.hasDistinctKeys = true := by
  induction es with
  | nil => simp [entriesHaveDistinctKeys]
  | cons e rest ih => simp [entriesHaveDistinctKeys, ih]

theorem hasDistinctKeys_array_iff {items : List Value} :
    (array items).hasDistinctKeys = true ↔ ∀ v ∈ items, v.hasDistinctKeys = true :=
  itemsHaveDistinctKeys_iff

theorem hasDistinctKeys_object_iff {es : Entries} :
    (object es).hasDistinctKeys = true ↔
      (Entries.keys es).Nodup ∧ ∀ e ∈ es, e.2.hasDistinctKeys = true := by
  simp [hasDistinctKeys, entriesHaveDistinctKeys_iff]

/-- What is written into an object stays good if it was good before and good things are written. -/
theorem forall_mem_ofList (good : Value → Prop) {es : Entries} (h : ∀ e ∈ es, good e.2) :
    ∀ e ∈ Entries.ofList es, good e.2 := by
  -- over any object that is being written into
  suffices hwrite : ∀ m : Entries, (∀ e ∈ m, good e.2) →
      ∀ e ∈ es.foldl (fun m e => Entries.insert m e.1 e.2) m, good e.2 from
    hwrite [] (by simp)
  induction es with
  | nil => exact fun m hm => hm
  | cons d es ih =>
    intro m hm
    have hd := h d List.mem_cons_self
    refine ih (fun e he => h e (List.mem_cons_of_mem _ he)) _ ?_
    intro e he
    dsimp only [Entries.insert] at he
    split at he
    · obtain ⟨e', he', rfl⟩ := List.mem_map.1 he
      split
      · exact hd
      · exact hm e' he'
    · rcases List.mem_append.1 he with he | he
      · exact hm e he
      · obtain rfl := List.mem_singleton.1 he
        exact hd

theorem hasDistinctKeys_ofList {es : Entries} (h : ∀ e ∈ es, e.2.hasDistinctKeys = true) :
    (object (Entries.ofList es)).hasDistinctKeys = true := by
  have hkeys : decide (Entries.keys (Entries.ofList es)).Nodup = true :=
    decide_eq_true (Entries.nodup_keys_ofList es)
  exact Bool.and_eq_true_iff.2 ⟨hkeys, entriesHaveDistinctKeys_iff.2
    (forall_mem_ofList (fun v => v.hasDistinctKeys = true) h)⟩

end Value

/-! ## JSON -/

namespace Json

/-- The reader gives values without repeated keys only. -/
def Gives (one : ValueReader) : Prop :=
  ∀ {cs v rest}, one cs = some (v, rest) → v.hasDistinctKeys = true

theorem distinct_of_itemsRest {one : ValueReader} (hone : Gives one) {rounds : Nat}
    {cs rest : List Char} {vs : List Value} (h : itemsRest one rounds cs = some (vs, rest)) :
    ∀ v ∈ vs, v.hasDistinctKeys = true := by
  induction rounds generalizing cs vs with
  | zero => cases h
  | succ rounds ih =>
    cases itemsStep h with
    | more hv hcomma hvs => exact List.forall_mem_cons.2 ⟨hone hv, ih hvs⟩
    | last hv hclose => exact List.forall_mem_singleton.2 (hone hv)

theorem distinct_of_entriesRest {one : ValueReader} (hone : Gives one) {rounds : Nat}
    {cs rest : List Char} {es : Entries} (h : entriesRest one rounds cs = some (es, rest)) :
    ∀ e ∈ es, e.2.hasDistinctKeys = true := by
  induction rounds generalizing cs es with
  | zero => cases h
  | succ rounds ih =>
    cases entriesStep h with
    | more hquote hk hcolon hv hcomma hes => exact List.forall_mem_cons.2 ⟨hone hv, ih hes⟩
    | last hquote hk hcolon hv hclose => exact List.forall_mem_singleton.2 (hone hv)

/-- By induction on the levels that may still be opened. -/
theorem gives_value (room : Nat) : Gives (value room) := by
  induction room using Nat.strongRecOn with
  | ind room ih =>
    intro cs v rest h
    cases valueStep h with
    | word hne hchars hv =>
      cases v with
      | null | bool | number => rfl
      | string | array | object => cases hv
    | string | emptyArray | emptyObject => rfl
    | @array inner rounds ds vs _ hinner hvs =>
      exact Value.itemsHaveDistinctKeys_iff.2 (distinct_of_itemsRest (ih inner hinner) hvs)
    | @object inner rounds ds es _ hinner hes =>
      exact Value.hasDistinctKeys_ofList (distinct_of_entriesRest (ih inner hinner) hes)

theorem hasDistinctKeys_of_read {text : String} {v : Value} (h : read text = some v) :
    v.hasDistinctKeys = true := by
  unfold read at h
  split at h
  next w rest hw =>
    split at h
    · cases h
      exact gives_value maxNesting hw
    · cases h
  next => cases h

end Json

/-! ## YAML -/

namespace Yaml

/-- Whatever the expansion gives is good. -/
def Ensures {α : Type} (x : Expansion α) (good : α → Prop) : Prop :=
  ∀ count a count', x count = some (a, count') → good a

namespace Ensures

variable {α β : Type} {good : α → Prop} {good' : β → Prop}

theorem pure {a : α} (h : good a) : Ensures (Pure.pure a) good := by
  intro count b count' hrun
  cases hrun
  exact h

theorem failure : Ensures (Alternative.failure : Expansion α) good := by
  intro count a count' hrun
  cases hrun

theorem anything (x : Expansion β) : Ensures x fun _ => True := fun _ _ _ _ => trivial

theorem bind {x : Expansion β} {f : β → Expansion α} (hx : Ensures x good')
    (hf : ∀ b, good' b → Ensures (f b) good) : Ensures (x >>= f) good := by
  intro count a count' hrun
  obtain ⟨⟨b, middle⟩, hb, ha⟩ := Option.bind_eq_some_iff.1 hrun
  exact hf b (hx count b middle hb) middle a count' ha

theorem mapM {f : β → Expansion α} (h : ∀ b, Ensures (f b) good) (bs : List β) :
    Ensures (bs.mapM f) fun as => ∀ a ∈ as, good a := by
  induction bs with
  | nil =>
    rw [List.mapM_nil]
    exact Ensures.pure (by simp)
  | cons b bs ih =>
    rw [List.mapM_cons]
    refine Ensures.bind (h b) fun a ha => Ensures.bind ih fun as has => Ensures.pure ?_
    exact List.forall_mem_cons.2 ⟨ha, has⟩

end Ensures

/-- Scalars hold no keys. -/
theorem distinct_of_doubleValue? {text : String} {v : Value} (h : doubleValue? text = some v) :
    v.hasDistinctKeys = true := by
  unfold doubleValue? at h
  split at h
  · cases h
    rfl
  · obtain ⟨x, -, hv⟩ := Option.map_eq_some_iff.1 h
    cases hv
    rfl

theorem distinct_of_meaning? {text : String} {v : Value} (h : meaning? text = some v) :
    v.hasDistinctKeys = true := by
  unfold meaning? at h
  split at h
  · cases h
    rfl
  · split at h
    · cases h
      rfl
    · split at h
      · cases h
        rfl
      · cases h
      · split at h
        · cases h
          rfl
        · cases h
          cases hdouble : doubleValue? text with
          | none => rfl
          | some w => exact distinct_of_doubleValue? hdouble

theorem distinct_of_tagged? {tag text : String} {v : Value} (h : tagged? tag text = some v) :
    v.hasDistinctKeys = true := by
  unfold tagged? at h
  split at h
  · obtain ⟨b, -, hv⟩ := Option.map_eq_some_iff.1 h
    cases hv
    rfl
  · split at h
    · split at h
      · cases h
        rfl
      · cases h
    · split at h
      · exact distinct_of_doubleValue? h
      · split at h
        · split at h
          · cases h
            rfl
          · cases h
        · cases h
          rfl

theorem distinct_of_scalarValue? {tag : Option String} {isPlain : Bool} {text : String} {v : Value}
    (h : scalarValue? tag isPlain text = some v) : v.hasDistinctKeys = true := by
  unfold scalarValue? at h
  split at h
  · exact distinct_of_tagged? h
  · split at h
    · exact distinct_of_meaning? h
    · cases h
      rfl

/-- By induction on the levels that may still be opened, aliases being followed at each. -/
theorem ensures_valueOf (t : Table) (room : Nat) (n : Node Nat) :
    Ensures (valueOf t room n) fun v => v.hasDistinctKeys = true := by
  induction room using Nat.strongRecOn generalizing n with
  | ind room ih =>
    unfold valueOf
    -- whichever node an alias leads to
    refine Ensures.bind (Ensures.anything _) fun m _ => ?_
    match m with
    | .alias _ => exact Ensures.failure
    | .scalar _ _ _ _ =>
      dsimp only
      split
      · exact Ensures.failure
      · split
        next hv => exact Ensures.pure (distinct_of_scalarValue? hv)
        next => exact Ensures.failure
    | .sequence _ _ items =>
      cases room with
      | zero => exact Ensures.failure
      | succ inner =>
        dsimp only
        split
        · exact Ensures.failure
        · have hitems := Ensures.mapM (ih inner (Nat.lt_succ_self inner)) items
          exact Ensures.bind hitems fun vs hvs =>
            Ensures.pure (Value.itemsHaveDistinctKeys_iff.2 hvs)
    | .mapping _ _ entries =>
      cases room with
      | zero => exact Ensures.failure
      | succ inner =>
        dsimp only
        split
        · exact Ensures.failure
        · refine Ensures.bind (Ensures.mapM (fun e => ?_) entries) fun es hes =>
            Ensures.pure (Value.hasDistinctKeys_ofList hes)
          refine Ensures.bind (Ensures.anything _) fun k _ => ?_
          exact Ensures.bind (ih inner (Nat.lt_succ_self inner) e.2) fun v hv => Ensures.pure hv

theorem hasDistinctKeys_of_ofNode? {n : Written} {v : Value} (h : ofNode? n = some v) :
    v.hasDistinctKeys = true := by
  obtain ⟨⟨numbered, names⟩, -, h⟩ := Option.bind_eq_some_iff.1 h
  obtain ⟨⟨w, count⟩, hw, h⟩ := Option.bind_eq_some_iff.1 h
  cases h
  exact ensures_valueOf _ maxNesting numbered 0 _ count hw

theorem hasDistinctKeys_of_read {text : String} {v : Value} (h : read text = some v) :
    v.hasDistinctKeys = true := by
  obtain ⟨ts, -, h⟩ := Option.bind_eq_some_iff.1 h
  obtain ⟨root, -, h⟩ := Option.bind_eq_some_iff.1 h
  cases root with
  | none =>
    cases h
    rfl
  | some n => exact hasDistinctKeys_of_ofNode? h

end Yaml

/-! ## Documents -/

theorem ok_of_elim {x : Option Value} {error : ParseError} {v : Value}
    (h : x.elim (.error error) .ok = (.ok v : Except ParseError Value)) : x = some v := by
  cases x with
  | none => cases h
  | some w =>
    cases h
    rfl

/-- No document, of either format, denotes a value in which an object repeats a key. -/
theorem hasDistinctKeys_of_parseDocument {format : Option Format} {source : String} {v : Value}
    (h : parseDocument format source = .ok v) : v.hasDistinctKeys = true := by
  unfold parseDocument at h
  split at h
  · exact Json.hasDistinctKeys_of_read (ok_of_elim h)
  · exact Yaml.hasDistinctKeys_of_read (ok_of_elim h)
  · split at h
    next w hw =>
      cases h
      exact Json.hasDistinctKeys_of_read hw
    next => exact Yaml.hasDistinctKeys_of_read (ok_of_elim h)

end StreamConfig
