import StreamConfig.Proofs.Pruning.StandingStill
import StreamConfig.Proofs.Schema.Resolution
import StreamConfig.Proofs.Snapshot
import StreamConfig.Proofs.Value.Depth

/-! # Pruning twice

What pruning has left, pruning leaves as it is. The second run meets every component block without
the entries that the first one dropped, and maybe without its `type`. So it may fail where the first
one did not, but it never takes a block for another component, and no omission rule begins to fire.

* `isSettled_foldl` — each known field of a pruned object has had its turn for good;
* `resolve_settledBlock` — a pruned block denotes the same component as before, or nothing;
* `pruneFieldTo_twice` — by induction on levels, a pruned value is left alone at any number of them;
* `pruneRun_twice` — a run of a component block on any regular registry, followed by another.
-/

namespace StreamConfig

namespace Value

/-- What a second function leaves alone in the parts of a value, it leaves alone in the value. -/
theorem overParts_twice {first second : Value → Value} {n : Nat}
    (h : ∀ w : Value, w.depth ≤ n → second (first w) = first w) (arity : Arity) {v : Value}
    (hv : v.depth ≤ n) :
    overParts (m := Id) arity second (overParts (m := Id) arity first v) =
      overParts (m := Id) arity first v := by
  cases arity with
  | scalar => exact h v hv
  | array =>
    cases v with
    | array items =>
      rw [overParts_array_id, overParts_array_id, List.map_map]
      congr 1
      refine List.map_congr_left fun w hw => ?_
      -- items are less deep than the array
      have := depth_lt_of_mem_array hw
      exact h w (by omega)
    | null | bool | number | string | object => rfl
  | map =>
    cases v with
    | object es =>
      rw [overParts_map_id, overParts_map_id, List.map_map]
      congr 1
      refine List.map_congr_left fun e he => ?_
      have := depth_lt_of_mem_object he
      exact congrArg (e.1, ·) (h e.2 (by omega))
    | null | bool | number | string | array => rfl

end Value

namespace Entries

theorem erase_of_get?_eq_none {es : Entries} {k : String} (h : get? es k = none) :
    erase es k = es := by
  refine List.filter_eq_self.2 fun e he => ?_
  rw [bne_iff_ne]
  rintro rfl
  exact get?_eq_none_iff.1 h (List.mem_map_of_mem he)

theorem modify_eq_self {es : Entries} {k : String} {f : Value → Value}
    (h : ∀ e ∈ es, e.1 = k → f e.2 = e.2) : modify es k f = es := by
  refine (List.map_congr_left fun e he => ?_).trans (List.map_id es)
  split
  next hk => rw [h e he (beq_iff_eq.1 hk)]; rfl
  next => rfl

theorem mem_of_mem_modify {es : Entries} {k : String} {f : Value → Value} {e : String × Value}
    (h : e ∈ modify es k f) : (e.1 ≠ k ∧ e ∈ es) ∨ (e.1 = k ∧ ∃ v, (k, v) ∈ es ∧ e.2 = f v) := by
  obtain ⟨d, hd, rfl⟩ := List.mem_map.1 h
  by_cases hk : d.1 = k
  · right
    subst hk
    simp only [beq_self_eq_true, if_true, true_and]
    exact ⟨d.2, hd, rfl⟩
  · left
    rw [if_neg (by simpa using hk)]
    exact ⟨hk, hd⟩

end Entries

/-! ## Objects with known fields -/

section Fields

variable {policy : Policy} {first second : Field → Value → Value}

/-- A field whose turn changes nothing: its value, if there is one, is kept, is of use, and is
pruned already. -/
structure IsSettled (policy : Policy) (inner : Field → Value → Value) (f : Field) (es : Entries) :
    Prop where
  kept : ∀ v, es.get? f.name = some v → policy.keeps f = true ∧ f.omissionReason? v es = none
  pruned : ∀ e ∈ es, e.1 = f.name → inner f e.2 = e.2

theorem pruneEntry_of_isSettled {f : Field} {es : Entries} (h : IsSettled policy second f es) :
    pruneEntry policy second es f = es := by
  unfold pruneEntry
  cases hget : es.get? f.name with
  | none =>
    split
    · rfl
    · exact Entries.erase_of_get?_eq_none hget
  | some v =>
    obtain ⟨hkeeps, hreason⟩ := h.kept v hget
    simp only [hkeeps, hreason, if_true, Option.isSome_none, Bool.false_eq_true, if_false]
    exact Entries.modify_eq_self h.pruned

/-- A field whose turn is over stays settled as the object fades around it. -/
theorem IsSettled.of_fades {f : Field} {es es' : Entries} (h : IsSettled policy second f es)
    (hf : f.isRegular = true) (hfades : es.Fades es')
    (hmem : ∀ e ∈ es', e.1 = f.name → e ∈ es) : IsSettled policy second f es' where
  kept w hw := by
    obtain ⟨v, hv, hvw⟩ := hfades _ w hw
    obtain ⟨hkeeps, hreason⟩ := h.kept v hv
    exact ⟨hkeeps, Field.omissionReason?_eq_none_of_fades hf hvw hfades hreason⟩
  pruned e he hname := h.pruned e (hmem e he hname) hname

variable (hfirst : ∀ f v, Value.Alike v (first f v))

include hfirst

theorem fades_pruneEntry (es : Entries) (f : Field) :
    es.Fades (pruneEntry policy first es f) := by
  unfold pruneEntry
  split
  · split
    · exact .refl es
    · split
      · exact Entries.fades_erase es f.name
      · exact Entries.fades_modify (hfirst f) es f.name
  · exact Entries.fades_erase es f.name

theorem fades_foldl (fields : List Field) (es : Entries) :
    es.Fades (fields.foldl (pruneEntry policy first) es) := by
  induction fields generalizing es with
  | nil => exact .refl es
  | cons f rest ih => exact (fades_pruneEntry hfirst es f).trans (ih _)

omit hfirst in
/-- A field's turn touches the entries of its name only. -/
theorem mem_of_mem_pruneEntry {es : Entries} {f : Field} {e : String × Value}
    (h : e ∈ pruneEntry policy first es f) (hname : e.1 ≠ f.name) : e ∈ es := by
  unfold pruneEntry at h
  split at h
  · split at h
    · exact h
    · split at h
      · exact (List.mem_filter.1 h).1
      · rcases Entries.mem_of_mem_modify h with ⟨-, he⟩ | ⟨hk, -⟩
        · exact he
        · exact absurd hk hname
  · exact (List.mem_filter.1 h).1

omit hfirst in
theorem mem_of_mem_foldl {fields : List Field} {es : Entries} {e : String × Value}
    (h : e ∈ fields.foldl (pruneEntry policy first) es) (hname : e.1 ∉ fields.map (·.name)) :
    e ∈ es := by
  induction fields generalizing es with
  | nil => exact h
  | cons f rest ih =>
    rw [List.map_cons, List.mem_cons, not_or] at hname
    exact mem_of_mem_pruneEntry (ih h hname.2) hname.1

/-- After its turn a field is settled. -/
theorem isSettled_pruneEntry {f : Field} (hf : f.isRegular = true) {es : Entries}
    (hfix : ∀ e ∈ es, e.1 = f.name → second f (first f e.2) = first f e.2) :
    IsSettled policy second f (pruneEntry policy first es f) := by
  -- of a field that is dropped no entry is left to judge
  have hgone : IsSettled policy second f (es.erase f.name) := by
    constructor
    · intro v hv
      rw [Entries.get?_erase, if_pos rfl] at hv
      cases hv
    · intro e he hname
      have := (List.mem_filter.1 he).2
      rw [hname, bne_self_eq_false] at this
      cases this
  unfold pruneEntry
  split
  next hkeeps =>
    split
    next hget =>
      refine ⟨fun v hv => ?_, fun e he hname => ?_⟩
      · rw [hget] at hv
        cases hv
      · exact absurd (hname ▸ List.mem_map_of_mem he) (Entries.get?_eq_none_iff.1 hget)
    next v hget =>
      split
      next => exact hgone
      next hreason =>
        -- the rule did not fire, and the value and the object keep their faces
        rw [Option.not_isSome_iff_eq_none] at hreason
        refine ⟨fun w hw => ⟨hkeeps, ?_⟩, fun e he hname => ?_⟩
        · rw [Entries.get?_modify, if_pos rfl, hget, Option.map_some, Option.some.injEq] at hw
          subst hw
          exact Field.omissionReason?_eq_none_of_fades hf (hfirst f v)
            (Entries.fades_modify (hfirst f) es f.name) hreason
        · rcases Entries.mem_of_mem_modify he with ⟨hne, -⟩ | ⟨-, v, hv, hev⟩
          · exact absurd hname hne
          · rw [hev]
            exact hfix (f.name, v) hv rfl
  next => exact hgone

/-- When all fields have had their turn, all of them are settled: no later field touches the
entries of an earlier one. -/
theorem isSettled_foldl {fields : List Field} (hnames : (fields.map (·.name)).Nodup)
    (hregular : ∀ f ∈ fields, f.isRegular = true) {es : Entries}
    (hfix : ∀ f ∈ fields, ∀ e ∈ es, e.1 = f.name → second f (first f e.2) = first f e.2) :
    ∀ f ∈ fields, IsSettled policy second f (fields.foldl (pruneEntry policy first) es) := by
  induction fields generalizing es with
  | nil => exact fun _ h => nomatch h
  | cons g rest ih =>
    rw [List.map_cons, List.nodup_cons] at hnames
    intro f hf
    rw [List.foldl_cons]
    rcases List.mem_cons.1 hf with rfl | hf
    · -- the turns after that of `f` touch entries of other names only
      have hturn : IsSettled policy second f (pruneEntry policy first es f) :=
        isSettled_pruneEntry hfirst (hregular f List.mem_cons_self) (hfix f List.mem_cons_self)
      refine hturn.of_fades (hregular f List.mem_cons_self) (fades_foldl hfirst rest _) ?_
      intro e he hname
      exact mem_of_mem_foldl he (hname ▸ hnames.1)
    · refine ih hnames.2 (fun f hf => hregular f (List.mem_cons_of_mem _ hf)) ?_ f hf
      intro f hf e he hname
      -- the turn of `g` left the entries of `f` as they were
      have hne : e.1 ≠ g.name := by
        rintro hg
        exact hnames.1 (hg ▸ hname ▸ List.mem_map_of_mem hf)
      exact hfix f (List.mem_cons_of_mem _ hf) e (mem_of_mem_pruneEntry he hne) hname

omit hfirst in
theorem foldl_of_isSettled {fields : List Field} {es : Entries}
    (h : ∀ f ∈ fields, IsSettled policy second f es) :
    fields.foldl (pruneEntry policy second) es = es := by
  induction fields with
  | nil => rfl
  | cons f rest ih =>
    rw [List.foldl_cons, pruneEntry_of_isSettled (h f List.mem_cons_self)]
    exact ih fun f hf => h f (List.mem_cons_of_mem _ hf)

end Fields

/-! ## Component blocks -/

section Block

variable {policy : Policy} {first second : Field → Value → Value} {kind : Kind} {c : Component}

/-- Every entry of a pruned block comes from an entry that stayed. -/
theorem exists_of_mem_settledBlock {es : Entries} {e : String × Value}
    (h : e ∈ settledBlock policy first kind c es) :
    ∃ d ∈ es, survives kind c.name es d = true ∧ e = settledEntry first kind c d := by
  have hkept : e ∈ (es.filter (survives kind c.name es)).map (settledEntry first kind c) := by
    unfold settledBlock at h
    split at h
    · exact (List.mem_filter.1 h).1
    · exact h
  obtain ⟨d, hd, rfl⟩ := List.mem_map.1 hkept
  exact ⟨d, (List.mem_filter.1 hd).1, (List.mem_filter.1 hd).2, rfl⟩

/-- The keys of a pruned block are the component's own and reserved ones. -/
theorem key_of_mem_settledBlock {es : Entries} {e : String × Value}
    (h : e ∈ settledBlock policy first kind c es) :
    e.1 = c.name ∨ kind.isReserved e.1 = true := by
  obtain ⟨d, -, hsurvives, rfl⟩ := exists_of_mem_settledBlock h
  have hkey : (settledEntry first kind c d).1 = d.1 := rfl
  rw [hkey]
  unfold survives at hsurvives
  rw [Bool.or_eq_true, beq_iff_eq] at hsurvives
  refine hsurvives.imp_right fun hreserved => ?_
  unfold Kind.isReserved
  cases hfield : kind.reserved? d.1 with
  | none => rw [hfield] at hreserved; cases hreserved
  | some f => rfl

theorem alike_settledEntry (hfirst : ∀ f v, Value.Alike v (first f v)) (e : String × Value) :
    e.2.Alike (settledEntry first kind c e).2 := by
  have hown : e.2.Alike (if e.1 = c.name then first c.config e.2 else e.2) := by
    split
    · exact hfirst c.config e.2
    · exact .refl e.2
  unfold settledEntry
  cases kind.reserved? e.1 with
  | none => exact hown
  | some f => exact hown.trans (hfirst f _)

/-- Where all entries of a key stay, or none, the text under it stays, or goes. -/
theorem text?_map_filter {keep : String × Value → Bool} {k : String} {stays : Bool}
    (change : String × Value → String × Value) (hkeep : ∀ e, e.1 = k → keep e = stays)
    (hkey : ∀ e, (change e).1 = e.1) (hchange : ∀ e, Value.Alike e.2 (change e).2) (es : Entries) :
    Entries.text? ((es.filter keep).map change) k = if stays then es.text? k else none := by
  induction es with
  | nil => cases stays <;> rfl
  | cons e rest ih =>
    have hcons : Entries.text? (e :: rest) k =
        if e.1 = k then e.2.text? else Entries.text? rest k := by
      unfold Entries.text?
      rw [Entries.get?_cons]
      split <;> rfl
    rw [hcons, List.filter_cons]
    by_cases hek : e.1 = k
    · rw [hkeep e hek]
      cases stays with
      | true =>
        simp only [if_true, List.map_cons, Entries.text?, Entries.get?_cons, hkey, hek,
          Option.bind_some]
        exact (hchange e).text?_eq
      | false => simpa using ih
    · rw [if_neg hek, ← ih]
      split
      · simp only [List.map_cons, Entries.text?, Entries.get?_cons, hkey, if_neg hek]
      · rfl

/-- The texts that omission rules and resolution look for are those of the block before, or gone. -/
theorem text?_settledBlock (hfirst : ∀ f v, Value.Alike v (first f v)) {es : Entries} {k : String}
    (hk : k = "type" ∨ k = "resource") :
    (settledBlock policy first kind c es).text? k = none ∨
      (settledBlock policy first kind c es).text? k = es.text? k := by
  -- `type` is reserved and has no rule; `resource` stays only if it is the component's own key
  have hstays : ∃ stays, ∀ e : String × Value, e.1 = k → survives kind c.name es e = stays := by
    rcases hk with rfl | rfl
    · refine ⟨true, fun e he => ?_⟩
      have htype : kind.reserved? "type" = some (Field.string "type" "") := by cases kind <;> rfl
      simp [survives, he, htype, Field.omissionReason?, Field.string, Field.plain]
    · refine ⟨"resource" == c.name, fun e he => ?_⟩
      have hresource : kind.reserved? "resource" = none := by cases kind <;> rfl
      simp [survives, he, hresource]
  obtain ⟨stays, hstays⟩ := hstays
  have hkept := text?_map_filter (settledEntry first kind c) hstays (fun _ => rfl)
    (alike_settledEntry hfirst) es
  unfold settledBlock
  split
  · unfold Entries.text? at hkept ⊢
    rw [Entries.get?_erase]
    split
    · exact .inl rfl
    · cases stays
      · exact .inl hkept
      · exact .inr hkept
  · cases stays
    · exact .inl hkept
    · exact .inr hkept

theorem text?_of_text?_settledBlock (hfirst : ∀ f v, Value.Alike v (first f v)) {es : Entries}
    {k : String} (hk : k = "type" ∨ k = "resource") (s : String)
    (hs : (settledBlock policy first kind c es).text? k = some s) : es.text? k = some s := by
  have hkept : (settledBlock policy first kind c es).text? k = none ∨
      (settledBlock policy first kind c es).text? k = es.text? k := text?_settledBlock hfirst hk
  rcases hkept with hnone | hsame
  · rw [hnone] at hs
    cases hs
  · exact hsame ▸ hs

/-- A pruned block denotes the component that it denoted, if it denotes any. -/
theorem resolve_settledBlock {r : Registry} (hfirst : ∀ f v, Value.Alike v (first f v))
    {es : Entries} (h : r.resolve kind "" (.object es) = .ok c) {d : Component}
    (hd : r.resolve kind "" (.object (settledBlock policy first kind c es)) = .ok d) : d = c := by
  have hown := Registry.get?_of_resolve h
  cases htype : (settledBlock policy first kind c es).text? "type" with
  | some name =>
    -- told by its `type`, which was the same before
    have hbefore := text?_of_text?_settledBlock hfirst (.inl rfl) name htype
    rw [Registry.resolve_of_type hbefore] at h
    rw [Registry.resolve_of_type htype, h] at hd
    exact (Except.ok.inj hd).symm
  | none =>
    rw [Registry.resolve_of_no_type htype] at hd
    -- told by a key: it is not reserved, so it is the component's own
    obtain ⟨key, hkey, hfree, hfound⟩ := Registry.exists_key_of_resolveKeys hd
    obtain ⟨e, he, rfl⟩ := List.mem_map.1 hkey
    rcases key_of_mem_settledBlock he with hname | hreserved
    · rw [hname, hown] at hfound
      exact (Option.some.inj hfound).symm
    · rw [hfree] at hreserved
      cases hreserved

/-- An entry that stayed stays once more. -/
theorem survives_settledBlock (hfirst : ∀ f v, Value.Alike v (first f v)) {es : Entries}
    {e : String × Value} (h : e ∈ settledBlock policy first kind c es) :
    survives kind c.name (settledBlock policy first kind c es) e = true := by
  obtain ⟨d, -, hsurvives, rfl⟩ := exists_of_mem_settledBlock h
  have hkey : (settledEntry first kind c d).1 = d.1 := rfl
  unfold survives at hsurvives ⊢
  rw [Bool.or_eq_true] at hsurvives ⊢
  refine hsurvives.imp_right fun hreserved => ?_
  rw [hkey]
  cases hfield : kind.reserved? d.1 with
  | none => rw [hfield] at hreserved; cases hreserved
  | some f =>
    rw [hfield] at hreserved
    refine Option.isNone_iff_eq_none.2 (Kind.omissionReason?_eq_none_of_reserved? hfield
      (alike_settledEntry hfirst d) (fun hpoints => ?_) (Option.isNone_iff_eq_none.1 hreserved))
    exact Omission.pointsToResource_of_text? (text?_of_text?_settledBlock hfirst (.inl rfl))
      (text?_of_text?_settledBlock hfirst (.inr rfl)) hpoints

variable (hname : kind.isReserved c.name = false)

include hname

/-- An entry that was pruned is left alone: the component's own field and the reserved ones apply to
different entries. -/
theorem settledEntry_of_mem_settledBlock {es : Entries}
    (hfix : ∀ f, f = c.config ∨ (∃ k, kind.reserved? k = some f) →
      ∀ e ∈ es, second f (first f e.2) = first f e.2)
    {e : String × Value} (h : e ∈ settledBlock policy first kind c es) :
    settledEntry second kind c e = e := by
  obtain ⟨d, hd, -, rfl⟩ := exists_of_mem_settledBlock h
  unfold settledEntry
  by_cases hown : d.1 = c.name
  · -- only the component's own field applies, its name not being reserved
    have hfree : kind.reserved? d.1 = none := by
      rw [hown]
      exact Option.not_isSome_iff_eq_none.1 (by simpa [Kind.isReserved] using hname)
    simp only [hown, if_true, hown ▸ hfree]
    rw [hfix c.config (.inl rfl) d hd]
  · simp only [hown, if_false]
    cases hfield : kind.reserved? d.1 with
    | none => rfl
    | some f =>
      dsimp only
      rw [hfix f (.inr ⟨_, hfield⟩) d hd]

/-- A pruned block is left alone. -/
theorem settledBlock_twice (hfirst : ∀ f v, Value.Alike v (first f v)) {es : Entries}
    (hfix : ∀ f, f = c.config ∨ (∃ k, kind.reserved? k = some f) →
      ∀ e ∈ es, second f (first f e.2) = first f e.2) :
    settledBlock policy second kind c (settledBlock policy first kind c es) =
      settledBlock policy first kind c es := by
  generalize hblock : settledBlock policy first kind c es = block
  have hkept : (block.filter (survives kind c.name block)).map (settledEntry second kind c) =
      block := by
    -- nothing goes, and nothing that stays is changed
    rw [List.filter_eq_self.2 fun e he => hblock ▸ survives_settledBlock hfirst (hblock ▸ he)]
    refine (List.map_congr_left fun e he => ?_).trans (List.map_id block)
    exact settledEntry_of_mem_settledBlock hname hfix (hblock ▸ he)
  unfold settledBlock
  rw [hkept]
  split
  next hremove =>
    refine Entries.erase_of_get?_eq_none ?_
    rw [← hblock, settledBlock, if_pos hremove, Entries.get?_erase, if_pos rfl]
  next => rfl

end Block

/-! ## Levels -/

section Levels

variable {policy : Policy} {first second : Field → Value → Value} {r : Registry} {n : Nat}

/-- A condition keeps its `type`, so a second time it keeps the same entries. -/
theorem pruneNestedStep_condition_twice (v : Value) :
    pruneNestedStep (m := Id) policy r.resolver second .condition
        (pruneNestedStep (m := Id) policy r.resolver first .condition v) =
      pruneNestedStep (m := Id) policy r.resolver first .condition v := by
  rw [pruneNestedStep_condition, pruneNestedStep_condition]
  cases v with
  | object es =>
    cases htype : Entries.get? es "type" with
    | none => simp only [pruneCondition, htype]
    | some t =>
      -- the type itself is among the entries that stay
      have hkept : Entries.get? (es.filter fun e =>
          t.text? == some e.1 || e.1 == "type" || e.1 == "plugin") "type" = some t := by
        rw [← htype]
        unfold Entries.get?
        rw [List.find?_filter]
        congr 2
        funext e
        by_cases he : e.1 = "type" <;> simp [he]
      simp only [pruneCondition, htype, hkept, List.filter_filter, Bool.and_self]
  | null | bool | number | string | array => rfl

variable (hfirst : ∀ f v, Value.Alike v (first f v)) (hsecond : ∀ f v, Value.Alike v (second f v))
  (hr : r.IsRegular)
  (hfix : ∀ f v, f.isRegular = true → v.depth < n → second f (first f v) = first f v)

include hfirst hsecond hr hfix

theorem pruneNestedStep_twice (kind : Kind) {v : Value} (hv : v.depth ≤ n) :
    pruneNestedStep (m := Id) policy r.resolver second kind
        (pruneNestedStep (m := Id) policy r.resolver first kind v) =
      pruneNestedStep (m := Id) policy r.resolver first kind v := by
  by_cases hkind : kind = .condition
  · subst hkind
    exact pruneNestedStep_condition_twice v
  · cases h : r.resolve kind "" v with
    | error e =>
      -- the block was left as it is and denotes nothing now either
      rw [pruneNestedStep_error policy first hkind h]
      exact pruneNestedStep_error policy second hkind h
    | ok c =>
      obtain ⟨es, rfl⟩ := Registry.exists_object_of_resolve h
      rw [pruneNestedStep_ok policy first hfirst hkind h]
      -- without its `type` the block may denote nothing, and is left as it is then
      cases hagain : r.resolve kind "" (.object (settledBlock policy first kind c es)) with
      | error e => exact pruneNestedStep_error policy second hkind hagain
      | ok d =>
        have hd : d = c := resolve_settledBlock hfirst h hagain
        subst hd
        have hfound := Registry.get?_of_resolve h
        rw [pruneNestedStep_ok policy second hsecond hkind hagain]
        refine congrArg Value.object (settledBlock_twice (hr.name_of_get? hfound) hfirst ?_)
        intro f hf e he
        have hregular : f.isRegular = true := by
          rcases hf with rfl | ⟨k, hk⟩
          · exact hr.config_of_get? hfound
          · exact Kind.isRegular_of_reserved? hk
        have hdepth := Value.depth_lt_of_mem_object he
        exact hfix f e.2 hregular (by omega)

omit hsecond hr in
theorem pruneFieldsStep_twice {f : Field} (hf : f.isRegular = true) {v : Value} (hv : v.depth ≤ n) :
    pruneFieldsStep (m := Id) policy second f.children
        (pruneFieldsStep (m := Id) policy first f.children v) =
      pruneFieldsStep (m := Id) policy first f.children v := by
  obtain ⟨-, hnames, hchildren⟩ := Field.isRegular_iff.1 hf
  cases v with
  | object es =>
    rw [pruneFieldsStep_object, pruneFieldsStep_object]
    refine congrArg Value.object (foldl_of_isSettled
      (isSettled_foldl hfirst hnames hchildren fun f hf e he _ => ?_))
    have hdepth := Value.depth_lt_of_mem_object he
    exact hfix f e.2 (hchildren f hf) (by omega)
  | null | bool | number | string | array => rfl

theorem pruneFieldStep_twice {f : Field} (hf : f.isRegular = true) {v : Value} (hv : v.depth ≤ n) :
    pruneFieldStep (m := Id) policy r.resolver second f
        (pruneFieldStep (m := Id) policy r.resolver first f v) =
      pruneFieldStep (m := Id) policy r.resolver first f v := by
  unfold pruneFieldStep
  cases f.type.kind? with
  | some kind =>
    refine Value.overParts_twice (fun w hw => ?_) f.arity hv
    exact pruneNestedStep_twice hfirst hsecond hr hfix kind hw
  | none =>
    dsimp only
    split
    · rfl
    · exact Value.overParts_twice (fun w hw => pruneFieldsStep_twice hfirst hfix hf hw) f.arity hv

end Levels

/-- What was pruned at more levels than it is deep is left alone at any number of levels. -/
theorem pruneFieldTo_twice {r : Registry} (hr : r.IsRegular) (policy : Policy) {n : Nat} (m : Nat)
    {f : Field} (hf : f.isRegular = true) {v : Value} (hv : v.depth < n) :
    pruneFieldTo (m := Id) policy r.resolver m f (pruneFieldTo (m := Id) policy r.resolver n f v) =
      pruneFieldTo (m := Id) policy r.resolver n f v := by
  induction n generalizing m f v with
  | zero => omega
  | succ n ih =>
    cases m with
    | zero => rfl
    | succ m =>
      exact pruneFieldStep_twice (alike_pruneFieldTo policy r n) (alike_pruneFieldTo policy r m) hr
        (fun f v hf hv => ih m hf hv) hf (by omega)

/-! ## Runs -/

/-- What stands in the place of a block after a run: the pruned block, or the block as it was. -/
def afterPruning (v : Value) : Except ResolveError Value → Value
  | .ok w => w
  | .error _ => v

theorem pruneNestedStep_eq_afterPruning (policy : Policy) (r : Registry)
    (inner : Field → Value → Value) (kind : Kind) (v : Value) :
    pruneNestedStep (m := Id) policy r.resolver inner kind v =
      afterPruning v (pruneComponentStep (m := Id) policy r.resolver inner kind v) := by
  unfold pruneNestedStep
  cases pruneComponentStep (m := Id) policy r.resolver inner kind v <;> rfl

/-- Prunes a component block in its place. -/
def pruneRun (policy : Policy) (kind : Kind) (v : Value) : RegistryM Value := do
  return afterPruning v (← policy.supplied (pruneComponent policy resolve kind v))

theorem Registry.IsRegular.supplied {r : Registry} (hr : r.IsRegular) (policy : Policy) :
    (policy.registry r).IsRegular := by
  unfold Policy.registry
  cases policy.supply with
  | own => exact hr
  | builtin => exact Builtin.registry_isRegular

/-- A run gives what pruning on the refreshed registry standing still gives, and the registry is the
same after another refresh. -/
theorem run_pruneRun (policy : Policy) (kind : Kind) (v : Value) (r : Registry) :
    ((pruneRun policy kind v).run r).1 = pruneNestedStep (m := Id) policy
        (policy.registry r).refreshed.resolver
        (pruneFieldTo policy (policy.registry r).refreshed.resolver v.depth) kind v ∧
      (policy.registry ((pruneRun policy kind v).run r).2).refreshed =
        (policy.registry r).refreshed := by
  obtain ⟨hvalue, hstate⟩ := (Snapshot.pruneComponent policy kind v).supplied policy r
  refine ⟨(congrArg (afterPruning v) hvalue).trans ?_, hstate⟩
  unfold pruneNestedStep pruneComponent
  cases pruneComponentStep (m := Id) policy (policy.registry r).refreshed.resolver
    (pruneFieldTo policy (policy.registry r).refreshed.resolver v.depth) kind v <;> rfl

/-- Pruning a component block in its place a second time changes nothing: not its keys, not their
order, and not what stands under them, whether or not the block denotes anything at either time. -/
theorem pruneRun_twice {r : Registry} (hr : r.IsRegular) (policy : Policy) (kind : Kind)
    (v : Value) :
    let once := (pruneRun policy kind v).run r
    ((pruneRun policy kind once.1).run once.2).1 = once.1 := by
  intro once
  obtain ⟨honce, hstate⟩ := run_pruneRun policy kind v r
  obtain ⟨htwice, -⟩ := run_pruneRun policy kind once.1 once.2
  -- both runs are pruning on one registry that stands still
  rw [htwice, hstate]
  generalize once.1 = w at honce ⊢
  subst honce
  have hregular := (hr.supplied policy).refreshed
  exact pruneNestedStep_twice (alike_pruneFieldTo policy _ _) (alike_pruneFieldTo policy _ _)
    hregular (fun f v hf hv => pruneFieldTo_twice hregular policy _ hf hv) kind (Nat.le_refl _)

/-- An input that an extension has announced, told by its `type`, with a processor inside that is
told by its key. The first run drops both `type` keys, so the second one meets an input that denotes
something by its key alone. -/
theorem pruneRun_twice_announced :
    let r := Builtin.registry.announce "late" .input
    let policy : Policy := { Policy.keepAll with removeTypeField := true, supply := .own }
    let block : Value := .object
      [("type", .string "late"), ("junk", .null), ("late", .object []), ("label", .string "in"),
       ("processors", .array [.object [("type", .number (.int 1)), ("noop", .object []),
         ("stdin", .object [])]])]
    let once := (pruneRun policy .input block).run r
    r.IsRegular ∧
      once.1 = .object [("late", .object []), ("label", .string "in"),
        ("processors", .array [.object [("noop", .object [])]])] ∧
      ((pruneRun policy .input once.1).run once.2).1 = once.1 := by
  have hregular : (Builtin.registry.announce "late" .input).IsRegular :=
    { Builtin.registry_isRegular with queued := by decide }
  exact ⟨hregular, rfl, pruneRun_twice hregular _ _ _⟩

end StreamConfig
