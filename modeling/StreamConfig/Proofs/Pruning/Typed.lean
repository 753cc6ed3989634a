import StreamConfig.Proofs.Pruning.Survivors
import StreamConfig.Proofs.Schema.Denotation
import StreamConfig.Proofs.Value.Reordering

/-! # Blocks and their `type`

A block tells its component by a text under `type`, or else by the component's own key. Pruning
takes other keys away, and `type` too if the policy says so. A block never denotes another component
for that, and which of the two tells it makes no difference to what is left of it.
* `Registry.resolve_settledBlock_of_keepsType` — a pruned block with its `type` denotes what it did
* `Registry.resolve_settledBlock_of_dropsType` — without it, the same or nothing
* `resolve_pruned` — what is left of a block by a run, resolved again
* `settledBlock_told` — a block that tells its component by `type` besides
* `pruneComponent_told` — runs on both blocks
-/

namespace StreamConfig

theorem Kind.reserved?_type (kind : Kind) :
    kind.reserved? "type" = some (Field.string "type" "") := by
  cases kind <;> rfl

/-! ## What a pruned block denotes -/

section Block

variable {policy : Policy} {prune : Field → Value → Value} {r : Registry} {kind : Kind}
  {c : Component} {es : Entries}

theorem settledBlock_of_keepsType (htype : policy.removeTypeField = false) :
    settledBlock policy prune kind c es =
      (es.filter (survives kind c.name es)).map (settledEntry prune kind c) := by
  simp [settledBlock, htype]

variable (policy prune kind c) in
/-- What is left of some of the entries of a block. -/
def settledPart (es part : Entries) : Entries :=
  (part.filter (remains policy kind c es)).map (settledEntry prune kind c)

theorem keys_settledPart (part : Entries) :
    (settledPart policy prune kind c es part).keys =
      Entries.keys (part.filter (remains policy kind c es)) := List.map_map

theorem keys_settledPart_sublist (part : Entries) :
    (settledPart policy prune kind c es part).keys.Sublist part.keys := by
  rw [keys_settledPart]
  exact List.filter_sublist.map _

theorem settledBlock_eq_settledPart :
    settledBlock policy prune kind c es = settledPart policy prune kind c es es :=
  settledBlock_eq_map_filter policy prune kind c es

/-- The key `type` is reserved, and no rule says that it is of no use. -/
theorem survives_type (name : String) {e : String × Value} (he : e.1 = "type") :
    survives kind name es e = true := by
  simp [survives, he, kind.reserved?_type, Field.omissionReason?, Field.string, Field.plain]

theorem Registry.resolve_settledBlock_of_keepsType
    (hprune : ∀ f (v : Value), v.Alike (prune f v)) (htype : policy.removeTypeField = false)
    (h : r.resolve kind "" (.object es) = .ok c) :
    r.resolve kind "" (.object (settledBlock policy prune kind c es)) = .ok c := by
  have htext : (settledBlock policy prune kind c es).text? "type" = es.text? "type" := by
    rw [settledBlock_of_keepsType htype]
    exact text?_map_filter (settledEntry prune kind c) (fun e he => survives_type c.name he)
      (fun _ => rfl) (alike_settledEntry hprune) es
  cases hbefore : es.text? "type" with
  | some name =>
    rw [resolve_of_type hbefore] at h
    rwa [resolve_of_type (htext.trans hbefore)]
  | none =>
    rw [resolve_of_no_type hbefore, resolveKeys_eq_ok_iff] at h
    rw [resolve_of_no_type (htext.trans hbefore), resolveKeys_eq_ok_iff]
    refine ⟨?_, h.2⟩
    -- the only key that names a component is the component's own, and that one stays
    have hsublist : (r.named kind (settledBlock policy prune kind c es).keys).Sublist [c.name] :=
      h.1 ▸ settledBlock_eq_settledPart ▸ (keys_settledPart_sublist es).filter _
    have hown : c.name ∈ r.named kind (settledBlock policy prune kind c es).keys := by
      obtain ⟨hmem, hnamed⟩ := List.mem_filter.1 (h.1 ▸ List.mem_singleton_self c.name)
      obtain ⟨e, he, hek⟩ := List.mem_map.1 hmem
      refine List.mem_filter.2 ⟨?_, hnamed⟩
      have hstays : remains policy kind c es e = true := by simp [remains, hek, htype]
      rw [settledBlock_eq_settledPart, keys_settledPart]
      exact List.mem_map.2 ⟨e, List.mem_filter.2 ⟨he, hstays⟩, hek⟩
    rcases List.sublist_singleton.1 hsublist with hnone | hsame
    · rw [hnone] at hown
      cases hown
    · exact hsame

/-- Without its `type` a pruned block has nothing to be told by but its own key. -/
theorem Registry.resolve_settledBlock_of_dropsType (hkeys : es.keys.Nodup)
    (htype : policy.removeTypeField = true) (h : r.resolve kind "" (.object es) = .ok c) :
    r.resolve kind "" (.object (settledBlock policy prune kind c es)) =
      if c.name ∈ (settledBlock policy prune kind c es).keys ∧ kind.isReserved c.name = false
      then .ok c else .error (.noCandidate kind []) := by
  generalize hblock : settledBlock policy prune kind c es = block
  have hkey : ∀ k ∈ block.keys, k = c.name ∨ kind.isReserved k = true := by
    intro k hk
    obtain ⟨e, he, rfl⟩ := List.mem_map.1 hk
    exact key_of_mem_settledBlock (hblock ▸ he)
  have htext : block.text? "type" = none := by
    have hgone : block.get? "type" = none := by
      rw [← hblock, settledBlock, if_pos htype, Entries.get?_erase, if_pos rfl]
    simp [Entries.text?, hgone]
  rw [resolve_of_no_type htext]
  split
  next hown =>
    have hsublist : block.keys.Sublist es.keys := by
      rw [← hblock, settledBlock_eq_settledPart]
      exact keys_settledPart_sublist es
    have hnamed : (r.named kind block.keys).Nodup := (hsublist.nodup hkeys).filter _
    rw [resolveKeys_eq_ok_iff, ← List.perm_singleton,
      List.perm_ext_iff_of_nodup hnamed (List.nodup_singleton _)]
    refine ⟨fun k => ?_, get?_of_resolve h⟩
    rw [List.mem_singleton]
    constructor
    · -- the component's own key is the only one that is not reserved
      intro hk
      obtain ⟨hmem, hfree⟩ := List.mem_filter.1 hk
      refine (hkey k hmem).resolve_right fun hreserved => ?_
      simp [hreserved] at hfree
    · rintro rfl
      simp [named, hown, get?_of_resolve h]
  next hnone =>
    have hopen : candidates kind block.keys = [] := by
      refine List.filter_eq_nil_iff.2 fun k hk => ?_
      have hreserved : kind.isReserved k = true := by
        rcases hkey k hk with rfl | hreserved
        · simpa [hk] using hnone
        · exact hreserved
      simp [hreserved]
    rw [resolveKeys_of_named_nil (named_eq_nil_of_candidates hopen), hopen]
    rfl

/-! ## What is left, resolved again -/

/-- The run of a block that denotes a component, with what its own levels make of fields. -/
theorem run_pruneComponent_ok (policy : Policy) (hkind : kind ≠ .condition)
    (h : (policy.registry r).refreshed.resolve kind "" (.object es) = .ok c) :
    ((policy.supplied (pruneComponent policy resolve kind (.object es))).run r).1 =
      .ok (.object (settledBlock policy (pruneFieldTo (m := Id) policy
        (policy.registry r).refreshed.resolver (Value.object es).depth) kind c es)) := by
  rw [((Snapshot.pruneComponent policy kind (.object es)).supplied policy r).1]
  exact pruneComponentStep_ok policy _ (alike_pruneFieldTo policy _ _) hkind h

end Block

/-- What is left of a block that denotes a component. With its `type` it denotes the same. Without,
it does so if the component's own key is left and not reserved; else no key is left to tell by. -/
theorem resolve_pruned (r : Registry) (policy : Policy) {kind : Kind} (hkind : kind ≠ .condition)
    {v : Value} (hv : v.hasDistinctKeys = true) {c : Component}
    (h : ((policy.supplied (resolve kind "" v)).run r).1 = .ok c) :
    let after := (policy.supplied (pruneComponent policy resolve kind v)).run r
    ∃ es : Entries, after.1 = .ok (.object es) ∧
      let again := ((policy.supplied (resolve kind "" (.object es))).run after.2).1
      (policy.removeTypeField = false → again = .ok c) ∧
      (policy.removeTypeField = true → again =
        if c.name ∈ es.keys ∧ kind.isReserved c.name = false then .ok c
        else .error (.noCandidate kind [])) := by
  intro after
  rw [run_supplied_resolve] at h
  obtain ⟨es, rfl⟩ := Registry.exists_object_of_resolve h
  -- the second run sees the registry that the first one saw
  have hagain : ∀ w, ((policy.supplied (resolve kind "" w)).run after.2).1 =
      (policy.registry r).refreshed.resolve kind "" w := by
    intro w
    rw [run_supplied_resolve,
      ((Snapshot.pruneComponent policy kind (.object es)).supplied policy r).2]
  refine ⟨_, run_pruneComponent_ok policy hkind h, fun htype => ?_, fun htype => ?_⟩
  · exact (hagain _).trans
      (Registry.resolve_settledBlock_of_keepsType (alike_pruneFieldTo policy _ _) htype h)
  · exact (hagain _).trans (Registry.resolve_settledBlock_of_dropsType
      (Value.hasDistinctKeys_object_iff.1 hv).1 htype h)

/-- An input that has nothing but its `type` to be told by, and loses that. -/
theorem resolve_pruned_bare :
    let policy : Policy := { Policy.keepAll with removeTypeField := true }
    let v : Value := .object [("type", .string "stdin"), ("label", .string "in"), ("junk", .null)]
    let after := (policy.supplied (pruneComponent policy resolve .input v)).run Builtin.registry
    ((policy.supplied (resolve .input "" v)).run Builtin.registry).1 = .ok Builtin.inputs[0] ∧
      after.1 = .ok (.object [("label", .string "in")]) ∧
      ((policy.supplied (resolve .input "" (.object [("label", .string "in")]))).run after.2).1 =
        .error (.noCandidate .input []) := by
  intro policy v after
  have hresolve : ((policy.supplied (resolve .input "" v)).run Builtin.registry).1 =
      .ok Builtin.inputs[0] := rfl
  have hleft : after.1 = .ok (.object [("label", .string "in")]) := rfl
  obtain ⟨es, hes, -, hdrops⟩ :=
    resolve_pruned Builtin.registry policy (by decide) (by decide) hresolve
  obtain rfl : [("label", .string "in")] = es := by simpa using hleft.symm.trans hes
  exact ⟨hresolve, hleft, (hdrops rfl).trans (if_neg (by decide))⟩

/-! ## Blocks that tell their component twice -/

theorem Entries.get?_insertion {before after : Entries} {k : String} (hk : k ∉ before.keys)
    (v : Value) (l : String) :
    get? (before ++ (k, v) :: after) l = if l = k then some v else get? (before ++ after) l := by
  induction before with
  | nil =>
    rw [List.nil_append, List.nil_append, get?_cons]
    simp only [eq_comm]
  | cons e rest ih =>
    rw [keys_cons, List.mem_cons, not_or] at hk
    rw [List.cons_append, List.cons_append, get?_cons, get?_cons, ih hk.2]
    by_cases hl : e.1 = l
    · subst hl
      simp [Ne.symm hk.1]
    · simp [hl]

theorem Entries.text?_eq_none {es : Entries} {k : String} (hk : k ∉ es.keys) :
    es.text? k = none := by
  rw [text?, get?_eq_none_iff.2 hk]
  rfl

section Told

variable {policy : Policy} {prune : Field → Value → Value} {r : Registry} {kind : Kind}
  {c : Component} {before after : Entries}

theorem not_mem_before {k : String} (hk : k ∉ Entries.keys (before ++ after)) : k ∉ before.keys :=
  fun hmem => hk (by simpa [Entries.keys] using Or.inl hmem)

theorem text?_told {name : String} (htype : "type" ∉ Entries.keys (before ++ after)) :
    Entries.text? (before ++ ("type", .string name) :: after) "type" = some name := by
  simp [Entries.text?, Entries.get?_insertion (not_mem_before htype), Value.text?]

/-- A block without `type` denotes the same component if it tells it by `type` besides. -/
theorem Registry.resolve_told (htype : "type" ∉ Entries.keys (before ++ after))
    (h : r.resolve kind "" (.object (before ++ after)) = .ok c) :
    r.resolve kind "" (.object (before ++ ("type", .string c.name) :: after)) = .ok c := by
  rw [resolve_of_type (text?_told htype), get?_of_resolve h]

/-- A block that denotes `resource` and names one points to it, and a block that denotes anything
else does not begin to by telling its `type`. -/
theorem pointsToResource_told {name : String} (htype : "type" ∉ Entries.keys (before ++ after))
    (hresource : name = "resource" →
      ∃ s, s ≠ "" ∧ Entries.text? (before ++ after) "resource" = some s) :
    Omission.pointsToResource (before ++ ("type", .string name) :: after) =
      Omission.pointsToResource (before ++ after) := by
  have hother : Entries.text? (before ++ ("type", .string name) :: after) "resource" =
      Entries.text? (before ++ after) "resource" := by
    simp [Entries.text?, Entries.get?_insertion (not_mem_before htype)]
  unfold Omission.pointsToResource
  rw [text?_told htype, hother, Entries.text?_eq_none htype]
  by_cases hname : name = "resource"
  · obtain ⟨s, hs, htext⟩ := hresource hname
    simp [htext, hs]
  · simp [hname]

/-- No rule sees more of a block than whether it points to a resource. -/
theorem remains_told
    (hpoints : Omission.pointsToResource (before ++ ("type", .string c.name) :: after) =
      Omission.pointsToResource (before ++ after)) :
    remains policy kind c (before ++ ("type", .string c.name) :: after) =
      remains policy kind c (before ++ after) := by
  funext e
  unfold remains
  cases hreserved : kind.reserved? e.1 with
  | none => rfl
  | some f =>
    rw [Option.any_some, Option.any_some,
      Kind.omissionReason?_congr_of_reserved? hreserved e.2 hpoints]

/-- A block that tells its component by `type` besides keeps the same entries, and `type` unless the
policy says otherwise. -/
theorem settledBlock_told (hname : c.name ≠ "type")
    (hprune : ∀ v : Value, prune (Field.string "type" "") v = v)
    (hpoints : Omission.pointsToResource (before ++ ("type", .string c.name) :: after) =
      Omission.pointsToResource (before ++ after)) :
    let left := settledPart policy prune kind c (before ++ after)
    settledBlock policy prune kind c (before ++ ("type", .string c.name) :: after) =
      if policy.removeTypeField then left before ++ left after
      else left before ++ ("type", .string c.name) :: left after := by
  have hentry : settledEntry prune kind c ("type", .string c.name) = ("type", .string c.name) := by
    rw [settledEntry, kind.reserved?_type]
    simp [Ne.symm hname, hprune]
  have hremains : remains policy kind c (before ++ after) ("type", .string c.name) =
      !policy.removeTypeField := by
    simp [remains, kind.reserved?_type, Field.omissionReason?, Field.string, Field.plain]
  rw [settledBlock_eq_map_filter, remains_told hpoints, List.filter_append, List.filter_cons,
    hremains]
  cases policy.removeTypeField with
  | true => simp [settledPart]
  | false => simp [settledPart, hentry]

/-- Let a block without `type` denote a component; if that is `resource`, let it name one. Told that
`type` besides, anywhere, it is pruned to the same entries, and keeps the `type` where it stands
unless the policy says otherwise. -/
theorem pruneComponent_told (r : Registry) (policy : Policy) {kind : Kind}
    (hkind : kind ≠ .condition) {before after : Entries}
    (htype : "type" ∉ Entries.keys (before ++ after)) {c : Component}
    (h : ((policy.supplied (resolve kind "" (.object (before ++ after)))).run r).1 = .ok c)
    (hresource : c.name = "resource" →
      ∃ s, s ≠ "" ∧ Entries.text? (before ++ after) "resource" = some s) :
    let run es := ((policy.supplied (pruneComponent policy resolve kind (.object es))).run r).1
    let told : String × Value := ("type", .string c.name)
    ∃ before' after' : Entries,
      before'.keys.Sublist before.keys ∧ after'.keys.Sublist after.keys ∧
      run (before ++ after) = .ok (.object (before' ++ after')) ∧
      run (before ++ told :: after) =
        .ok (.object (if policy.removeTypeField then before' ++ after'
          else before' ++ told :: after')) := by
  intro run told
  rw [run_supplied_resolve] at h
  -- a block without `type` is told by a key that bears the component's name
  have hname : c.name ≠ "type" := by
    rw [Registry.resolve_of_no_type (Entries.text?_eq_none htype)] at h
    obtain ⟨key, hkey, -, hget⟩ := Registry.exists_key_of_resolveKeys h
    rw [(Registry.answers_of_get? hget).2]
    exact fun hsame => htype (hsame ▸ hkey)
  have hpoints := pointsToResource_told htype hresource
  have hdepth : (Value.object (before ++ told :: after)).depth =
      (Value.object (before ++ after)).depth := by
    simp [Value.depth, Value.entriesDepth_eq_of_perm List.perm_middle, Value.entriesDepth, told]
  let prune := pruneFieldTo (m := Id) policy (policy.registry r).refreshed.resolver
    (Value.object (before ++ after)).depth
  -- a text under `type` has no fields to be pruned by
  have hprune : ∀ v : Value, prune (Field.string "type" "") v = v := fun _ => rfl
  let left := settledPart policy prune kind c (before ++ after)
  refine ⟨left before, left after, keys_settledPart_sublist _, keys_settledPart_sublist _, ?_, ?_⟩
  · refine (run_pruneComponent_ok policy hkind h).trans ?_
    rw [settledBlock_eq_map_filter, List.filter_append, List.map_append]
    rfl
  · refine (run_pruneComponent_ok policy hkind (Registry.resolve_told htype h)).trans ?_
    rw [hdepth, settledBlock_told hname hprune hpoints]

end Told

/-- A reference to a shared input. With or without its `type` it points to a resource, so that its
label has no effect. -/
theorem pruneComponent_told_resource :
    let v : Entries := [("label", .string "in"), ("resource", .string "shared"), ("junk", .null)]
    let told : Entries := [("label", .string "in"), ("type", .string "resource"),
      ("resource", .string "shared"), ("junk", .null)]
    let run es := ((Policy.keepAll.supplied
      (pruneComponent Policy.keepAll resolve .input (.object es))).run Builtin.registry).1
    run v = .ok (.object [("resource", .string "shared")]) ∧
      run told = .ok (.object [("type", .string "resource"), ("resource", .string "shared")]) := by
  intro v told run
  have hresolve : ((Policy.keepAll.supplied (resolve .input "" (.object v))).run
      Builtin.registry).1 = .ok Builtin.inputs[3] := rfl
  have hrun : run v = .ok (.object [("resource", .string "shared")]) := rfl
  obtain ⟨before, after, hbefore, -, huntold, htold⟩ :=
    @pruneComponent_told Builtin.registry .keepAll .input (by decide) (v.take 1) (v.drop 1)
      (by decide) Builtin.inputs[3] hresolve fun _ => ⟨"shared", by decide, rfl⟩
  have hleft : before ++ after = [("resource", .string "shared")] := by
    simpa [Eq.comm] using hrun.symm.trans huntold
  rcases List.append_eq_singleton_iff.1 hleft with ⟨rfl, rfl⟩ | ⟨rfl, rfl⟩
  · exact ⟨hrun, htold⟩
  · exact absurd (hbefore.subset (List.mem_singleton_self _)) (by decide)

end StreamConfig
