import StreamConfig.Proofs.Pruning.Levels

/-! # What survives in one block

Pruning a block changes its own value first, drops entries of what it then finds, and prunes the
values of reserved keys last. None of this is seen by the rules that decide: they give the same
answers on the block as it was.
* `remains` — whether an entry is there afterwards, judged by the block as it was
* `Policy.prunedBy` — what a field makes of a value
* `pruneComponent_object` — a block that denotes a component keeps the entries that remain, in
  order, each pruned by the component's own field or a reserved one, or by both
-/

namespace StreamConfig

/-- Whether an entry of a block of the component `c` is there after pruning: it is the component's
own, or reserved and of use, and it is not an unwanted `type`. -/
def remains (policy : Policy) (kind : Kind) (c : Component) (es : Entries) (e : String × Value) :
    Bool :=
  (e.1 == c.name || (kind.reserved? e.1).any fun f => (f.omissionReason? e.2 es).isNone) &&
    !(policy.removeTypeField && e.1 == "type")

/-- What a field makes of a value that is pruned on a registry. -/
def Policy.prunedBy (policy : Policy) (r : Registry) (f : Field) (v : Value) : Value :=
  ((policy.supplied (pruneField policy resolve f v)).run r).1

theorem Policy.prunedBy_eq (policy : Policy) (r : Registry) (f : Field) (v : Value) :
    policy.prunedBy r f v =
      pruneField (m := Id) policy (policy.registry r).refreshed.resolver f v :=
  ((Snapshot.pruneField policy f v).supplied policy r).1

/-- The levels below a value are enough for every value that is less deep. -/
theorem Policy.pruneFieldTo_eq_prunedBy (policy : Policy) (r : Registry) {n : Nat} (f : Field)
    {v : Value} (hv : v.depth < n) :
    pruneFieldTo (m := Id) policy (policy.registry r).refreshed.resolver n f v =
      policy.prunedBy r f v := by
  rw [Policy.prunedBy_eq]
  exact pruneFieldTo_eq_pruneField policy _ f hv

/-- A block denotes what it denotes on the refreshed registry that the policy names. -/
theorem run_supplied_resolve (policy : Policy) (r : Registry) (kind : Kind) (default : String)
    (v : Value) :
    ((policy.supplied (resolve kind default v)).run r).1 =
      (policy.registry r).refreshed.resolve kind default v := by
  unfold Policy.supplied Policy.registry
  cases policy.supply <;> rfl

/-- Whether `type` goes with the other entries or after them makes no difference. -/
theorem settledBlock_eq_map_filter (policy : Policy) (inner : Field → Value → Value) (kind : Kind)
    (c : Component) (es : Entries) :
    settledBlock policy inner kind c es =
      (es.filter (remains policy kind c es)).map (settledEntry inner kind c) := by
  have hsurvives : ∀ e, survives kind c.name es e =
      (e.1 == c.name || (kind.reserved? e.1).any fun f => (f.omissionReason? e.2 es).isNone) := by
    intro e
    unfold survives
    cases kind.reserved? e.1 <;> rfl
  unfold settledBlock
  split
  next hremove =>
    rw [Entries.erase, List.filter_map, List.filter_filter]
    refine congrArg _ (List.filter_congr fun e _ => ?_)
    simp [remains, hsurvives, hremove, settledEntry, bne, Bool.and_comm]
  next hremove =>
    refine congrArg _ (List.filter_congr fun e _ => ?_)
    simp [remains, hsurvives, hremove]

/-- Pruning a block that denotes a component succeeds. What is left are the entries that remain, in
their order; the component's own value is pruned by its field, and then every value under a reserved
key by the reserved field. -/
theorem pruneComponent_object (r : Registry) (policy : Policy) {kind : Kind}
    (hkind : kind ≠ .condition) {es : Entries} {c : Component}
    (h : ((policy.supplied (resolve kind "" (.object es))).run r).1 = .ok c) :
    ((policy.supplied (pruneComponent policy resolve kind (.object es))).run r).1 =
      .ok (.object ((es.filter (remains policy kind c es)).map
        (settledEntry (policy.prunedBy r) kind c))) := by
  rw [run_supplied_resolve] at h
  rw [((Snapshot.pruneComponent policy kind (.object es)).supplied policy r).1]
  generalize hknown : (policy.registry r).refreshed = known at h
  -- the levels that a block has are enough for every value in it
  have hlevels : ∀ f (v : Value), v.depth < (Value.object es).depth →
      pruneFieldTo (m := Id) policy known.resolver (Value.object es).depth f v =
        policy.prunedBy r f v := by
    intro f v hv
    rw [Policy.prunedBy_eq, hknown]
    exact pruneFieldTo_eq_pruneField policy known f hv
  unfold pruneComponent
  rw [pruneComponentStep_ok policy _ (alike_pruneFieldTo policy known _) hkind h,
    settledBlock_congr (thinsTo_pruneFieldTo policy known _) hlevels kind c (Nat.le_refl _),
    settledBlock_eq_map_filter]

/-- An input that bears the name of a reserved field. Its list is pruned twice: as its own value,
which drops the empty notes, and as a list of processors, which drops what the processor in it does
not know. -/
theorem pruneComponent_object_processors :
    let note := Builtin.emptyOmitted (.string "note" "")
    let own := Component.ofConfig "processors" .input "" (Field.object "" "" [note]).asArray
    let r := Builtin.registry.register own
    let policy : Policy := { Policy.keepAll with removeTypeField := true, supply := .own }
    let es : Entries :=
      [("junk", .null), ("type", .string "processors"), ("label", .string "in"),
       ("processors", .array [.object [("note", .string ""), ("noop", .object []),
         ("stdin", .object [])]])]
    (Kind.input ≠ .condition ∧
        ((policy.supplied (resolve .input "" (.object es))).run r).1 = .ok own) ∧
      ((policy.supplied (pruneComponent policy resolve .input (.object es))).run r).1 =
        .ok (.object [("label", .string "in"),
          ("processors", .array [.object [("noop", .object [])]])]) := by
  intro note own r policy es
  have hkind : Kind.input ≠ .condition := by decide
  have hresolve : ((policy.supplied (resolve .input "" (.object es))).run r).1 = .ok own := rfl
  exact ⟨⟨hkind, hresolve⟩, (pruneComponent_object r policy hkind hresolve).trans rfl⟩

end StreamConfig
