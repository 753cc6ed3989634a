import StreamConfig.Command.Run
import StreamConfig.Proofs.Pruning.Cleanliness
import StreamConfig.Proofs.Pruning.InPlace
import StreamConfig.Proofs.Pruning.Survivors
import StreamConfig.Proofs.Schema.Fields

/-! # Failures

Pruning fails with a block that denotes nothing, and with nothing else. It fails as a whole there:
the block stays as it is. The same happens to blocks below, but of these the blocks above are not
told, and nothing else comes near a place where that has happened.
* `run_pruneComponent_cases` — a block is pruned if it denotes a component, and only then
* `exit_runArguments` — so pruning a file ends as telling its component does
* `Demand.KeepsApart` — the invariant: the fields demanded do not share names
* `stays_of_reaches` — a block on the way that denotes nothing
* `pruneComponent_failures` — a run, with all failures on its way
-/

namespace StreamConfig

/-! ## Failures of a whole run -/

section Run

variable (policy : Policy) {kind : Kind} (hkind : kind ≠ .condition) (v : Value)

include hkind

/-- Pruning fails where the block denotes nothing, for the same reason. -/
theorem pruneComponent_cases (r : Registry) :
    (∃ e, r.resolve kind "" v = .error e ∧
      pruneComponent (m := Id) policy r.resolver kind v = .error e) ∨
    ∃ c w, r.resolve kind "" v = .ok c ∧
      pruneComponent (m := Id) policy r.resolver kind v = .ok w := by
  cases h : r.resolve kind "" v with
  | error e => exact .inl ⟨e, rfl, pruneComponentStep_error policy _ hkind h⟩
  | ok c =>
    obtain ⟨es, rfl⟩ := Registry.exists_object_of_resolve h
    exact .inr ⟨c, _, rfl, pruneComponentStep_ok policy _ (alike_pruneFieldTo policy r _) hkind h⟩

theorem run_pruneComponent_cases (r : Registry) :
    let found := ((policy.supplied (resolve kind "" v)).run r).1
    let pruned := ((policy.supplied (pruneComponent policy resolve kind v)).run r).1
    (∃ e, found = .error e ∧ pruned = .error e) ∨ ∃ c w, found = .ok c ∧ pruned = .ok w := by
  intro found pruned
  have hfound : found = _ := run_supplied_resolve policy r kind "" v
  have hpruned : pruned = _ := ((Snapshot.pruneComponent policy kind v).supplied policy r).1
  rw [hfound, hpruned]
  exact pruneComponent_cases policy hkind v _

end Run

/-- Pruning a file ends as telling its component does. -/
theorem exit_runPrune (files : Files) {policy : Policy} (hsupply : policy.supply = .builtin)
    (style : ValueStyle) {kind : Kind} (hkind : kind ≠ .condition) (file : String) :
    (runPrune files policy style kind file).exit = (runInfer files kind "" file).exit := by
  unfold runPrune runInfer
  cases files.load file with
  | error e => rfl
  | ok doc =>
    obtain ⟨source, v⟩ := doc
    have hcases : (∃ e, (resolve kind "" v Builtin.registry).1 = .error e ∧
        (pruneComponent policy resolve kind v Builtin.registry).1 = .error e) ∨
        ∃ c w, (resolve kind "" v Builtin.registry).1 = .ok c ∧
          (pruneComponent policy resolve kind v Builtin.registry).1 = .ok w := by
      have h := run_pruneComponent_cases policy hkind v Builtin.registry
      simp only [Policy.supplied, hsupply] at h
      exact h
    dsimp only
    rcases hcases with ⟨e, hfound, hpruned⟩ | ⟨c, w, hfound, hpruned⟩
    · rw [hfound, hpruned]
      rfl
    · rw [hfound, hpruned]
      rfl

theorem exit_runArguments {files : Files} {words words' : List String} {kind : Kind}
    (hkind : kind ≠ .condition) {removeTypeField removeDeprecated forExample : Bool}
    {style : ValueStyle} {file filter : String}
    (hwords : Command.ofArguments? words =
      some (.prune kind removeTypeField removeDeprecated forExample style file, filter))
    (hwords' : Command.ofArguments? words' = some (.infer kind "" file, filter)) :
    (runArguments files words).exit = (runArguments files words').exit := by
  simp only [runArguments, hwords, hwords', Command.run]
  cases LogFilter.check filter with
  | error e => rfl
  | ok => exact exit_runPrune files rfl style hkind file

/-- In its place a value is pruned to what pruning gives, or stays. -/
theorem run_pruneInPlace (policy : Policy) (kind : Kind) (v : Value) (r : Registry) :
    let pruned := ((policy.supplied (pruneComponent policy resolve kind v)).run r).1
    ((policy.supplied (pruneInPlace policy resolve kind v)).run r).1 =
      (pruned.map fun _ => (), afterPruning v pruned) := by
  rw [pruneInPlace_eq]
  unfold Policy.supplied
  cases policy.supply <;> rfl

/-! ## Failures on the way -/

/-- The fields demanded are those below a field which, with all fields below it, keeps their names
apart. -/
def Demand.KeepsApart : Demand → Prop
  | .block _ => True
  | .object fields => ∃ f : Field, f.children = fields ∧ ∀ g ∈ f.family, g.KeepsApart

theorem Demand.KeepsApart.hasDistinctNames {demand : Demand} (h : demand.KeepsApart) :
    demand.HasDistinctNames := by
  cases demand with
  | block => trivial
  | object fields =>
    obtain ⟨f, rfl, hfamily⟩ := h
    exact hfamily f f.mem_family_self

theorem Demand.keepsApart_of_demand? {f : Field} (hfamily : ∀ g ∈ f.family, g.KeepsApart)
    {demand : Demand} (h : f.demand? = some demand) : demand.KeepsApart := by
  unfold Field.demand? at h
  split at h
  · cases h
    trivial
  · split at h
    · cases h
    · cases h
      exact ⟨f, rfl, hfamily⟩

section Way

variable {policy : Policy} {r : Registry}

theorem Demand.Prunes.keepsApart (hr : r.KeepsApart) {demand : Demand}
    (hdemand : demand.KeepsApart) {es : Entries} {k : String} {f : Field}
    (h : demand.Prunes r es k f) : ∀ g ∈ f.family, g.KeepsApart := by
  cases h with
  | own _ hc =>
    exact fun g hg => hr.siblings g (Registry.mem_fields_of_get? (Registry.get?_of_resolve hc) hg)
  | reserved _ _ hf =>
    exact Kind.forall_mem_family_of_reserved? (Kind.keepsApart_of_mem_reservedFields _) hf
  | known hf =>
    obtain ⟨parent, rfl, hfamily⟩ := hdemand
    exact fun g hg => hfamily g (Field.mem_family_of_child hf hg)

theorem Spot.IsTreated.reaches (hr : r.KeepsApart) {s t : Spot} (hs : s.IsTreated policy r)
    (hdemand : s.demand.KeepsApart) (h : s.Reaches r t) :
    t.IsTreated policy r ∧ t.demand.KeepsApart := by
  induction h with
  | start => exact ⟨hs, hdemand⟩
  | step _ hnext ih =>
    obtain ⟨htreated, hdemand⟩ := ih
    refine ⟨htreated.leads hr.names hdemand.hasDistinctNames hnext, ?_⟩
    cases hnext with
    | field hf _ _ hnext _ => exact Demand.keepsApart_of_demand? (hf.keepsApart hr hdemand) hnext

theorem Spot.IsTreated.stays {s : Spot} (hs : s.IsTreated policy r) {kind : Kind}
    (hdemand : s.demand = .block kind) (hkind : kind ≠ .condition) {e : ResolveError}
    (h : r.resolve kind "" s.before = .error e) : s.after = s.before := by
  obtain ⟨-, n, -, hafter⟩ := hs
  rw [hdemand] at hafter
  exact hafter.trans (pruneNestedStep_error policy _ hkind h)

/-- Wherever the run of a block comes on its way, a block that denotes nothing is left there as it
stood. -/
theorem stays_of_reaches (hr : (policy.registry r).refreshed.KeepsApart)
    {kind : Kind} {v w : Value} (hv : v.hasDistinctKeys = true)
    (hpruned : ((policy.supplied (pruneComponent policy resolve kind v)).run r).1 = .ok w)
    {s : Spot} (hreaches : Spot.Reaches (policy.registry r).refreshed ⟨.block kind, v, w⟩ s)
    {kind' : Kind} (hdemand : s.demand = .block kind') (hkind' : kind' ≠ .condition)
    {e : ResolveError}
    (he : (policy.registry r).refreshed.resolve kind' "" s.before = .error e) :
    s.after = s.before := by
  have hleft : ((pruneRun policy kind v).run r).1 = w := congrArg (afterPruning v) hpruned
  have hstart : Spot.IsTreated policy (policy.registry r).refreshed ⟨.block kind, v, w⟩ :=
    { distinct := hv
      pruned := ⟨v.depth, Nat.le_refl _, hleft.symm.trans (run_pruneRun policy kind v r).1⟩ }
  -- what stands there in the end is what pruning makes of it, which has nothing to go by
  obtain ⟨htreated, -⟩ := hstart.reaches hr trivial hreaches
  exact htreated.stays hdemand hkind' he

end Way

/-! ## All failures of a run -/

/-- Pruning a block fails just if the block denotes nothing, for the same reason, and in its place
the block is then untouched; pruning a file on the command line ends as telling its component does.
And if names are kept apart, then a run that does not fail has left every block as it was that
denotes nothing and that the run has come to and not dropped. -/
theorem pruneComponent_failures (r : Registry) (policy : Policy) {kind : Kind}
    (hkind : kind ≠ .condition) (v : Value) :
    let found kind' (u : Value) := ((policy.supplied (resolve kind' "" u)).run r).1
    let pruned := ((policy.supplied (pruneComponent policy resolve kind v)).run r).1
    let inPlace := ((policy.supplied (pruneInPlace policy resolve kind v)).run r).1
    (∀ e, pruned = .error e ↔ found kind v = .error e) ∧
      (∀ e, pruned = .error e → inPlace = (.error e, v)) ∧
      (∀ (files : Files) words words' removeTypeField removeDeprecated forExample style file filter,
        Command.ofArguments? words =
          some (.prune kind removeTypeField removeDeprecated forExample style file, filter) →
        Command.ofArguments? words' = some (.infer kind "" file, filter) →
        (runArguments files words).exit = (runArguments files words').exit) ∧
      ((policy.registry r).refreshed.KeepsApart → v.hasDistinctKeys = true →
        ∀ c, found kind v = .ok c → ∃ w, pruned = .ok w ∧ inPlace = (.ok (), w) ∧
          ∀ kind' u u' e, kind' ≠ .condition →
            Spot.Reaches (policy.registry r).refreshed ⟨.block kind, v, w⟩ ⟨.block kind', u, u'⟩ →
            found kind' u = .error e → u' = u) := by
  intro found pruned inPlace
  have hinPlace : inPlace = (pruned.map fun _ => (), afterPruning v pruned) :=
    run_pruneInPlace policy kind v r
  have hcases : (∃ e, found kind v = .error e ∧ pruned = .error e) ∨
      ∃ c w, found kind v = .ok c ∧ pruned = .ok w := run_pruneComponent_cases policy hkind v r
  refine ⟨fun e => ?_, fun e he => ?_, ?_, ?_⟩
  · rcases hcases with ⟨e', hfound, hpruned⟩ | ⟨c, w, hfound, hpruned⟩
    · rw [hfound, hpruned, Except.error.injEq, Except.error.injEq]
    · rw [hfound, hpruned]
      exact ⟨nofun, nofun⟩
  · rw [hinPlace, he]
    rfl
  · exact fun files _ _ _ _ _ _ _ _ => exit_runArguments hkind
  · intro hr hv c hc
    obtain ⟨w, hw⟩ : ∃ w, pruned = .ok w := by
      rcases hcases with ⟨e, hfound, -⟩ | ⟨-, w, -, hpruned⟩
      · rw [hfound] at hc
        cases hc
      · exact ⟨w, hpruned⟩
    refine ⟨w, hw, by rw [hinPlace, hw]; rfl, fun kind' u u' e hkind' hreaches he => ?_⟩
    have hfound : (policy.registry r).refreshed.resolve kind' "" u = .error e :=
      (run_supplied_resolve policy r kind' "" u).symm.trans he
    exact stays_of_reaches hr hv hw hreaches rfl hkind' hfound

/-- Two processors inside an input. The first one denotes nothing and stays as it is, where it is;
the second one loses a key. -/
theorem pruneComponent_failures_nested :
    let stray : Value := .object [("nope", .null), ("label", .string "a")]
    let v : Value := .object [("stdin", .object []), ("junk", .null),
      ("processors", .array [stray, .object [("noop", .object []), ("x", .null)]])]
    let w : Value := .object [("stdin", .object []),
      ("processors", .array [stray, .object [("noop", .object [])]])]
    let left u := Spot.Reaches Builtin.registry.refreshed ⟨.block .input, v, w⟩
      ⟨.block .processor, stray, u⟩
    ((Policy.keepAll.supplied (pruneInPlace Policy.keepAll resolve .input v)).run
        Builtin.registry).1 = (.ok (), w) ∧
      left stray ∧ (∀ u, left u → u = stray) ∧
      ∀ files, (runArguments files ["sanitise", "--kind", "input", "file"]).exit =
        (runArguments files ["infer", "--kind", "input", "file"]).exit := by
  intro stray v w left
  obtain ⟨-, -, hcommands, hway⟩ :=
    @pruneComponent_failures Builtin.registry .keepAll .input (by decide) v
  obtain ⟨w', hpruned, hinPlace, hstays⟩ :=
    hway Builtin.registry_keepsApart (by decide) Builtin.inputs[0] rfl
  obtain rfl : w = w' := Except.ok.inj hpruned
  have hprocessor : Spot.Leads Builtin.registry.refreshed ⟨.block .input, v, w⟩
      ⟨.block .processor, stray, stray⟩ :=
    .field (k := "processors") (.reserved (c := Builtin.inputs[0]) (by decide) rfl rfl) rfl rfl rfl
      (.item (i := 0) rfl rfl)
  refine ⟨hinPlace, Spot.Reaches.start.step hprocessor, fun u hu => ?_, fun files => ?_⟩
  · exact hstays .processor stray u (.noCandidate .processor ["nope"]) (by decide) hu rfl
  · exact hcommands files _ _ false false false .yaml "file" "warn" (by decide +kernel)
      (by decide +kernel)

end StreamConfig
