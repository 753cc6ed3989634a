import StreamConfig.Proofs.Snapshot

/-! # Refreshes within a walk

Every resolution of a block begins with a refresh, the first of a walk as well as the ones far
inside it. Here a walk keeps a record of them:
* `Watched`, `watch` — resolution that notes the registry before and after its refresh
* `Record` — what such a record looks like: the first refresh brings what waits in the queue, all
  others leave the registry as it is
* `watching` — a walk and the same walk with a record do the same
* `walks_consistent` — so every walk gives what it gives after a refresh, and leaves the registry
  refreshed unless it resolves nothing
-/

namespace StreamConfig

/-- The registry before and after a refresh. -/
structure Refresh where
  before : Registry
  after : Registry

/-- Computations on a registry that keep a record of refreshes, the earliest first. -/
abbrev Watched := StateT (List Refresh) RegistryM

/-- Resolution that notes its refresh. -/
def watch : Resolver Watched := fun kind default v => do
  let before ← getThe Registry
  let found ← resolve kind default v
  let after ← getThe Registry
  modifyThe (List Refresh) fun log => log ++ [⟨before, after⟩]
  return found

/-- The findings for a document, with any way to resolve blocks. -/
def lintWith {m : Type → Type} [Monad m] (find : Resolver m) (source : String) (v : Value) :
    m (List Finding) := do
  let remarks ← remarksOn find v
  return Finding.inOrder (Remark.settle (Positions.scan source v) [] remarks)

/-- The record of a run that began on `r` and has come to `s`. Either nothing has been refreshed,
or the first refresh has, and no other one has changed anything. -/
inductive Record (r : Registry) : List Refresh → Registry → Prop
  | none : Record r [] r
  | some (others : Nat) :
      Record r (⟨r, r.refreshed⟩ :: List.replicate others ⟨r.refreshed, r.refreshed⟩) r.refreshed

theorem Record.snoc {r s : Registry} {log : List Refresh} (h : Record r log s) :
    Record r (log ++ [⟨s, s.refreshed⟩]) s.refreshed := by
  cases h with
  | none => exact .some 0
  | some others =>
    -- nothing is left in the queue for one more refresh
    rw [Registry.refreshed_refreshed, List.cons_append, ← List.replicate_succ']
    exact .some (others + 1)

/-- The same run with a record and without one. -/
def watching (r : Registry) : Correspondence RegistryM Watched where
  Holds x y := ∀ log s, Record r log s →
    ∃ log', (y.run log).run s = (((x.run s).1, log'), (x.run s).2) ∧ Record r log' (x.run s).2
  pure _ := fun log _ h => ⟨log, rfl, h⟩
  bind {α β x y f g} hx hf := by
    intro log s h
    obtain ⟨log', hrun, h'⟩ := hx log s h
    have hplain : (x >>= f).run s = (f (x.run s).1).run (x.run s).2 := rfl
    have hwatched : ((y >>= g).run log).run s =
      ((g ((y.run log).run s).1.1).run ((y.run log).run s).1.2).run ((y.run log).run s).2 := rfl
    rw [hplain, hwatched, hrun]
    exact hf _ log' _ h'

theorem watching_resolve (r : Registry) (kind : Kind) (default : String) (v : Value) :
    (watching r).Holds (resolve kind default v) (watch kind default v) :=
  fun log s h => ⟨log ++ [⟨s, s.refreshed⟩], rfl, h.snoc⟩

/-- A computation on one consistent registry: it gives what it gives if the registry is refreshed
first, and it may be watched. -/
structure IsConsistent {α : Type} (x : RegistryM α) (watched : Watched α) (r : Registry) :
    Prop where
  value : (x.run r).1 = ((do let _ ← Registry.refresh; x).run r).1
  record : ∃ log, (watched.run []).run r = (((x.run r).1, log), (x.run r).2) ∧
    Record r log (x.run r).2

theorem Snapshot.isConsistent {α : Type} {x : RegistryM α} {f : Registry → Id α}
    (h : Snapshot x f) {watched : Watched α} {r : Registry} (hw : (watching r).Holds x watched) :
    IsConsistent x watched r := by
  refine ⟨?_, hw [] r .none⟩
  have hfirst : ((do let _ ← Registry.refresh; x).run r).1 = (x.run r.refreshed).1 := rfl
  rw [hfirst, (h r).1, (h r.refreshed).1, Registry.refreshed_refreshed]

/-- Whatever the registry knows and whatever waits in its queue: resolution, pruning and linting
give what they give if the registry is refreshed first. A run that resolves something leaves the
registry refreshed, its first refresh finds the registry as it was, and all others change nothing.
A run that resolves nothing leaves the registry as it was. -/
theorem walks_consistent (r : Registry) (kind : Kind) (default : String) (policy : Policy)
    (f : Field) (fields : List Field) (source : String) (v : Value) :
    IsConsistent (resolve kind default v) (watch kind default v) r ∧
      IsConsistent (pruneComponent policy resolve kind v) (pruneComponent policy watch kind v) r ∧
      IsConsistent (pruneField policy resolve f v) (pruneField policy watch f v) r ∧
      IsConsistent (pruneFields policy resolve fields v) (pruneFields policy watch fields v) r ∧
      IsConsistent (lintDocument source v) (lintWith watch source v) r := by
  have hresolve := watching_resolve r
  refine ⟨?_, ?_, ?_, ?_, ?_⟩
  · have hsnapshot : Snapshot (resolve kind default v) fun r => r.resolver kind default v :=
      .of_correspondence fun r => Snapshot.resolve r kind default v
    exact hsnapshot.isConsistent (hresolve kind default v)
  · exact (Snapshot.pruneComponent policy kind v).isConsistent
      ((watching r).pruneComponent hresolve policy kind v)
  · exact (Snapshot.pruneField policy f v).isConsistent
      ((watching r).pruneField hresolve policy f v)
  · exact (Snapshot.pruneFields policy fields v).isConsistent
      ((watching r).pruneFields hresolve policy fields v)
  · exact (Snapshot.lintDocument source v).isConsistent
      ((watching r).bind ((watching r).remarksOn hresolve v) fun _ => (watching r).pure _)

end StreamConfig
