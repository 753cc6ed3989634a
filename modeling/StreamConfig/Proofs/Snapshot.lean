import StreamConfig.Proofs.Correspondence

/-! # Walks over a registry that refreshes

Pruning and linting refresh the registry each time they resolve a component block, also far inside a
walk. Only the first refresh can find anything in the queue, so a walk sees one registry throughout:
the refreshed one.

* `Snapshot` — a computation that sees the refreshed registry only, and leaves the registry as it
  was or refreshed;
* `Snapshot.pruneComponent`, `Snapshot.lintDocument` and their likes — the walks are such
  computations, and what they give is what the same walks give on the refreshed registry standing
  still.
-/

namespace StreamConfig

/-- The registry on which a run with a policy looks components up. -/
def Policy.registry (policy : Policy) (r : Registry) : Registry :=
  match policy.supply with
  | .own => r
  | .builtin => Builtin.registry

/-- Run on any registry, `x` gives what `f` says of the refreshed one, and it leaves the registry as
it was or refreshed. -/
def Snapshot {α : Type} (x : RegistryM α) (f : Registry → Id α) : Prop :=
  ∀ r : Registry, (x.run r).1 = f r.refreshed ∧
    ((x.run r).2 = r ∨ (x.run r).2 = r.refreshed)

namespace Snapshot

/-- The registry is `r`, refreshed or not yet. -/
def IsStage (r s : Registry) : Prop := s = r ∨ s = r.refreshed

theorem IsStage.refreshed_eq {r s : Registry} (h : IsStage r s) : s.refreshed = r.refreshed := by
  rcases h with rfl | rfl
  · rfl
  · exact r.refreshed_refreshed

/-- A computation that starts at a stage of `r` ends at one, and gives what a computation without a
registry gives. -/
def correspondence (r : Registry) : Correspondence RegistryM Id where
  Holds x a := ∀ s, IsStage r s → (x.run s).1 = a ∧ IsStage r (x.run s).2
  pure _ := fun _ hs => ⟨rfl, hs⟩
  bind {α β x y f g} hx hf := by
    intro s hs
    obtain ⟨hvalue, hstage⟩ := hx s hs
    have hrun : (x >>= f).run s = (f (x.run s).1).run (x.run s).2 := rfl
    rw [hrun, hvalue]
    exact hf y _ hstage

theorem resolve (r : Registry) (kind : Kind) (default : String) (v : Value) :
    (correspondence r).Holds (resolve kind default v) (r.refreshed.resolver kind default v) := by
  intro s hs
  have hrun : (StreamConfig.resolve kind default v).run s =
      (s.refreshed.resolve kind default v, s.refreshed) := rfl
  rw [hrun, hs.refreshed_eq]
  exact ⟨rfl, .inr rfl⟩

theorem of_correspondence {α : Type} {x : RegistryM α} {f : Registry → Id α}
    (h : ∀ r, (correspondence r).Holds x (f r.refreshed)) : Snapshot x f :=
  fun r => h r r (.inl rfl)

theorem pruneComponent (policy : Policy) (kind : Kind) (v : Value) :
    Snapshot (pruneComponent policy StreamConfig.resolve kind v)
      fun r => StreamConfig.pruneComponent policy r.resolver kind v :=
  of_correspondence fun r => (correspondence r).pruneComponent (resolve r) policy kind v

theorem pruneField (policy : Policy) (f : Field) (v : Value) :
    Snapshot (pruneField policy StreamConfig.resolve f v)
      fun r => StreamConfig.pruneField policy r.resolver f v :=
  of_correspondence fun r => (correspondence r).pruneField (resolve r) policy f v

theorem pruneFields (policy : Policy) (fields : List Field) (v : Value) :
    Snapshot (pruneFields policy StreamConfig.resolve fields v)
      fun r => StreamConfig.pruneFields policy r.resolver fields v :=
  of_correspondence fun r => (correspondence r).pruneFields (resolve r) policy fields v

/-- Linting finds what it finds on the refreshed registry standing still. -/
theorem lintDocument (source : String) (v : Value) :
    Snapshot (lintDocument source v) fun r =>
      Finding.inOrder (Remark.settle (Positions.scan source v) []
        (StreamConfig.remarksOn r.resolver v)) :=
  of_correspondence fun r => (correspondence r).bind ((correspondence r).remarksOn (resolve r) v)
    fun _ => (correspondence r).pure _

/-- The same on the components that a policy names: the run sees its registry refreshed, and another
run will see the same. -/
theorem supplied {α : Type} {x : RegistryM α} {f : Registry → Id α} (hx : Snapshot x f)
    (policy : Policy) (r : Registry) :
    ((policy.supplied x).run r).1 = f (policy.registry r).refreshed ∧
      (policy.registry ((policy.supplied x).run r).2).refreshed =
        (policy.registry r).refreshed := by
  unfold Policy.supplied Policy.registry
  cases policy.supply with
  | own =>
    obtain ⟨hvalue, hstage⟩ := hx r
    exact ⟨hvalue, IsStage.refreshed_eq hstage⟩
  | builtin => exact ⟨(hx Builtin.registry).1, rfl⟩

end Snapshot

end StreamConfig
