import StreamConfig.Proofs.Nesting.Calls
import StreamConfig.Proofs.Snapshot

/-! # Walks that trace their calls

A walk is given room for a number of calls within one another. It traces every call that it makes,
and where there is no more room it gives nothing at all, so what it gives does not come from having
been cut short.

* `Traced` — such computations; `Traced.call` — a call among them
* `Traced.upTo` — what a computation gives another one gives as well
* `Follows` — a computation and the same with a trace end alike
* `Tells`, `TellsCall` — such computations that make good calls only, or one call that goes down
-/

namespace StreamConfig

/-- Computations on a registry that trace their calls, the earliest first, unless they run out of
room. -/
abbrev Traced := StateT (List Call) (OptionT RegistryM)

namespace Traced

variable {α β : Type}

/-- Runs on a registry and gives what it gives with the whole trace, and the registry after it. -/
def go (x : Traced α) (trace : List Call) (r : Registry) : Option (α × List Call) × Registry :=
  ((x.run trace).run).run r

/-- Resolution is not among the calls. -/
def resolve : Resolver Traced := fun kind default v => liftM (StreamConfig.resolve kind default v)

/-- Does some work as a call of its own. -/
def call (callee : Callee) (v : Value) (work : Traced α) : Traced α := fun trace => do
  let (a, within) ← work.run []
  return (a, trace ++ [⟨callee, v, within⟩])

theorem go_pure (a : α) (trace : List Call) (r : Registry) :
    (pure a : Traced α).go trace r = (some (a, trace), r) := rfl

theorem go_bind (x : Traced α) (f : α → Traced β) (trace : List Call) (r : Registry) :
    (x >>= f).go trace r =
      match x.go trace r with
      | (some (a, trace'), r') => (f a).go trace' r'
      | (none, r') => (none, r') := by
  simp only [go, StateT.run_bind, OptionT.run_bind, Option.elimM]
  show ((((x.run trace).run.run r).1.elim (pure none) fun p => ((f p.1).run p.2).run :
    RegistryM (Option (β × List Call)))).run ((x.run trace).run.run r).2 = _
  obtain ⟨_ | ⟨a, trace'⟩, r'⟩ := (x.run trace).run.run r <;> rfl

theorem go_call (callee : Callee) (v : Value) (x : Traced α) (trace : List Call) (r : Registry) :
    (call callee v x).go trace r =
      match x.go [] r with
      | (some (a, within), r') => (some (a, trace ++ [⟨callee, v, within⟩]), r')
      | (none, r') => (none, r') := by
  have hrun : (call callee v x).run trace =
      (x.run [] >>= fun p => pure (p.1, trace ++ [⟨callee, v, p.2⟩])) := rfl
  simp only [go, hrun, OptionT.run_bind, Option.elimM]
  show ((((x.run []).run.run r).1.elim (pure none) fun p =>
    pure (some (p.1, trace ++ [⟨callee, v, p.2⟩])) :
      RegistryM (Option (α × List Call)))).run ((x.run []).run.run r).2 = _
  obtain ⟨_ | ⟨a, within⟩, r'⟩ := (x.run []).run.run r <;> rfl

theorem go_resolve (kind : Kind) (default : String) (v : Value) (trace : List Call) (r : Registry) :
    (resolve kind default v).go trace r =
      (some (r.refreshed.resolve kind default v, trace), r.refreshed) := rfl

/-! ## More room -/

/-- What the first computation gives, with its trace, the second one gives as well. -/
def upTo : Correspondence Traced Traced where
  Holds x y := ∀ trace r result r', x.go trace r = (some result, r') →
    y.go trace r = (some result, r')
  pure _ := fun _ _ _ _ h => h
  bind {α β x y f g} hx hf := by
    intro trace r result r' h
    rw [go_bind] at h ⊢
    rcases hgo : x.go trace r with ⟨_ | ⟨a, trace'⟩, s⟩
    · rw [hgo] at h
      cases h
    · rw [hgo] at h
      rw [hx trace r _ _ hgo]
      exact hf a trace' s result r' h

theorem upTo_call {x y : Traced α} (h : upTo.Holds x y) (callee : Callee) (v : Value) :
    upTo.Holds (call callee v x) (call callee v y) := by
  intro trace r result r' hcall
  rw [go_call] at hcall ⊢
  rcases hgo : x.go [] r with ⟨_ | ⟨a, within⟩, s⟩
  · rw [hgo] at hcall
    cases hcall
  · rw [hgo] at hcall
    rw [h [] r _ _ hgo]
    exact hcall

theorem upTo_resolve (kind : Kind) (default : String) (v : Value) :
    upTo.Holds (resolve kind default v) (resolve kind default v) := fun _ _ _ _ h => h

theorem upTo_failure (x : Traced α) : upTo.Holds failure x := fun _ _ _ _ h => nomatch h

end Traced

/-! ## Walks with a trace -/

/-- Begun while the registry is at a stage of `r`, a computation and the same with a trace end
alike: they give `a` and leave the registry at the same stage. The calls that are traced on the way
are good. -/
def Follows {α : Type} (r : Registry) (good : List Call → Prop) (plain : RegistryM α) (x : Traced α)
    (a : α) : Prop :=
  ∀ s, Snapshot.IsStage r s → ∃ s', Snapshot.IsStage r s' ∧ plain.run s = (a, s') ∧
    ∃ calls, good calls ∧ ∀ trace, x.go trace s = (some (a, trace ++ calls), s')

/-- All calls that are traced are good. -/
def Tells {α : Type} (r : Registry) (good : Call → Prop) (plain : RegistryM α) (x : Traced α)
    (a : α) : Prop :=
  Follows r (fun calls => ∀ c ∈ calls, good c) plain x a

/-- There is a single call, and the calls made on its way go down. -/
def TellsCall {α : Type} (r : Registry) (callee : Callee) (v : Value) (plain : RegistryM α)
    (x : Traced α) (a : α) : Prop :=
  Follows r (fun calls => ∃ c : Call, calls = [c] ∧ c.callee = callee ∧ c.value = v ∧
    c.GoesDown r.refreshed) plain x a

/-- The calls that a call may make itself, if they go down. -/
def IsMadeBy (r : Registry) (callee : Callee) (v : Value) (c : Call) : Prop :=
  callee.MayCall r v c.callee c.value ∧ c.GoesDown r

namespace Tells

variable {α β : Type} {r : Registry} {good : Call → Prop}

theorem pure (a : α) : Tells r good (Pure.pure a) (Pure.pure a) a :=
  fun s hs => ⟨s, hs, rfl, [], List.forall_mem_nil _, fun trace => by
    rw [Traced.go_pure, List.append_nil]⟩

theorem bind {y : RegistryM α} {x : Traced α} {a : α} {g : α → RegistryM β} {f : α → Traced β}
    {b : β} (hx : Tells r good y x a) (hf : Tells r good (g a) (f a) b) :
    Tells r good (y >>= g) (x >>= f) b := by
  intro s hs
  obtain ⟨s', hs', hy, calls, hcalls, hx⟩ := hx s hs
  obtain ⟨s'', hs'', hg, calls', hcalls', hf⟩ := hf s' hs'
  refine ⟨s'', hs'', ?_, calls ++ calls', ?_, fun trace => ?_⟩
  · have hrun : (y >>= g).run s = (g (y.run s).1).run (y.run s).2 := rfl
    rw [hrun, hy, hg]
  · exact fun c hc => (List.mem_append.1 hc).elim (hcalls c) (hcalls' c)
  · rw [Traced.go_bind, hx, ← List.append_assoc]
    exact hf _

/-- Every resolution sees the registry refreshed. -/
theorem resolve_bind {kind : Kind} {default : String} {v : Value}
    {g : Except ResolveError Component → RegistryM α} {f : Except ResolveError Component → Traced α}
    {h : Except ResolveError Component → Id α}
    (hfound : ∀ found, r.refreshed.resolve kind default v = found →
      Tells r good (g found) (f found) (h found)) :
    Tells r good (StreamConfig.resolve kind default v >>= g) (Traced.resolve kind default v >>= f)
      ((r.refreshed.resolver kind default v : Id _) >>= h) := by
  have hresolve : Tells r good (StreamConfig.resolve kind default v)
      (Traced.resolve kind default v) (r.refreshed.resolve kind default v) := by
    intro s hs
    obtain ⟨hvalue, hstage⟩ := Snapshot.resolve r kind default v s hs
    refine ⟨s.refreshed, hstage, Prod.ext hvalue rfl, [], List.forall_mem_nil _, fun trace => ?_⟩
    rw [Traced.go_resolve, hs.refreshed_eq, List.append_nil]
  exact hresolve.bind (hfound _ rfl)

end Tells

namespace TellsCall

variable {α : Type} {r : Registry} {callee callee' : Callee} {v w : Value} {y : RegistryM α}
  {x : Traced α} {a : α}

/-- Work that makes calls as it may, done as a call. -/
theorem call (h : Tells r (IsMadeBy r.refreshed callee v) y x a) :
    TellsCall r callee v y (Traced.call callee v x) a := by
  intro s hs
  obtain ⟨s', hs', hy, within, hwithin, hx⟩ := h s hs
  have hdown : Call.GoesDown r.refreshed ⟨callee, v, within⟩ :=
    .mk (fun c hc => (hwithin c hc).1) fun c hc => (hwithin c hc).2
  refine ⟨s', hs', hy, _, ⟨⟨callee, v, within⟩, rfl, rfl, rfl, hdown⟩, fun trace => ?_⟩
  rw [Traced.go_call, hx []]
  rfl

theorem tells {good : Call → Prop} (h : TellsCall r callee v y x a)
    (hgood : ∀ c : Call, c.callee = callee → c.value = v → c.GoesDown r.refreshed → good c) :
    Tells r good y x a := by
  intro s hs
  obtain ⟨s', hs', hy, calls, ⟨c, rfl, hcallee, hvalue, hdown⟩, hx⟩ := h s hs
  refine ⟨s', hs', hy, [c], fun d hd => ?_, hx⟩
  obtain rfl := List.mem_singleton.1 hd
  exact hgood d hcallee hvalue hdown

/-- A call on the way of another one. -/
theorem made (h : TellsCall r callee' w y x a) (hmay : callee.MayCall r.refreshed v callee' w) :
    Tells r (IsMadeBy r.refreshed callee v) y x a := by
  refine h.tells fun c hcallee hvalue hdown => ⟨?_, hdown⟩
  rw [hcallee, hvalue]
  exact hmay

end TellsCall

end StreamConfig
