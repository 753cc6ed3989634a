import StreamConfig.Proofs.Nesting.Linting
import StreamConfig.Proofs.Nesting.Pruning

/-! # Walks end

Fields may hold component blocks, and a block may be configured by a field that holds blocks of the
same kind, so what is known of components does not say where a walk ends. The value does: a call for
a block leaves the value only for what stands inside.
* `Replays` — a walk with a trace does what the walk does
* `walks_end` — with room for calls in proportion to the depth of the value no walk is cut off, and
  no more blocks are treated within one another than the value is deep, and one
-/

namespace StreamConfig

/-- On the registry `r` the two computations do the same, the second one with these calls. -/
def Replays {α : Type} (r : Registry) (plain : RegistryM α) (x : Traced α) (calls : List Call) :
    Prop :=
  x.go [] r = (some ((plain.run r).1, calls), (plain.run r).2)

section Replays

variable {α : Type} {r : Registry} {plain : RegistryM α} {x : Traced α} {a : α}

theorem Replays.upTo {calls : List Call} {x' : Traced α} (h : Replays r plain x calls)
    (hx : Traced.upTo.Holds x x') : Replays r plain x' calls := hx [] r _ _ h

theorem Follows.exists_replays {good : List Call → Prop} (h : Follows r good plain x a) :
    ∃ calls, good calls ∧ Replays r plain x calls := by
  obtain ⟨s, -, hplain, calls, hcalls, hx⟩ := h r (.inl rfl)
  refine ⟨calls, hcalls, ?_⟩
  rw [Replays, hx, hplain]
  rfl

theorem TellsCall.exists_replays {callee : Callee} {v : Value}
    (h : TellsCall r callee v plain x a) :
    ∃ c : Call, (c.callee = callee ∧ c.value = v ∧ c.GoesDown r.refreshed ∧ c.IsBounded) ∧
      Replays r plain x [c] := by
  obtain ⟨calls, ⟨c, rfl, hcallee, hvalue, hdown⟩, hreplays⟩ := Follows.exists_replays h
  exact ⟨c, ⟨hcallee, hvalue, hdown, hdown.isBounded⟩, hreplays⟩

end Replays

/-- Whichever components a registry knows, and whichever value is treated: with room for calls,
twice as many within one another as the value is deep and one, pruning a component block, linting
one and linting a document are not cut off. They end as they do without a trace, and more room
changes nothing. Of the calls that are made one within the other, no more are for blocks than the
value is deep, and one; each block stands inside the one before; and fields that are treated with no
block between them are on a way down one tree of fields. -/
theorem walks_end (r : Registry) (policy : Policy) (kind : Kind) (p : Pointer) (source : String)
    (v : Value) :
    (∃ c : Call, (c.callee = .block kind ∧ c.value = v ∧ c.GoesDown r.refreshed ∧ c.IsBounded) ∧
      ∀ room, 2 * v.depth < room →
        Replays r (pruneComponent policy resolve kind v)
          (pruneBlockWithin policy room kind v) [c]) ∧
    (∃ c : Call, (c.callee = .block kind ∧ c.value = v ∧ c.GoesDown r.refreshed ∧ c.IsBounded) ∧
      ∀ room, 2 * v.depth < room →
        Replays r (lintComponent resolve kind p v) (lintBlockWithin room kind p v) [c]) ∧
    ∃ calls : List Call,
      (∀ c ∈ calls, c.isBlock = true ∧ v.Encloses c.value ∧ c.GoesDown r.refreshed ∧ c.IsBounded) ∧
      ∀ room, 2 * v.depth < room →
        Replays r (lintDocument source v) (lintDocumentWithin room source v) calls := by
  have hleast := Nat.lt_succ_self (2 * v.depth)
  refine ⟨?_, ?_, ?_⟩
  · obtain ⟨-, hblock⟩ := tellsCall_pruneWithin policy r (2 * v.depth + 1)
    obtain ⟨c, hc, hreplays⟩ := (hblock v.depth kind v (Nat.le_refl _) hleast).exists_replays
    exact ⟨c, hc, fun room hroom => hreplays.upTo ((upTo_pruneWithin policy hroom).2 kind v)⟩
  · obtain ⟨-, hblock⟩ := tellsCall_lintWithin r (2 * v.depth + 1)
    obtain ⟨c, hc, hreplays⟩ := (hblock v.depth kind p v (Nat.le_refl _) hleast).exists_replays
    exact ⟨c, hc, fun room hroom => hreplays.upTo ((upTo_lintWithin hroom).2 kind p v)⟩
  · obtain ⟨calls, hcalls, hreplays⟩ :=
      Follows.exists_replays (tells_lintDocumentWithin r source v hleast)
    refine ⟨calls, fun c hc => ?_, fun room hroom =>
      hreplays.upTo (upTo_lintDocumentWithin hroom source v)⟩
    obtain ⟨hblock, hinside, hdown⟩ := hcalls c hc
    exact ⟨hblock, hinside, hdown, hdown.isBounded⟩

/-- A component that is configured by a block of its own kind, in a value of depth two: there are as
many blocks within one another as there may be, and four calls are too few. -/
theorem walks_end_again :
    let again := Component.ofConfig "again" .processor "" (Field.component "" "" .processor)
    let r := Registry.ofList [again]
    let inside : Value := .object [("again", .null)]
    let v : Value := .object [("again", inside)]
    let last : Call := ⟨.block .processor, .null, []⟩
    let toLast : Call := ⟨.field again.config, .null, [last]⟩
    let middle : Call := ⟨.block .processor, inside, [toLast]⟩
    let toMiddle : Call := ⟨.field again.config, inside, [middle]⟩
    let first : Call := ⟨.block .processor, v, [toMiddle]⟩
    let chain := [first, toMiddle, middle, toLast, last]
    Replays r (pruneComponent .keepAll resolve .processor v)
        (pruneBlockWithin .keepAll 5 .processor v) [first] ∧
      first.IsBounded ∧ IsNested chain ∧ (chain.filter Call.isBlock).length = 1 + v.depth ∧
      ((pruneBlockWithin .keepAll 4 .processor v).go [] r).1 = none := by
  intro again r inside v last toLast middle toMiddle first chain
  obtain ⟨⟨c, ⟨-, -, -, hbounded⟩, hreplays⟩, -⟩ := walks_end r .keepAll .processor "" "" v
  have hrun : Replays r (pruneComponent .keepAll resolve .processor v)
      (pruneBlockWithin .keepAll 5 .processor v) [first] := rfl
  have hsame : c = first := by
    have hboth := (hreplays 5 (by decide)).symm.trans hrun
    rw [Prod.mk.injEq, Option.some.injEq, Prod.mk.injEq] at hboth
    exact List.singleton_inj.1 hboth.1.2
  refine ⟨hrun, hsame ▸ hbounded, ?_, rfl, rfl⟩
  have hin : ∀ c : Call, c ∈ [c] := fun c => List.mem_singleton_self c
  exact .cons_cons (hin _) (.cons_cons (hin _) (.cons_cons (hin _) (.cons_cons (hin _)
    (.singleton _))))

end StreamConfig
