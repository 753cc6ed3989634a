import StreamConfig.Proofs.Pruning.Idempotence

/-! # Pruning in place

Pruning has been written as a function that gives a new value or fails. A program that holds the
value in its place writes one change after the other, and if it fails on the way, what it has
written stays. It comes to the same: no pruning fails once it has begun to write.
* `InPlace` — work on a value that has no way back
* `pruneInPlace` — pruning, with the writes in their order, at every level
* `finish_pruneComponentInPlaceStep` — one block: all failures come before the first write
* `pruneInPlace_eq` — the two agree
-/

namespace StreamConfig

variable {m : Type → Type} [Monad m]

/-- Work on a value in its place. It may fail, and what it has written until then stays. -/
abbrev InPlace (m : Type → Type) : Type → Type := ExceptT ResolveError (StateT Value m)

namespace InPlace

variable {α β : Type}

/-- Does the work on a value: how it ends, and what stands in the place then. -/
def finish (work : InPlace m α) (v : Value) : m (Except ResolveError α × Value) := work.run.run v

@[simp] theorem finish_pure (a : α) (v : Value) :
    finish (pure a : InPlace m α) v = pure (.ok a, v) := rfl

@[simp] theorem finish_throw (e : ResolveError) (v : Value) :
    finish (throw e : InPlace m α) v = pure (.error e, v) := rfl

/-- What comes after a failure is not done, and what came before it is not undone. -/
@[simp] theorem finish_bind [LawfulMonad m] (x : InPlace m α) (f : α → InPlace m β) (v : Value) :
    finish (x >>= f) v = (do
      match ← finish x v with
      | (.ok a, w) => finish (f a) w
      | (.error e, w) => pure (.error e, w)) := by
  refine bind_congr fun ended => ?_
  obtain ⟨result, w⟩ := ended
  cases result <;> rfl

variable [LawfulMonad m]

@[simp] theorem finish_get (v : Value) : finish (get : InPlace m Value) v = pure (.ok v, v) := by
  show (do let ended ← (pure (v, v) : m (Value × Value)); pure (Except.ok ended.1, ended.2)) = _
  rw [pure_bind]

@[simp] theorem finish_set (v w : Value) :
    finish (set w : InPlace m Unit) v = pure (.ok (), w) := by
  show (do let ended ← (pure ((), w) : m (Unit × Value)); pure (Except.ok ended.1, ended.2)) = _
  rw [pure_bind]

@[simp] theorem finish_lift (x : m α) (v : Value) :
    finish (liftM x : InPlace m α) v = (do return (.ok (← x), v)) := by
  show (do
    let ended ← (do return (← x, v) : m (α × Value))
    pure (Except.ok ended.1, ended.2)) = _
  simp only [bind_assoc, pure_bind]

end InPlace

section Step

variable (policy : Policy) (find : Resolver m) (inner : Field → Value → m Value)

/-- Prunes a component block, one write after the other. -/
def pruneComponentInPlaceStep (kind : Kind) : InPlace m Unit := do
  if kind = .condition then
    match pruneCondition (← get) with
    | .error e => throw e
    | .ok w => set w
  else
    match ← (find kind "" (← get) : m _), ← get with
    | .error e, _ => throw e
    | .ok c, .object es =>
      let configured ← (Entries.modifyM (inner c.config) c.name es : m _)
      set (Value.object configured)
      let kept := configured.filter (survives kind c.name configured)
      set (Value.object kept)
      let pruned ← (pruneReservedStep inner kind.reservedFields kept : m _)
      set (Value.object pruned)
      if policy.removeTypeField then set (Value.object (Entries.erase pruned "type"))
    | .ok _, v => throw (.notAnObject v.shape)

/-- Prunes a component block below others: how it ends is not told, what it has written stays. -/
def pruneNestedInPlaceStep (kind : Kind) (v : Value) : m Value := do
  return (← (pruneComponentInPlaceStep policy find inner kind).finish v).2

/-- Prunes what a field holds. -/
def pruneFieldInPlaceStep (f : Field) (v : Value) : m Value :=
  match f.type.kind? with
  | some kind => v.overParts f.arity (pruneNestedInPlaceStep policy find inner kind)
  | none =>
    if f.children.isEmpty then pure v
    else v.overParts f.arity (pruneFieldsStep policy inner f.children)

end Step

/-- Prunes what a field holds down to a number of levels. -/
def pruneFieldInPlaceTo (policy : Policy) (find : Resolver m) : Nat → Field → Value → m Value
  | 0, _, v => pure v
  | n + 1, f, v => pruneFieldInPlaceStep policy find (pruneFieldInPlaceTo policy find n) f v

/-- Prunes a component block in its place: how that ends, and what stands there then. -/
def pruneInPlace (policy : Policy) (find : Resolver m) (kind : Kind) (v : Value) :
    m (Except ResolveError Unit × Value) :=
  (pruneComponentInPlaceStep policy find (pruneFieldInPlaceTo policy find v.depth) kind).finish v

section Lawful

variable [LawfulMonad m] (policy : Policy) (find : Resolver m)

theorem finish_pruneComponentInPlaceStep (inner : Field → Value → m Value) (kind : Kind)
    (v : Value) :
    (pruneComponentInPlaceStep policy find inner kind).finish v =
      (do
        let result ← pruneComponentStep policy find inner kind v
        return (result.map fun _ => (), afterPruning v result)) := by
  unfold pruneComponentInPlaceStep pruneComponentStep
  by_cases hkind : kind = .condition
  · simp only [hkind, if_true, InPlace.finish_bind, InPlace.finish_get, pure_bind]
    cases pruneCondition v <;> simp [afterPruning, Except.map]
  · simp only [hkind, if_false, InPlace.finish_bind, InPlace.finish_get, InPlace.finish_lift,
      bind_assoc, pure_bind]
    refine bind_congr fun found => ?_
    cases found with
    | error e =>
      -- nothing has been written yet
      simp [afterPruning, Except.map]
    | ok c =>
      cases v with
      | object es =>
        simp only [InPlace.finish_bind, InPlace.finish_set, InPlace.finish_lift, bind_assoc,
          pure_bind]
        refine bind_congr fun configured => bind_congr fun pruned => ?_
        cases policy.removeTypeField <;> simp [afterPruning, Except.map]
      | null | bool | number | string | array => simp [afterPruning, Except.map]

/-- A block that fails below others is left as it was, so it does no harm not to be told. -/
theorem pruneNestedInPlaceStep_eq (inner : Field → Value → m Value) (kind : Kind) :
    pruneNestedInPlaceStep policy find inner kind = pruneNestedStep policy find inner kind := by
  funext v
  unfold pruneNestedInPlaceStep pruneNestedStep
  simp only [finish_pruneComponentInPlaceStep, bind_assoc, pure_bind]
  refine bind_congr fun result => ?_
  cases result <;> rfl

theorem pruneFieldInPlaceStep_eq (inner : Field → Value → m Value) (f : Field) (v : Value) :
    pruneFieldInPlaceStep policy find inner f v = pruneFieldStep policy find inner f v := by
  unfold pruneFieldInPlaceStep pruneFieldStep
  cases f.type.kind? with
  | some kind => dsimp only; rw [pruneNestedInPlaceStep_eq]
  | none => rfl

theorem pruneFieldInPlaceTo_eq (n : Nat) :
    pruneFieldInPlaceTo policy find n = pruneFieldTo policy find n := by
  induction n with
  | zero => rfl
  | succ n ih =>
    funext f v
    unfold pruneFieldInPlaceTo pruneFieldTo
    rw [ih, pruneFieldInPlaceStep_eq]

/-- Pruning in place ends as pruning does. If it fails, the value is still there as it was. -/
theorem pruneInPlace_eq (kind : Kind) (v : Value) :
    pruneInPlace policy find kind v =
      (do
        let result ← pruneComponent policy find kind v
        return (result.map fun _ => (), afterPruning v result)) := by
  unfold pruneInPlace pruneComponent
  rw [pruneFieldInPlaceTo_eq]
  exact finish_pruneComponentInPlaceStep policy find _ kind v

end Lawful

end StreamConfig
