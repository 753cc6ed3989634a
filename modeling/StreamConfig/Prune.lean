import StreamConfig.Policy
import StreamConfig.Resolve
import StreamConfig.Schema.Builtin

/-! # Pruning

Pruning reduces a component block to what matters for the component that it denotes.

* In a component block stay the component's own key and the reserved keys that are of use; the
  values under them are pruned in their turn. A block that denotes nothing stays as it is.
* In an object with known fields go the fields that the policy does not keep and those that are of
  no use; keys that no field describes stay.

A field's value is pruned one level at a time: `pruneFieldStep` prunes a value, given how fields of
the values directly below are pruned, and `pruneFieldTo n` puts `n` such steps on top of one
another. Every step goes down to the values below, so as many steps as the value is deep reach
everything; `pruneField`, `pruneFields` and `pruneComponent` take that many.

Everything is written for an arbitrary `Resolver`.
-/

namespace StreamConfig

variable {m : Type → Type} [Monad m]

namespace Entries

/-- Replaces the value under a key, if there is one, by what `f` gives. -/
def modifyM (f : Value → m Value) (k : String) : Entries → m Entries
  | [] => pure []
  | e :: rest => do
    let v ← if e.1 == k then f e.2 else pure e.2
    return (e.1, v) :: (← modifyM f k rest)

/-- Replaces every value. -/
def mapValuesM (f : Value → m Value) : Entries → m Entries
  | [] => pure []
  | e :: rest => do
    let v ← f e.2
    return (e.1, v) :: (← mapValuesM f rest)

end Entries

namespace Value

/-- Replaces every item of a list. -/
def mapItemsM (f : Value → m Value) : List Value → m (List Value)
  | [] => pure []
  | v :: rest => do
    let w ← f v
    return w :: (← mapItemsM f rest)

/-- Replaces the values that a field of the given arity holds. A value of another shape than the
arity asks for is left alone. -/
def overParts (arity : Arity) (f : Value → m Value) (v : Value) : m Value :=
  match arity, v with
  | .scalar, v => f v
  | .array, .array items => do return .array (← mapItemsM f items)
  | .map, .object es => do return .object (← Entries.mapValuesM f es)
  | _, v => pure v

end Value

/-! ## One step -/

section Step

variable (policy : Policy) (find : Resolver m) (inner : Field → Value → m Value)

/-- Prunes the fields of an object one after the other. Each field sees the object as the fields
before it have left it. -/
def pruneEntriesStep : List Field → Entries → m Entries
  | [], es => pure es
  | f :: rest, es => do
    if policy.keeps f then
      match Entries.get? es f.name with
      | none => pruneEntriesStep rest es
      | some v =>
        if (f.omissionReason? v es).isSome then pruneEntriesStep rest (Entries.erase es f.name)
        else pruneEntriesStep rest (← Entries.modifyM (inner f) f.name es)
    else pruneEntriesStep rest (Entries.erase es f.name)

/-- Prunes the fields of a value, which is left alone unless it is an object. -/
def pruneFieldsStep (fields : List Field) (v : Value) : m Value :=
  match v with
  | .object es => do return .object (← pruneEntriesStep policy inner fields es)
  | v => pure v

/-- Prunes the values of reserved fields. -/
def pruneReservedStep : List Field → Entries → m Entries
  | [], es => pure es
  | f :: rest, es => do pruneReservedStep rest (← Entries.modifyM (inner f) f.name es)

/-- Whether an entry of a component block stays: it is the component's own, or it is reserved and of
use. -/
def survives (kind : Kind) (name : String) (es : Entries) (e : String × Value) : Bool :=
  e.1 == name ||
    match kind.reserved? e.1 with
    | none => false
    | some f => (f.omissionReason? e.2 es).isNone

/-- Conditions are older than reserved keys: of a condition with a `type` stay that key, `plugin`
and the key that `type` names. -/
def pruneCondition (v : Value) : Except ResolveError Value :=
  match v with
  | .object es =>
    match Entries.get? es "type" with
    | none => .ok v
    | some t =>
      .ok (.object (es.filter fun e => t.text? == some e.1 || e.1 == "type" || e.1 == "plugin"))
  | v => .error (.notAnObject v.shape)

/-- Prunes a component block. -/
def pruneComponentStep (kind : Kind) (v : Value) : m (Except ResolveError Value) := do
  if kind = .condition then return pruneCondition v
  match ← find kind "" v, v with
  | .error e, _ => return .error e
  | .ok c, .object es =>
    let configured ← Entries.modifyM (inner c.config) c.name es
    let kept := configured.filter (survives kind c.name configured)
    let pruned ← pruneReservedStep inner kind.reservedFields kept
    return .ok (.object (if policy.removeTypeField then Entries.erase pruned "type" else pruned))
  | .ok _, v => return .error (.notAnObject v.shape)

/-- Prunes a component block and leaves it as it is if it denotes nothing. -/
def pruneNestedStep (kind : Kind) (v : Value) : m Value := do
  match ← pruneComponentStep policy find inner kind v with
  | .ok w => return w
  | .error _ => return v

/-- Prunes what a field holds: component blocks, or values with known fields of their own. -/
def pruneFieldStep (f : Field) (v : Value) : m Value :=
  match f.type.kind? with
  | some kind => v.overParts f.arity (pruneNestedStep policy find inner kind)
  | none =>
    if f.children.isEmpty then pure v
    else v.overParts f.arity (pruneFieldsStep policy inner f.children)

end Step

/-! ## All steps -/

/-- Prunes what a field holds down to a number of levels. -/
def pruneFieldTo (policy : Policy) (find : Resolver m) : Nat → Field → Value → m Value
  | 0, _, v => pure v
  | n + 1, f, v => pruneFieldStep policy find (pruneFieldTo policy find n) f v

/-- Prunes what a field holds. -/
def pruneField (policy : Policy) (find : Resolver m) (f : Field) (v : Value) : m Value :=
  pruneFieldTo policy find (v.depth + 1) f v

/-- Prunes an object by a list of fields. -/
def pruneFields (policy : Policy) (find : Resolver m) (fields : List Field) (v : Value) : m Value :=
  pruneFieldsStep policy (pruneFieldTo policy find v.depth) fields v

/-- Prunes a component block. -/
def pruneComponent (policy : Policy) (find : Resolver m) (kind : Kind) (v : Value) :
    m (Except ResolveError Value) :=
  pruneComponentStep policy find (pruneFieldTo policy find v.depth) kind v

/-! ## On a registry -/

/-- Runs a computation on the components that the policy names. The built-in components never
change, so a run on them leaves the own registry as it is. -/
def Policy.supplied {α : Type} (p : Policy) (run : RegistryM α) : RegistryM α :=
  match p.supply with
  | .own => run
  | .builtin => return (run Builtin.registry).1

end StreamConfig
