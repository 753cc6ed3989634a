import StreamConfig.Proofs.Blocks

/-! # Walks in two monads

Pruning and linting are written for any monad and any way to resolve component blocks. So what holds
between two ways of resolving, and goes on holding when computations are put in a row, holds between
the walks:
* `Correspondence` — a relation between computations of two monads that can be carried from the
  parts of a program to the whole
* `Correspondence.pruneHeld`, `Correspondence.lintHeld`, `Correspondence.lintSections` — the walks
  around blocks correspond if the treatments of blocks do
* `Correspondence.pruneComponent`, `Correspondence.remarksOn` and their likes — the walks correspond
  if the resolvers do

Every lemma follows the text of its definition, with one `bind` for each bind.
-/

namespace StreamConfig

/-- A relation between computations of two monads that can be carried from parts to wholes. -/
structure Correspondence (m n : Type → Type) [Monad m] [Monad n] where
  Holds : {α : Type} → m α → n α → Prop
  pure {α : Type} (a : α) : Holds (Pure.pure a) (Pure.pure a)
  bind {α β : Type} {x : m α} {y : n α} {f : α → m β} {g : α → n β} (hx : Holds x y)
    (hf : ∀ a, Holds (f a) (g a)) : Holds (x >>= f) (y >>= g)

namespace Correspondence

variable {m n : Type → Type} [Monad m] [Monad n] (C : Correspondence m n)

section Parts

variable {f : Value → m Value} {g : Value → n Value} (h : ∀ v, C.Holds (f v) (g v))

include h

theorem modifyM (k : String) : ∀ es, C.Holds (Entries.modifyM f k es) (Entries.modifyM g k es)
  | [] => C.pure []
  | e :: rest => by
    unfold Entries.modifyM
    split
    · exact C.bind (h e.2) fun _ => C.bind (modifyM k rest) fun _ => C.pure _
    · exact C.bind (C.pure e.2) fun _ => C.bind (modifyM k rest) fun _ => C.pure _

theorem mapValuesM : ∀ es, C.Holds (Entries.mapValuesM f es) (Entries.mapValuesM g es)
  | [] => C.pure []
  | e :: rest => C.bind (h e.2) fun _ => C.bind (mapValuesM rest) fun _ => C.pure _

theorem mapItemsM : ∀ items, C.Holds (Value.mapItemsM f items) (Value.mapItemsM g items)
  | [] => C.pure []
  | v :: rest => C.bind (h v) fun _ => C.bind (mapItemsM rest) fun _ => C.pure _

theorem overParts (arity : Arity) (v : Value) :
    C.Holds (v.overParts arity f) (v.overParts arity g) := by
  cases arity with
  | scalar => exact h v
  | array =>
    cases v with
    | array items => exact C.bind (C.mapItemsM h items) fun _ => C.pure _
    | null | bool | number | string | object => exact C.pure _
  | map =>
    cases v with
    | object es => exact C.bind (C.mapValuesM h es) fun _ => C.pure _
    | null | bool | number | string | array => exact C.pure _

end Parts

variable {find : Resolver m} {find' : Resolver n}
  (hfind : ∀ kind default v, C.Holds (find kind default v) (find' kind default v))

section Pruning

variable {policy : Policy} {inner : Field → Value → m Value} {inner' : Field → Value → n Value}
  (h : ∀ f v, C.Holds (inner f v) (inner' f v))

include h

theorem pruneEntriesStep :
    ∀ fields es, C.Holds (pruneEntriesStep policy inner fields es)
      (StreamConfig.pruneEntriesStep policy inner' fields es)
  | [], es => C.pure es
  | f :: rest, es => by
    unfold StreamConfig.pruneEntriesStep
    split
    · split
      · exact pruneEntriesStep rest es
      · split
        · exact pruneEntriesStep rest _
        · exact C.bind (C.modifyM (h f) f.name es) fun es => pruneEntriesStep rest es
    · exact pruneEntriesStep rest _

theorem pruneFieldsStep (fields : List Field) (v : Value) :
    C.Holds (pruneFieldsStep policy inner fields v)
      (StreamConfig.pruneFieldsStep policy inner' fields v) := by
  cases v with
  | object es => exact C.bind (C.pruneEntriesStep h fields es) fun _ => C.pure _
  | null | bool | number | string | array => exact C.pure _

theorem pruneHeld {block : Kind → Value → m Value} {block' : Kind → Value → n Value}
    (hblock : ∀ kind v, C.Holds (block kind v) (block' kind v)) (f : Field) (v : Value) :
    C.Holds (pruneHeld policy inner block f v)
      (StreamConfig.pruneHeld policy inner' block' f v) := by
  unfold StreamConfig.pruneHeld
  split
  · exact C.overParts (hblock _) f.arity v
  · split
    · exact C.pure v
    · exact C.overParts (C.pruneFieldsStep h f.children) f.arity v

theorem pruneReservedStep :
    ∀ fields es, C.Holds (pruneReservedStep inner fields es)
      (StreamConfig.pruneReservedStep inner' fields es)
  | [], es => C.pure es
  | f :: rest, es => C.bind (C.modifyM (h f) f.name es) fun es => pruneReservedStep rest es

include hfind

theorem pruneComponentStep (kind : Kind) (v : Value) :
    C.Holds (pruneComponentStep policy find inner kind v)
      (StreamConfig.pruneComponentStep policy find' inner' kind v) := by
  unfold StreamConfig.pruneComponentStep
  split
  · exact C.pure _
  · refine C.bind (hfind kind "" v) fun found => ?_
    split
    · exact C.pure _
    · exact C.bind (C.modifyM (h _) _ _) fun _ =>
        C.bind (C.pruneReservedStep h _ _) fun _ => C.pure _
    · exact C.pure _

theorem pruneNestedStep (kind : Kind) (v : Value) :
    C.Holds (pruneNestedStep policy find inner kind v)
      (StreamConfig.pruneNestedStep policy find' inner' kind v) := by
  refine C.bind (C.pruneComponentStep hfind h kind v) fun result => ?_
  cases result <;> exact C.pure _

theorem pruneFieldStep (f : Field) (v : Value) :
    C.Holds (pruneFieldStep policy find inner f v)
      (StreamConfig.pruneFieldStep policy find' inner' f v) := by
  rw [pruneFieldStep_eq_pruneHeld, pruneFieldStep_eq_pruneHeld]
  exact C.pruneHeld h (C.pruneNestedStep hfind h) f v

end Pruning

section Linting

variable {inner : Field → Pointer → Value → m (List Remark)}
  {inner' : Field → Pointer → Value → n (List Remark)}
  (h : ∀ f p v, C.Holds (inner f p v) (inner' f p v))

theorem remarkEntries {f : String → Pointer → Value → m (List Remark)}
    {g : String → Pointer → Value → n (List Remark)} (h : ∀ k p v, C.Holds (f k p v) (g k p v))
    (p : Pointer) :
    ∀ es, C.Holds (remarkEntries p f es) (StreamConfig.remarkEntries p g es)
  | [] => C.pure []
  | (k, v) :: rest => C.bind (h k _ v) fun _ => C.bind (remarkEntries h p rest) fun _ => C.pure _

theorem remarkItems {f : Pointer → Value → m (List Remark)} {g : Pointer → Value → n (List Remark)}
    (h : ∀ p v, C.Holds (f p v) (g p v)) (p : Pointer) :
    ∀ index items, C.Holds (remarkItems p f index items)
      (StreamConfig.remarkItems p g index items)
  | _, [] => C.pure []
  | index, v :: rest =>
    C.bind (h _ v) fun _ => C.bind (remarkItems h p (index + 1) rest) fun _ => C.pure _

theorem remarkParts {f : Pointer → Value → m (List Remark)} {g : Pointer → Value → n (List Remark)}
    (h : ∀ p v, C.Holds (f p v) (g p v)) (name : String) (arity : Arity) (p : Pointer)
    (v : Value) :
    C.Holds (remarkParts name arity f p v) (StreamConfig.remarkParts name arity g p v) := by
  unfold StreamConfig.remarkParts
  split
  · exact h p _
  · exact C.remarkItems h p 0 _
  · exact C.remarkEntries (fun _ => h) p _
  · exact C.pure _

include h

theorem lintComponentEntryStep (c : Component) (kind : Kind) (es : Entries) (k : String)
    (p : Pointer) (v : Value) :
    C.Holds (lintComponentEntryStep inner c kind es k p v)
      (StreamConfig.lintComponentEntryStep inner' c kind es k p v) := by
  unfold StreamConfig.lintComponentEntryStep
  split
  · exact h c.config p v
  · split
    · exact C.bind (h _ p v) fun _ => C.pure _
    · exact C.pure _

theorem lintChildrenStep (f : Field) (p : Pointer) (v : Value) :
    C.Holds (lintChildrenStep inner f p v) (StreamConfig.lintChildrenStep inner' f p v) := by
  cases v with
  | object es =>
    refine C.remarkEntries (fun k p v => ?_) p es
    split
    · exact h _ p v
    · exact C.pure _
  | null | bool | number | string | array => exact C.pure _

section Blocks

variable {block : Kind → Pointer → Value → m (List Remark)}
  {block' : Kind → Pointer → Value → n (List Remark)}
  (hblock : ∀ kind p v, C.Holds (block kind p v) (block' kind p v))

include hblock

theorem lintHeld (f : Field) (p : Pointer) (v : Value) :
    C.Holds (lintHeld inner block f p v) (StreamConfig.lintHeld inner' block' f p v) := by
  unfold StreamConfig.lintHeld
  -- first on the linter, which is not run here, and then on what the field holds
  split
  all_goals
    split
    · exact C.bind (C.remarkParts (hblock _) f.name f.arity p v) fun _ => C.pure _
    · split
      · exact C.bind (C.pure []) fun _ => C.pure _
      · exact C.bind (C.remarkParts (C.lintChildrenStep h f) f.name f.arity p v) fun _ => C.pure _

omit h

theorem lintListed (kind : Kind) (p : Pointer) (v : Value) :
    C.Holds (lintListed block kind p v) (StreamConfig.lintListed block' kind p v) := by
  cases v with
  | array items => exact C.remarkItems (hblock kind) p 0 items
  | null | bool | number | string | object => exact C.pure _

theorem lintPipeline (p : Pointer) (v : Value) :
    C.Holds (lintPipeline block p v) (StreamConfig.lintPipeline block' p v) := by
  cases v with
  | object es =>
    refine C.remarkEntries (fun k p v => ?_) p es
    split
    · exact C.lintListed hblock .processor p v
    · split <;> exact C.pure _
  | null | bool | number | string | array => exact C.pure _

theorem lintSections (v : Value) :
    C.Holds (lintSections block v) (StreamConfig.lintSections block' v) := by
  cases v with
  | object es =>
    refine C.remarkEntries (fun k p v => ?_) "" es
    split
    · exact hblock _ p v
    · exact C.lintListed hblock _ p v
    · exact C.lintPipeline hblock p v
    · exact C.pure _
  | null | bool | number | string | array => exact C.pure _

end Blocks

include hfind

theorem lintComponentStep (kind : Kind) (p : Pointer) (v : Value) :
    C.Holds (lintComponentStep find inner kind p v)
      (StreamConfig.lintComponentStep find' inner' kind p v) := by
  refine C.bind (hfind kind kind.defaultName v) fun found => ?_
  split
  · exact C.pure _
  · exact C.remarkEntries (fun k p v => C.lintComponentEntryStep h _ kind _ k p v) p _
  · exact C.pure _

theorem lintFieldStep (f : Field) (p : Pointer) (v : Value) :
    C.Holds (lintFieldStep find inner f p v) (StreamConfig.lintFieldStep find' inner' f p v) := by
  rw [lintFieldStep_eq_lintHeld, lintFieldStep_eq_lintHeld]
  exact C.lintHeld h (C.lintComponentStep hfind h) f p v

theorem lintRootStep (v : Value) :
    C.Holds (lintRootStep find inner v) (StreamConfig.lintRootStep find' inner' v) := by
  rw [lintRootStep_eq_lintSections, lintRootStep_eq_lintSections]
  exact C.lintSections (C.lintComponentStep hfind h) v

end Linting

/-! ## Walks -/

include hfind

theorem pruneFieldTo (policy : Policy) :
    ∀ levels f v, C.Holds (pruneFieldTo policy find levels f v)
      (StreamConfig.pruneFieldTo policy find' levels f v)
  | 0, _, v => C.pure v
  | levels + 1, f, v => C.pruneFieldStep hfind (pruneFieldTo policy levels) f v

theorem pruneComponent (policy : Policy) (kind : Kind) (v : Value) :
    C.Holds (pruneComponent policy find kind v)
      (StreamConfig.pruneComponent policy find' kind v) :=
  C.pruneComponentStep hfind (C.pruneFieldTo hfind policy v.depth) kind v

theorem pruneField (policy : Policy) (f : Field) (v : Value) :
    C.Holds (pruneField policy find f v) (StreamConfig.pruneField policy find' f v) :=
  C.pruneFieldTo hfind policy (v.depth + 1) f v

theorem pruneFields (policy : Policy) (fields : List Field) (v : Value) :
    C.Holds (pruneFields policy find fields v) (StreamConfig.pruneFields policy find' fields v) :=
  C.pruneFieldsStep (C.pruneFieldTo hfind policy v.depth) fields v

theorem lintFieldTo :
    ∀ levels f p v, C.Holds (lintFieldTo find levels f p v)
      (StreamConfig.lintFieldTo find' levels f p v)
  | 0, _, _, _ => C.pure []
  | levels + 1, f, p, v => C.lintFieldStep hfind (lintFieldTo levels) f p v

theorem remarksOn (v : Value) :
    C.Holds (remarksOn find v) (StreamConfig.remarksOn find' v) :=
  C.lintRootStep hfind (C.lintFieldTo hfind v.depth) v

end Correspondence

end StreamConfig
