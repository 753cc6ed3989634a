import StreamConfig.Document.Lint
import StreamConfig.Prune

/-! # Walks around component blocks

What pruning and linting do around component blocks does not depend on what they do with a block.
Here the two walks are written for any treatment of blocks:
* `pruneHeld`, `lintHeld` — what a field holds
* `lintListed`, `lintPipeline`, `lintSections` — the sections of a document
* `pruneFieldStep_eq_pruneHeld`, `lintFieldStep_eq_lintHeld`, `lintRootStep_eq_lintSections` — with
  the treatment that the walks give to blocks, these are the walks
-/

namespace StreamConfig

variable {m : Type → Type} [Monad m]

section Pruning

variable (policy : Policy) (find : Resolver m) (inner : Field → Value → m Value)

/-- Prunes what a field holds, given how blocks and the values of the fields below are pruned. -/
def pruneHeld (block : Kind → Value → m Value) (f : Field) (v : Value) : m Value :=
  match f.type.kind? with
  | some kind => v.overParts f.arity (block kind)
  | none =>
    if f.children.isEmpty then pure v
    else v.overParts f.arity (pruneFieldsStep policy inner f.children)

theorem pruneFieldStep_eq_pruneHeld :
    pruneFieldStep policy find inner =
      pruneHeld policy inner (pruneNestedStep policy find inner) := rfl

end Pruning

section Linting

variable (find : Resolver m) (inner : Field → Pointer → Value → m (List Remark))
  (block : Kind → Pointer → Value → m (List Remark))

/-- Remarks on what a field holds, given those on blocks and on the values of the fields below. -/
def lintHeld (f : Field) (p : Pointer) (v : Value) : m (List Remark) := do
  let own := match f.linter with
    | some linter => [Remark.check p linter v]
    | none => []
  let parts ← match f.type.kind? with
    | some kind => remarkParts f.name f.arity (block kind) p v
    | none =>
      if f.children.isEmpty then pure []
      else remarkParts f.name f.arity (lintChildrenStep inner f) p v
  return own ++ parts

theorem lintFieldStep_eq_lintHeld :
    lintFieldStep find inner = lintHeld inner (lintComponentStep find inner) := rfl

/-- Remarks on a list of component blocks, given those on blocks. -/
def lintListed (kind : Kind) (p : Pointer) (v : Value) : m (List Remark) :=
  match v with
  | .array items => remarkItems p (block kind) 0 items
  | _ => pure [.error p ("expected a list of " ++ kind.name ++ " configs")]

/-- Remarks on the pipeline section, given those on blocks. -/
def lintPipeline (p : Pointer) (v : Value) : m (List Remark) :=
  match v with
  | .object es =>
    remarkEntries p (fun k q w =>
      if k == "processors" then lintListed block .processor q w
      else if k == "threads" then
        pure (if w.isSigned then [] else [.error q "expected threads to be an integer"])
      else pure [.warning q ("field " ++ k ++ " is not recognised")]) es
  | _ => pure [.error p "expected pipeline to be an object"]

/-- Remarks on a whole document, given those on blocks. -/
def lintSections (v : Value) : m (List Remark) :=
  match v with
  | .object es =>
    remarkEntries "" (fun k p w =>
      match Section.ofName? k with
      | some (.component kind) => block kind p w
      | some (.components kind) => lintListed block kind p w
      | some .pipeline => lintPipeline block p w
      | none => pure [.warning p ("field " ++ k ++ " is not recognised")]) es
  | _ => pure [.error "" "expected the document root to be an object"]

theorem lintRootStep_eq_lintSections :
    lintRootStep find inner = lintSections (lintComponentStep find inner) := rfl

end Linting

end StreamConfig
