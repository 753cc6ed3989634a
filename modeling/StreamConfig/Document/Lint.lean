import StreamConfig.Document.Remark
import StreamConfig.Resolve

/-! # Linting a document

A document is an object of sections: single components, lists of shared components, and the
pipeline. The walk compares a document with what is known of its components and leaves remarks on
all that does not conform; `lintDocument` turns them into findings by position.

As in pruning, fields are walked one level at a time (`lintFieldStep`, `lintFieldTo`), and as many
levels as the value is deep reach everything.
-/

namespace StreamConfig

variable {m : Type → Type} [Monad m]

/-! ## Sections -/

/-- What a section of a document holds. -/
inductive Section where
  | component (kind : Kind)
  | components (kind : Kind)
  | pipeline
deriving DecidableEq, Repr

/-- The sections by name. -/
def Section.table : List (String × Section) :=
  [("input", .component .input), ("buffer", .component .buffer), ("output", .component .output),
   ("metrics", .component .metrics), ("tracer", .component .tracer),
   ("input_resources", .components .input), ("processor_resources", .components .processor),
   ("output_resources", .components .output), ("cache_resources", .components .cache),
   ("rate_limit_resources", .components .rateLimit), ("pipeline", .pipeline)]

def Section.ofName? (name : String) : Option Section :=
  (Section.table.find? fun e => e.1 == name).map (·.2)

/-! ## Walking lists -/

/-- Remarks on every entry of an object. -/
def remarkEntries (p : Pointer) (f : String → Pointer → Value → m (List Remark)) :
    Entries → m (List Remark)
  | [] => pure []
  | (k, v) :: rest => do
    let here ← f k (p.child k) v
    return here ++ (← remarkEntries p f rest)

/-- Remarks on every item of a list, the first of which has the given index. -/
def remarkItems (p : Pointer) (f : Pointer → Value → m (List Remark)) :
    (index : Nat) → List Value → m (List Remark)
  | _, [] => pure []
  | index, v :: rest => do
    let here ← f (p.item index) v
    return here ++ (← remarkItems p f (index + 1) rest)

/-- Remarks on the values that a field of the given arity holds; a value of another shape than the
arity asks for is an error. -/
def remarkParts (name : String) (arity : Arity) (f : Pointer → Value → m (List Remark))
    (p : Pointer) (v : Value) : m (List Remark) :=
  match arity, v with
  | .scalar, v => f p v
  | .array, .array items => remarkItems p f 0 items
  | .map, .object es => remarkEntries p (fun _ => f) es
  | _, _ => pure [.error p ("unexpected value for field " ++ name)]

/-! ## One step -/

section Step

variable (find : Resolver m) (inner : Field → Pointer → Value → m (List Remark))

/-- Remarks on one entry of a block that denotes the component `c`. -/
def lintComponentEntryStep (c : Component) (kind : Kind) (es : Entries) (k : String) (p : Pointer)
    (v : Value) : m (List Remark) :=
  if k == c.name then inner c.config p v
  else match kind.reserved? k with
    | some f => do
      let omission := match f.omissionReason? v es with
        | some reason => [Remark.warning p reason]
        | none => []
      return omission ++ (← inner f p v)
    | none =>
      pure [.warning p ("field " ++ k ++ " is invalid when the component type is " ++ c.name ++
        " (" ++ kind.name ++ ")")]

/-- Remarks on a component block. -/
def lintComponentStep (kind : Kind) (p : Pointer) (v : Value) : m (List Remark) := do
  match ← find kind kind.defaultName v, v with
  | .error e, _ => return [.error p e.message]
  | .ok c, .object es => remarkEntries p (lintComponentEntryStep inner c kind es) es
  | .ok _, _ => return []

/-- Remarks on an object with known fields. -/
def lintChildrenStep (f : Field) (p : Pointer) (v : Value) : m (List Remark) :=
  match v with
  | .object es =>
    remarkEntries p (fun k q w =>
      match f.child? k with
      | some child => inner child q w
      | none => pure [.warning q ("field " ++ k ++ " not recognised")]) es
  | _ => pure [.error p "expected object value"]

/-- Remarks on what a field holds: first those of its linter, then those on the parts. -/
def lintFieldStep (f : Field) (p : Pointer) (v : Value) : m (List Remark) := do
  let own := match f.linter with
    | some linter => [Remark.check p linter v]
    | none => []
  let parts ← match f.type.kind? with
    | some kind => remarkParts f.name f.arity (lintComponentStep find inner kind) p v
    | none =>
      if f.children.isEmpty then pure []
      else remarkParts f.name f.arity (lintChildrenStep inner f) p v
  return own ++ parts

/-- Remarks on a list of component blocks. -/
def lintComponentsStep (kind : Kind) (p : Pointer) (v : Value) : m (List Remark) :=
  match v with
  | .array items => remarkItems p (lintComponentStep find inner kind) 0 items
  | _ => pure [.error p ("expected a list of " ++ kind.name ++ " configs")]

/-- Remarks on the pipeline section. -/
def lintPipelineStep (p : Pointer) (v : Value) : m (List Remark) :=
  match v with
  | .object es =>
    remarkEntries p (fun k q w =>
      if k == "processors" then lintComponentsStep find inner .processor q w
      else if k == "threads" then
        pure (if w.isSigned then [] else [.error q "expected threads to be an integer"])
      else pure [.warning q ("field " ++ k ++ " is not recognised")]) es
  | _ => pure [.error p "expected pipeline to be an object"]

/-- Remarks on a whole document. -/
def lintRootStep (v : Value) : m (List Remark) :=
  match v with
  | .object es =>
    remarkEntries "" (fun k p w =>
      match Section.ofName? k with
      | some (.component kind) => lintComponentStep find inner kind p w
      | some (.components kind) => lintComponentsStep find inner kind p w
      | some .pipeline => lintPipelineStep find inner p w
      | none => pure [.warning p ("field " ++ k ++ " is not recognised")]) es
  | _ => pure [.error "" "expected the document root to be an object"]

end Step

/-! ## All steps -/

/-- Remarks on what a field holds down to a number of levels. -/
def lintFieldTo (find : Resolver m) : Nat → Field → Pointer → Value → m (List Remark)
  | 0, _, _, _ => pure []
  | n + 1, f, p, v => lintFieldStep find (lintFieldTo find n) f p v

/-- Remarks on a component block. -/
def lintComponent (find : Resolver m) (kind : Kind) (p : Pointer) (v : Value) : m (List Remark) :=
  lintComponentStep find (lintFieldTo find v.depth) kind p v

/-- Remarks on a whole document. -/
def remarksOn (find : Resolver m) (v : Value) : m (List Remark) :=
  lintRootStep find (lintFieldTo find v.depth) v

/-- The findings for a document with the given source text, by position. -/
def lintDocument (source : String) (v : Value) : RegistryM (List Finding) := do
  let remarks ← remarksOn resolve v
  return Finding.inOrder (Remark.settle (Positions.scan source v) [] remarks)

end StreamConfig
