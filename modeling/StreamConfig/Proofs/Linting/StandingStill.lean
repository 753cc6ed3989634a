import StreamConfig.Document.Lint

/-! # Linting on a registry that stands still

On such a registry the walk of a document is a plain function: remarks are lists, and a walk over
several values is the lists one after the other.

* `lintFieldStep_id` — a field's own remark, then those on what the field holds;
* `lintComponentStep_error`, `lintComponentStep_ok` — a block that denotes nothing leaves one
  remark; one that denotes a component is walked entry by entry;
* `lintComponentEntryStep_id` — the remarks on one entry of a block.
-/

namespace StreamConfig

/-- The remark that a field leaves on its own account, for its linter. -/
def Field.ownRemarks (f : Field) (p : Pointer) (v : Value) : List Remark :=
  match f.linter with
  | some linter => [.check p linter v]
  | none => []

/-- The remark on a reserved key that is of no use. -/
def Field.omissionRemarks (f : Field) (p : Pointer) (v : Value) (parent : Entries) : List Remark :=
  match f.omissionReason? v parent with
  | some reason => [.warning p reason]
  | none => []

section Step

variable {r : Registry} (inner : Field → Pointer → Value → List Remark) {kind : Kind} {p : Pointer}

theorem remarkEntries_id_cons (f : String → Pointer → Value → List Remark) (k : String) (v : Value)
    (rest : Entries) :
    remarkEntries (m := Id) p f ((k, v) :: rest) =
      f k (p.child k) v ++ Id.run (remarkEntries p f rest) := rfl

theorem remarkItems_id_cons (f : Pointer → Value → List Remark) (index : Nat) (v : Value)
    (rest : List Value) :
    remarkItems (m := Id) p f index (v :: rest) =
      f (p.item index) v ++ Id.run (remarkItems p f (index + 1) rest) := rfl

/-- A block that denotes nothing. -/
theorem lintComponentStep_error {v : Value} {e : ResolveError}
    (h : r.resolve kind kind.defaultName v = .error e) :
    lintComponentStep (m := Id) r.resolver inner kind p v = [.error p e.message] := by
  have hfind : (r.resolver kind kind.defaultName v : Id _) = .error e := h
  rw [lintComponentStep, hfind]
  rfl

/-- A block that denotes a component. -/
theorem lintComponentStep_ok {es : Entries} {c : Component}
    (h : r.resolve kind kind.defaultName (.object es) = .ok c) :
    lintComponentStep (m := Id) r.resolver inner kind p (.object es) =
      remarkEntries (m := Id) p (lintComponentEntryStep inner c kind es) es := by
  have hfind : (r.resolver kind kind.defaultName (.object es) : Id _) = .ok c := h
  rw [lintComponentStep, hfind]
  rfl

/-- One entry of a block: the component's own, a reserved one, or one that has no place there. -/
theorem lintComponentEntryStep_id (c : Component) (es : Entries) (k : String) (v : Value) :
    lintComponentEntryStep (m := Id) inner c kind es k p v =
      if k = c.name then inner c.config p v
      else match kind.reserved? k with
        | some f => f.omissionRemarks p v es ++ inner f p v
        | none => [.warning p ("field " ++ k ++ " is invalid when the component type is " ++
            c.name ++ " (" ++ kind.name ++ ")")] := by
  unfold lintComponentEntryStep
  by_cases hk : k = c.name
  · rw [if_pos hk, if_pos (beq_iff_eq.2 hk)]
  · rw [if_neg hk, if_neg (by simpa using hk)]
    cases kind.reserved? k <;> rfl

/-- What a field holds. -/
theorem lintFieldStep_id (f : Field) (v : Value) :
    lintFieldStep (m := Id) r.resolver inner f p v = f.ownRemarks p v ++
      match f.type.kind? with
      | some kind =>
        Id.run (remarkParts f.name f.arity (lintComponentStep r.resolver inner kind) p v)
      | none =>
        if f.children.isEmpty then []
        else Id.run (remarkParts f.name f.arity (lintChildrenStep inner f) p v) := by
  unfold lintFieldStep Field.ownRemarks
  cases f.linter with
  | some linter => cases f.type.kind? <;> cases f.children.isEmpty <;> rfl
  | none => cases f.type.kind? <;> cases f.children.isEmpty <;> rfl

end Step

end StreamConfig
