import StreamConfig.Schema.Field

/-! # Pruning policies

A policy says which fields pruning keeps, apart from those that are of no use anyway.

* `Policy` — the choices;
* `Policy.keeps` — whether a field stays.
-/

namespace StreamConfig

/-- Which components a pruning run knows. -/
inductive Supply where
  /-- those of a registry that comes with the run -/
  | own
  /-- the built-in ones -/
  | builtin
deriving DecidableEq, Repr

/-- Which fields pruning keeps. -/
structure Policy where
  /-- drop the `type` key of every component -/
  removeTypeField : Bool
  /-- drop deprecated fields -/
  removeDeprecated : Bool
  /-- drop advanced fields, as documentation examples do -/
  forExample : Bool
  /-- a further condition for a field to stay -/
  filter : Option (Field → Bool)
  supply : Supply

namespace Policy

/-- Keeps every field. -/
def keepAll : Policy := ⟨false, false, false, none, .builtin⟩

/-- Whether a field stays. -/
def keeps (p : Policy) (f : Field) : Bool :=
  if p.removeDeprecated && f.isDeprecated then false
  else if p.forExample && f.isAdvanced then false
  else match p.filter with
    | some keep => keep f
    | none => true

end Policy

end StreamConfig
