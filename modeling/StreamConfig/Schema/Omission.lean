import StreamConfig.Value.Entries

/-! # Omission rules

A field may say when it is of no use: given its value and the object it stands in, an omission rule
yields the reason why the field can be left out, or none.
-/

namespace StreamConfig

/-- When a field can be left out. -/
inductive Omission where
  /-- the value is the empty string or the empty array; the reason is the rule's own -/
  | whenEmpty (reason : String)
  /-- the value is the exact integer zero -/
  | whenZero
  | always
  /-- the object holds `true` under the key -/
  | whenTrue (key : String)
  /-- the object has the key -/
  | whenPresent (key : String)
  /-- the object refers to a shared resource, so that a name of its own has no effect -/
  | whenResource
  /-- the value is an empty list of processors -/
  | whenNoProcessors
  /-- any other rule -/
  | custom (rule : Value → Entries → Option String)

namespace Omission

/-- The object refers to a shared resource: by its type, or by naming one. -/
def pointsToResource (parent : Entries) : Bool :=
  parent.text? "type" == some "resource" ||
    match parent.text? "resource" with
    | some name => name != ""
    | none => false

/-- Why a field with this value in this object can be left out. -/
def reason? (rule : Omission) (v : Value) (parent : Entries) : Option String :=
  match rule with
  | .whenEmpty reason =>
    match v with
    | .string s => if s == "" then some reason else none
    | .array [] => some reason
    | _ => none
  | .whenZero =>
    match v with
    | .number (.int n) => if n = 0 then some "zero" else none
    | _ => none
  | .always => some "always"
  | .whenTrue key =>
    match parent.get? key with
    | some (.bool true) => some (key ++ " is true")
    | _ => none
  | .whenPresent key => if parent.contains key then some (key ++ " is present") else none
  | .whenResource =>
    if pointsToResource parent then some "label field should be omitted when pointing to a resource"
    else none
  | .whenNoProcessors =>
    match v with
    | .array [] => some "field processors is empty and can be removed"
    | _ => none
  | .custom rule => rule v parent

end Omission

end StreamConfig
