import StreamConfig.Policy
import StreamConfig.Text.Quoted

/-! # Outlines

One-line outlines of fields and policies for people who look into them: the marks are spelled out,
and of the rules only whether there is one.
-/

namespace StreamConfig

/-- A record with named parts. -/
def Text.record (name : String) (parts : List (String × String)) : String :=
  name ++ " \x7b " ++ String.intercalate ", " (parts.map fun p => p.1 ++ ": " ++ p.2) ++ " \x7d"

def Text.truth (b : Bool) : String := if b then "true" else "false"

mutual
/-- A field with its children. -/
def Field.outline (f : Field) : String :=
  match f with
  | ⟨name, _, type, arity, isAdvanced, isDeprecated, version, children, omission, linter⟩ =>
    Text.record "FieldSpec"
      [("name", Text.quoted name), ("field_type", type.title), ("kind", arity.title),
       ("advanced", Text.truth isAdvanced), ("deprecated", Text.truth isDeprecated),
       ("version", match version with
         | some v => "Some(" ++ Text.quoted v ++ ")"
         | none => "None"),
       ("children", "[" ++ String.intercalate ", " (Field.outlines children) ++ "]"),
       ("omit_when", Text.truth omission.isSome), ("linter", Text.truth linter.isSome)]

def Field.outlines : List Field → List String
  | [] => []
  | f :: rest => f.outline :: Field.outlines rest
end

/-- A policy. -/
def Policy.outline (p : Policy) : String :=
  Text.record "SanitiseConfig"
    [("remove_type_field", Text.truth p.removeTypeField),
     ("remove_deprecated", Text.truth p.removeDeprecated),
     ("for_example", Text.truth p.forExample), ("filter", Text.truth p.filter.isSome),
     ("docs_provider", Text.truth (p.supply == .own))]

end StreamConfig
