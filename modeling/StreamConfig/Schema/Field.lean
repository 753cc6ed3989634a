import StreamConfig.Finding
import StreamConfig.Schema.Kind
import StreamConfig.Schema.Omission

/-! # Fields

A field describes the value under one key of a configuration object: a tree, since the fields of a
nested object are its children.

* `FieldType` — what a single value is; a value may be a component block of its own;
* `Arity` — whether the field holds one such value, a list of them or a map of them;
* `Linter` — a check that runs on every occurrence of the field;
* `Field` — all of it together, with the marks that a pruning policy looks at.
-/

namespace StreamConfig

/-- What a single value of a field is. -/
inductive FieldType where
  | string
  | int
  | float
  | bool
  | object
  | unknown
  | component (kind : Kind)
deriving DecidableEq, Repr

namespace FieldType

/-- The kind, if values of this type are component blocks. -/
def kind? : FieldType → Option Kind
  | .component k => some k
  | _ => none

def name : FieldType → String
  | .string => "string"
  | .int => "int"
  | .float => "float"
  | .bool => "bool"
  | .object => "object"
  | .unknown => "unknown"
  | .component k => k.name

/-- The name as it appears inside descriptions of fields. -/
def title : FieldType → String
  | .string => "String"
  | .int => "Int"
  | .float => "Float"
  | .bool => "Bool"
  | .object => "Object"
  | .unknown => "Unknown"
  | .component k => "Component(" ++ k.title ++ ")"

end FieldType

/-- How many values a field holds. -/
inductive Arity where
  | scalar
  | array
  | map
deriving DecidableEq, Repr

namespace Arity

def name : Arity → String
  | .scalar => "scalar"
  | .array => "array"
  | .map => "map"

/-- The name as it appears inside descriptions of fields. -/
def title : Arity → String
  | .scalar => "Scalar"
  | .array => "Array"
  | .map => "Map"

end Arity

/-- A check on the value of a field. All checks are given the labels that were met before. Only the
check of labels itself looks at them or adds to them here: any other one that does is left out. -/
inductive Linter where
  /-- the value is a label: well formed, and not used before in the document -/
  | label
  /-- findings that depend on the value and its position alone -/
  | report (check : Position → Value → List Finding)

/-- The description of a field. -/
structure Field where
  name : String
  description : String
  type : FieldType
  arity : Arity
  isAdvanced : Bool
  isDeprecated : Bool
  version : Option String
  children : List Field
  omission : Option Omission
  linter : Option Linter

namespace Field

/-- A field of one value without any marks. -/
def plain (name description : String) (type : FieldType) : Field :=
  { name, description, type
    arity := .scalar
    isAdvanced := false
    isDeprecated := false
    version := none
    children := []
    omission := none
    linter := none }

def string (name description : String) : Field := plain name description .string

def int (name description : String) : Field := plain name description .int

def bool (name description : String) : Field := plain name description .bool

def object (name description : String) (children : List Field) : Field :=
  { plain name description .object with children }

def component (name description : String) (kind : Kind) : Field :=
  plain name description (.component kind)

/-! ### Marks -/

def asArray (f : Field) : Field := { f with arity := .array }

def asMap (f : Field) : Field := { f with arity := .map }

def asAdvanced (f : Field) : Field := { f with isAdvanced := true }

def asDeprecated (f : Field) : Field := { f with isDeprecated := true }

def since (f : Field) (version : String) : Field := { f with version := some version }

def omitted (f : Field) (rule : Omission) : Field := { f with omission := some rule }

def linted (f : Field) (linter : Linter) : Field := { f with linter := some linter }

/-! ### Questions -/

/-- Why the field can be left out, given its value and the object it stands in. -/
def omissionReason? (f : Field) (v : Value) (parent : Entries) : Option String :=
  f.omission.bind fun rule => rule.reason? v parent

/-- The first child of a name. -/
def child? (f : Field) (name : String) : Option Field := f.children.find? fun c => c.name == name

end Field

end StreamConfig
