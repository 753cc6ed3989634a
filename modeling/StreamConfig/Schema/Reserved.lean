import StreamConfig.Label

/-! # Reserved fields

Some keys belong to every component of a kind, whatever its implementation: they never name an
implementation, and pruning keeps them.
-/

namespace StreamConfig.Kind

/-- The list of processors that inputs and outputs may carry. -/
def processorsField : Field :=
  (Field.component "processors" "" .processor).asArray.omitted .whenNoProcessors

/-- The fields of every component of a kind, by name. -/
def reservedFields (kind : Kind) : List Field :=
  (if kind.hasLabel then [Label.field] else []) ++
  [Field.plain "plugin" "" .object] ++
  (if kind.hasProcessors then [processorsField] else []) ++
  [Field.string "type" ""]

/-- The reserved field of a name. -/
def reserved? (kind : Kind) (name : String) : Option Field :=
  kind.reservedFields.find? fun f => f.name == name

/-- Whether a key is reserved. -/
def isReserved (kind : Kind) (name : String) : Bool := (kind.reserved? name).isSome

end StreamConfig.Kind
