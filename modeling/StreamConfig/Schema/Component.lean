import StreamConfig.Schema.Field

/-! # Components

A component is one registered implementation of a kind. Its `config` field describes what stands
under the component's own name in a component block.
-/

namespace StreamConfig

/-- One implementation of a kind. -/
structure Component where
  name : String
  kind : Kind
  summary : String
  status : Status
  /-- the component was announced by an extension -/
  isPlugin : Bool
  /-- the value under the component's name -/
  config : Field

namespace Component

/-- A stable component whose configuration is an object without known fields. -/
def plain (name : String) (kind : Kind) : Component :=
  { name, kind
    summary := ""
    status := .stable
    isPlugin := false
    config := Field.object "" "" [] }

/-- What is known of a component of which an extension announced no more than the name. -/
def announced (name : String) (kind : Kind) : Component :=
  { plain name kind with status := .experimental, isPlugin := true }

/-- A stable component whose configuration is an object of the given fields. -/
def ofFields (name : String) (kind : Kind) (summary : String) (fields : List Field) : Component :=
  { plain name kind with summary, config := Field.object "" "" fields }

/-- A stable component whose configuration is a single value. -/
def ofConfig (name : String) (kind : Kind) (summary : String) (config : Field) : Component :=
  { plain name kind with summary, config }

def withStatus (c : Component) (status : Status) : Component := { c with status }

end Component

end StreamConfig
