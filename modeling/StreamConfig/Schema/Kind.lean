/-! # Component kinds and statuses

* `Kind` — the nine categories of components. A kind decides which names a component may have and
  which fields every one of its components may carry besides its own.
* `Status` — how settled a component is.
-/

namespace StreamConfig

/-- The category of a component. -/
inductive Kind where
  | input
  | buffer
  | cache
  | condition
  | metrics
  | output
  | processor
  | rateLimit
  | tracer
deriving DecidableEq, Repr

namespace Kind

/-- All kinds, in the order in which they are listed. -/
def all : List Kind :=
  [.input, .buffer, .cache, .condition, .metrics, .output, .processor, .rateLimit, .tracer]

def name : Kind → String
  | .input => "input"
  | .buffer => "buffer"
  | .cache => "cache"
  | .condition => "condition"
  | .metrics => "metrics"
  | .output => "output"
  | .processor => "processor"
  | .rateLimit => "rate_limit"
  | .tracer => "tracer"

/-- The name as it appears inside descriptions of fields. -/
def title : Kind → String
  | .input => "Input"
  | .buffer => "Buffer"
  | .cache => "Cache"
  | .condition => "Condition"
  | .metrics => "Metrics"
  | .output => "Output"
  | .processor => "Processor"
  | .rateLimit => "RateLimit"
  | .tracer => "Tracer"

/-- The kind of a name. -/
def ofName? (s : String) : Option Kind := all.find? fun k => k.name == s

/-- What is said of a name that no kind has. -/
def unknownMessage (s : String) : String := "unknown component kind: " ++ s

/-- Components of these kinds may carry a label. -/
def hasLabel : Kind → Bool
  | .input | .processor | .output | .cache | .rateLimit => true
  | _ => false

/-- Components of these kinds may carry a list of processors. -/
def hasProcessors : Kind → Bool
  | .input | .output => true
  | _ => false

/-- The name that a component block without any telling key stands for in a document; empty where
such a block stands for nothing. -/
def defaultName : Kind → String
  | .buffer | .metrics | .tracer => "none"
  | _ => ""

theorem ofName?_name (k : Kind) : ofName? k.name = some k := by cases k <;> decide

theorem name_of_ofName? {s : String} {k : Kind} (h : ofName? s = some k) : k.name = s := by
  have := List.find?_some h
  simpa using this

end Kind

/-- How settled a component is. -/
inductive Status where
  | stable
  | beta
  | experimental
  | deprecated
deriving DecidableEq, Repr

namespace Status

def all : List Status := [.stable, .beta, .experimental, .deprecated]

def name : Status → String
  | .stable => "stable"
  | .beta => "beta"
  | .experimental => "experimental"
  | .deprecated => "deprecated"

def ofName? (s : String) : Option Status := all.find? fun t => t.name == s

end Status

end StreamConfig
