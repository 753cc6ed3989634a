import StreamConfig.Json.Reader
import StreamConfig.Yaml.Reader

/-! # Document formats

A document is JSON or YAML. The format is told by the extension of the file's name; where it tells
nothing, JSON is tried before YAML.

* `Format.ofPath?` — the format that a path tells;
* `parseDocument` — the value of a document.
-/

namespace StreamConfig

/-- The formats of documents. -/
inductive Format where
  | json
  | yaml
deriving DecidableEq, Repr

namespace Format

def name : Format → String
  | .json => "json"
  | .yaml => "yaml"

/-- The pieces of a text between slashes. -/
def pieces : List Char → List (List Char)
  | [] => [[]]
  | c :: rest =>
    match c == '/', pieces rest with
    | true, ps => [] :: ps
    | false, p :: ps => (c :: p) :: ps
    | false, [] => [[c]]

/-- The steps of a path; empty ones and those that stay in place do not count. -/
def steps (path : String) : List (List Char) :=
  (pieces path.toList).filter fun p => !p.isEmpty && p != ['.']

/-- The last step of a path, unless it leads upwards. -/
def fileName? (path : String) : Option (List Char) :=
  match (steps path).getLast? with
  | none => none
  | some p => if p == ['.', '.'] then none else some p

/-- What follows the last point of a file name; a point at the very start does not count. -/
def extension? (fileName : List Char) : Option (List Char) :=
  let after := fileName.reverse.takeWhile (· != '.')
  match fileName.reverse.drop after.length with
  | _ :: _ :: _ => some after.reverse
  | _ => none

/-- The format that a path tells. -/
def ofPath? (path : String) : Option Format :=
  match ((fileName? path).bind extension?).map String.ofList with
  | some "json" => some .json
  | some "yaml" => some .yaml
  | some "yml" => some .yaml
  | _ => none

end Format

/-- Why a text is no document. -/
inductive ParseError where
  | json
  | yaml
  /-- neither of the formats fits -/
  | either
deriving DecidableEq, Repr

/-- The value of a document. -/
def parseDocument (format : Option Format) (source : String) : Except ParseError Value :=
  match format with
  | some .json => (Json.read source).elim (.error .json) .ok
  | some .yaml => (Yaml.read source).elim (.error .yaml) .ok
  | none =>
    match Json.read source with
    | some v => .ok v
    | none => (Yaml.read source).elim (.error .either) .ok

end StreamConfig
