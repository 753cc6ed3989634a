import StreamConfig.Value.Entries
import StreamConfig.Yaml.Node
import StreamConfig.Yaml.Scalar

/-! # Reading YAML

`Yaml.read` reads a stream of at most one document; a stream without one is null.

* Aliases are replaced by what they refer to. Following more than a hundred times as many aliases as
  the document has parts is an error, and so is a nesting of more than 128 collections, which ends
  references in a circle.
* Keys are scalars and count as their text, whatever their form; a repeated key takes its last
  value.
* The tags for booleans, integers, doubles and null convert, other tags of the standard mean text,
  and tags of the document's own are errors.
-/

namespace StreamConfig.Yaml

/-- Counts the aliases followed. -/
abbrev Expansion := StateT Nat Option

/-- What an expansion goes by. -/
structure Table where
  /-- the anchored nodes by number, the last one of a number counts -/
  anchored : List (Nat × Node Nat)
  /-- how many aliases may be followed -/
  limit : Nat

/-- Follows an alias. -/
def Table.follow (t : Table) (target : Nat) : Expansion (Node Nat) := do
  let count ← get
  if t.limit ≤ count then failure
  else
    set (count + 1)
    match t.anchored.reverse.find? fun e => e.1 == target with
    | some e => return e.2
    | none => failure

/-- The node itself, or the one that it refers to. -/
def Table.target (t : Table) : Node Nat → Expansion (Node Nat)
  | .alias target => t.follow target
  | n => pure n

/-- The tag belongs to the document and not to the standard. -/
def isOwnTag (tag : Option String) : Bool := tag.any fun t => t.toList.head? == some '!'

/-- What a scalar with a tag means. -/
def tagged? (tag text : String) : Option Value :=
  if tag == "tag:yaml.org,2002:bool" then (bool? text).map .bool
  else if tag == "tag:yaml.org,2002:int" then
    match fit text with
    | .fits n => some (.number (.int n))
    | _ => none
  else if tag == "tag:yaml.org,2002:float" then doubleValue? text
  else if tag == "tag:yaml.org,2002:null" then if isNullText text then some .null else none
  else some (.string text)

/-- What a scalar means. -/
def scalarValue? (tag : Option String) (isPlain : Bool) (text : String) : Option Value :=
  match tag with
  | some tag => tagged? tag text
  | none => if isPlain then meaning? text else some (.string text)

/-- The text of a key. -/
def keyText (t : Table) (n : Node Nat) : Expansion String := do
  match ← t.target n with
  | .scalar _ _ _ text => return text
  | _ => failure

/-- The value of a node; `room` is how many collections may still be opened. -/
def valueOf (t : Table) : (room : Nat) → Node Nat → Expansion Value
  | room, n => do
    match ← t.target n with
    | .alias _ => failure
    | .scalar _ tag isPlain text =>
      if isOwnTag tag then failure
      else match scalarValue? tag isPlain text with
        | some v => return v
        | none => failure
    | .sequence _ tag items =>
      match room with
      | 0 => failure
      | room + 1 =>
        if isOwnTag tag then failure else return .array (← items.mapM (valueOf t room))
    | .mapping _ tag entries =>
      match room with
      | 0 => failure
      | room + 1 =>
        if isOwnTag tag then failure
        else
          let es ← entries.mapM fun e => do
            let k ← keyText t e.1
            let v ← valueOf t room e.2
            return (k, v)
          return .object (Entries.ofList es)

/-- How deep collections may nest. -/
def maxNesting : Nat := 128

/-- The value of a tree. -/
def ofNode? (n : Written) : Option Value := do
  let (n, _) ← n.numbered?.run []
  let (v, _) ← (valueOf ⟨n.anchored, 100 * n.size⟩ maxNesting n).run 0
  return v

/-- The value that a stream denotes. -/
def read (text : String) : Option Value := do
  match ← Node.ofTokens? (← tokens? text) with
  | none => return .null
  | some n => ofNode? n

end StreamConfig.Yaml
