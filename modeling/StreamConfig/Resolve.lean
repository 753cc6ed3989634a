import StreamConfig.Schema.Registry
import StreamConfig.Schema.Reserved

/-! # Which component a block denotes

A component block names its implementation in one of two ways: by a text under `type`, or by the
one key that is the name of a component of the kind. Reserved keys never count. A block without
any other key may stand for a default.

* `ResolveError` — why a block denotes nothing, and the text for it;
* `Registry.resolveKeys` — the second way, over a list of keys;
* `Registry.resolve` — both ways, on the registry as it stands;
* `resolve` — the same after a refresh of the registry, which is how walks over a document ask.
-/

namespace StreamConfig

/-- Why a block denotes no component. -/
inductive ResolveError where
  | notAnObject (found : Shape)
  /-- the text under `type` names no component -/
  | unrecognised (kind : Kind) (name : String)
  /-- two keys name components; the names are in order -/
  | ambiguous (kind : Kind) (first second : String)
  /-- no key names a component; the keys that could have, in order -/
  | noCandidate (kind : Kind) (candidates : List String)
deriving DecidableEq, Repr

def ResolveError.message : ResolveError → String
  | .notAnObject found => "invalid config value " ++ found.name ++ ", expected object"
  | .unrecognised kind name => kind.name ++ " type '" ++ name ++ "' was not recognised"
  | .ambiguous kind first second =>
    "unable to infer " ++ kind.name ++ " type, multiple candidates '" ++ first ++ "' and '" ++
      second ++ "'"
  | .noCandidate kind candidates =>
    "unable to infer " ++ kind.name ++ " type, candidates were: [" ++
      String.intercalate " " candidates ++ "]"

namespace Registry

/-- Goes through keys for the ones that name components of a kind; `found` is the one met so far.
Stops at a second one. -/
def search (r : Registry) (kind : Kind) :
    (found : Option Component) → List String → Except (String × String) (Option Component)
  | found, [] => .ok found
  | found, key :: rest =>
    if kind.isReserved key then r.search kind found rest
    else match r.get? kind key, found with
      | none, _ => r.search kind found rest
      | some c, none => r.search kind (some c) rest
      | some _, some earlier => .error (earlier.name, key)

/-- The keys that could name a component. -/
def candidates (kind : Kind) (keys : List String) : List String :=
  keys.filter fun k => !kind.isReserved k

/-- The component that a list of keys denotes; `default` is the name to use when no key could name
one, empty for none. -/
def resolveKeys (r : Registry) (kind : Kind) (default : String) (keys : List String) :
    Except ResolveError Component :=
  let open_ := candidates kind keys
  match r.search kind none keys with
  | .error (a, b) => .error (if a < b then .ambiguous kind a b else .ambiguous kind b a)
  | .ok (some c) => .ok c
  | .ok none =>
    match (if open_.isEmpty && default != "" then r.get? kind default else none) with
    | some c => .ok c
    | none => .error (.noCandidate kind (Text.sortTexts open_))

/-- The component that a block denotes. -/
def resolve (r : Registry) (kind : Kind) (default : String) (v : Value) :
    Except ResolveError Component :=
  match v with
  | .object m =>
    match Entries.text? m "type" with
    | some name =>
      match r.get? kind name with
      | some c => .ok c
      | none => .error (.unrecognised kind name)
    | none => r.resolveKeys kind default (Entries.keys m)
  | v => .error (.notAnObject v.shape)

end Registry

/-- A way to find the component that a block denotes. Walks over blocks are written for any such
way, so that they can be run on a registry that refreshes and studied on one that stands still. -/
abbrev Resolver (m : Type → Type) := Kind → String → Value → m (Except ResolveError Component)

/-- Resolution after a refresh of the registry. -/
def resolve : Resolver RegistryM := fun kind default v => do
  let _ ← Registry.refresh
  return (← get).resolve kind default v

/-- Resolution on one registry that does not change. -/
def Registry.resolver (r : Registry) : Resolver Id := fun kind default v => r.resolve kind default v

end StreamConfig
