import StreamConfig.Yaml.Token

/-! # Nodes of YAML

Tokens are put together to a tree of scalars, sequences and mappings. Anchors and aliases are
references between nodes and are kept as such.

* `Node` — the tree, with references of any type: names as written, or numbers;
* `Node.ofTokens?` — the only document of a token list, if there is one;
* `Node.numbered?` — the same tree with names replaced by numbers.
-/

namespace StreamConfig.Yaml

/-- A tree of scalars, sequences and mappings. -/
inductive Node (ref : Type) where
  | alias (target : ref)
  | scalar (anchor : Option ref) (tag : Option String) (isPlain : Bool) (text : String)
  | sequence (anchor : Option ref) (tag : Option String) (items : List (Node ref))
  | mapping (anchor : Option ref) (tag : Option String) (entries : List (Node ref × Node ref))
deriving Inhabited

/-- A node as written, references being names. -/
abbrev Written := Node String

/-- Readers that take tokens off the front of a list. -/
abbrev Reader := StateT (List Token) Option

namespace Reader

/-- The next token, which stays. A list of tokens ends with the end of the stream. -/
def peek : Reader Token := fun ts => some (ts.head?.getD .streamEnd, ts)

def skip : Reader Unit := fun ts => some ((), ts.drop 1)

/-- Takes the next token if it is the given one. -/
def accept (t : Token) : Reader Bool := fun ts =>
  if ts.head? == some t then some (true, ts.drop 1) else some (false, ts)

/-- Takes the next token, which has to be the given one. -/
def expect (t : Token) : Reader Unit := do if ← accept t then pure () else failure

end Reader

/-- A node that is not written at all. -/
def absent : Written := .scalar none none true ""

/-! ## Properties -/

/-- The anchor and the tag in front of a node. -/
structure Properties where
  anchor : Option String
  tag : Option (String × String)

/-- Reads an anchor and a tag in either order. -/
def properties : Reader Properties := do
  match ← Reader.peek with
  | .anchor name =>
    Reader.skip
    match ← Reader.peek with
    | .tag handle suffix => Reader.skip; return ⟨some name, some (handle, suffix)⟩
    | _ => return ⟨some name, none⟩
  | .tag handle suffix =>
    Reader.skip
    match ← Reader.peek with
    | .anchor name => Reader.skip; return ⟨some name, some (handle, suffix)⟩
    | _ => return ⟨none, some (handle, suffix)⟩
  | _ => return ⟨none, none⟩

/-- What tag handles stand for. -/
abbrev Handles := List (String × String)

/-- The full tag; a handle that stands for nothing is an error. -/
def fullTag (handles : Handles) : Option (String × String) → Reader (Option String)
  | none => pure none
  | some ("", suffix) => pure (some suffix)
  | some (handle, suffix) =>
    match handles.find? fun h => h.1 == handle with
    | some h => pure (some (h.2 ++ suffix))
    | none => failure

/-! ## Collections -/

section Collections

/- Reads a node in a block collection, at the places where a sequence need not be indented, and in a
flow collection. -/
variable (block indentless flow : Reader Written)

/-- A node, or an absent one if one of the given tokens comes next. -/
def absentAt (ends : List Token) (node : Reader Written) : Reader Written := do
  if ends.contains (← Reader.peek) then return absent else node

/-- Items of a block sequence up to its end. -/
def blockItems : (rounds : Nat) → Reader (List Written)
  | 0 => failure
  | rounds + 1 => do
    if ← Reader.accept .blockEntry then
      let item ← absentAt [.blockEntry, .blockEnd] block
      return item :: (← blockItems rounds)
    else
      Reader.expect .blockEnd
      return []

/-- Items of a sequence that is indented no deeper than the mapping around it; whatever is no item
ends it. -/
def indentlessItems : (rounds : Nat) → Reader (List Written)
  | 0 => failure
  | rounds + 1 => do
    if ← Reader.accept .blockEntry then
      let item ← absentAt [.blockEntry, .key, .value, .blockEnd] block
      return item :: (← indentlessItems rounds)
    else return []

/-- Entries of a block mapping up to its end. -/
def blockEntries : (rounds : Nat) → Reader (List (Written × Written))
  | 0 => failure
  | rounds + 1 => do
    if ← Reader.accept .key then
      let key ← absentAt [.key, .value, .blockEnd] indentless
      let value ←
        if ← Reader.accept .value then absentAt [.key, .value, .blockEnd] indentless
        else pure absent
      return (key, value) :: (← blockEntries rounds)
    else
      Reader.expect .blockEnd
      return []

/-- A single entry that stands for a mapping among the items of a flow sequence. Where its key is
absent, the token after the key mark is passed over. -/
def flowPair : Reader Written := do
  let key ←
    if [Token.value, .flowEntry, .flowSequenceEnd].contains (← Reader.peek) then
      Reader.skip; pure absent
    else flow
  let value ←
    if ← Reader.accept .value then absentAt [.flowEntry, .flowSequenceEnd] flow else pure absent
  return .mapping none none [(key, value)]

/-- Items of a flow sequence up to its bracket; commas stand between them, and one may follow the
last. -/
def flowItems : (rounds : Nat) → (isFirst : Bool) → Reader (List Written)
  | 0, _ => failure
  | rounds + 1, isFirst => do
    if ← Reader.accept .flowSequenceEnd then return []
    else
      if !isFirst then Reader.expect .flowEntry
      if ← Reader.accept .flowSequenceEnd then return []
      else
        let item ← if ← Reader.accept .key then flowPair flow else flow
        return item :: (← flowItems rounds false)

/-- Entries of a flow mapping up to its brace. A node without a colon is a key without a value. -/
def flowEntries : (rounds : Nat) → (isFirst : Bool) → Reader (List (Written × Written))
  | 0, _ => failure
  | rounds + 1, isFirst => do
    if ← Reader.accept .flowMappingEnd then return []
    else
      if !isFirst then Reader.expect .flowEntry
      if ← Reader.accept .flowMappingEnd then return []
      else
        let entry ←
          if ← Reader.accept .key then do
            let key ← absentAt [.value, .flowEntry, .flowMappingEnd] flow
            let value ←
              if ← Reader.accept .value then absentAt [.flowEntry, .flowMappingEnd] flow
              else pure absent
            pure (key, value)
          else do
            let key ← flow
            pure (key, absent)
        return entry :: (← flowEntries rounds false)

end Collections

/-! ## Nodes -/

/-- Where a node stands. -/
inductive Setting where
  | block
  /-- in a block mapping, where a sequence need not be indented -/
  | indentless
  | flow
deriving DecidableEq

/-- A node; `depth` bounds how deep collections nest, and `rounds` how long they are. -/
def node (handles : Handles) (rounds : Nat) : (depth : Nat) → Setting → Reader Written
  | 0, _ => failure
  | depth + 1, setting => do
    let block := node handles rounds depth .block
    let indentless := node handles rounds depth .indentless
    let flow := node handles rounds depth .flow
    match ← Reader.peek with
    | .alias name => Reader.skip; return .alias name
    | _ =>
      let props ← properties
      let tag ← fullTag handles props.tag
      match ← Reader.peek, setting with
      | .blockEntry, .indentless =>
        return .sequence props.anchor tag (← indentlessItems block rounds)
      | .scalar isPlain text, _ =>
        Reader.skip
        return .scalar props.anchor tag isPlain text
      | .flowSequence, _ =>
        Reader.skip
        return .sequence props.anchor tag (← flowItems flow rounds true)
      | .flowMapping, _ =>
        Reader.skip
        return .mapping props.anchor tag (← flowEntries flow rounds true)
      | .blockSequence, .block | .blockSequence, .indentless =>
        Reader.skip
        return .sequence props.anchor tag (← blockItems block rounds)
      | .blockMapping, .block | .blockMapping, .indentless =>
        Reader.skip
        return .mapping props.anchor tag (← blockEntries indentless rounds)
      | _, _ =>
        if props.anchor.isSome || tag.isSome then return .scalar props.anchor tag true ""
        else failure

/-! ## Documents -/

/-- The directives in front of a document: the handles that they name, and whether a version was
given. -/
def directives : (rounds : Nat) → (hasVersion : Bool) → Handles → Reader (Bool × Handles)
  | 0, _, _ => failure
  | rounds + 1, hasVersion, handles => do
    match ← Reader.peek with
    | .version major minor =>
      if hasVersion || major != 1 || !(minor == 1 || minor == 2) then failure
      else
        Reader.skip
        directives rounds true handles
    | .tagHandle handle text =>
      if handles.any fun h => h.1 == handle then failure
      else
        Reader.skip
        directives rounds hasVersion (handles ++ [(handle, text)])
    | _ => return (hasVersion, handles)

/-- The handles that need no directive. -/
def standardHandles : Handles := [("!", "!"), ("!!", "tag:yaml.org,2002:")]

/-- Tokens at which a document without any node ends. -/
def endsDocument : Token → Bool
  | .version _ _ | .tagHandle _ _ | .documentStart | .documentEnd | .streamEnd => true
  | _ => false

/-- Passes over marks for the end of a document. -/
def skipEnds : (rounds : Nat) → Reader Unit
  | 0 => failure
  | rounds + 1 => do if ← Reader.accept .documentEnd then skipEnds rounds

/-- The only document of a stream; `none` inside if the stream holds no document. -/
def document (rounds : Nat) : Reader (Option Written) := do
  match ← Reader.peek with
  | .streamEnd => return none
  | t =>
    let root ←
      match t with
      | .version _ _ | .tagHandle _ _ | .documentStart => do
        let (_, handles) ← directives rounds false []
        Reader.expect .documentStart
        if endsDocument (← Reader.peek) then pure absent
        else node (handles ++ standardHandles) rounds rounds .block
      | _ => node standardHandles rounds rounds .block
    skipEnds rounds
    Reader.expect .streamEnd
    return some root

/-- The only document of a list of tokens. -/
def Node.ofTokens? (ts : List Token) : Option (Option Written) :=
  ((document (2 * ts.length + 2)).run ts).map (·.1)

/-! ## References

An anchor is numbered by how many different names have been seen before it, in the order in which
nodes start. An alias refers to the last number that its name was given before it. -/

/-- The number of each name. -/
abbrev Names := List (String × Nat)

/-- Numbers an anchor. -/
def anchorNumber : Option String → StateT Names Option (Option Nat)
  | none => pure none
  | some name => do
    let names ← get
    set ((name, names.length) :: names.filter fun e => e.1 != name)
    return some names.length

mutual
/-- The tree with numbers for names; an alias without an anchor before it is an error. -/
def Node.numbered? : Written → StateT Names Option (Node Nat)
  | .alias name => do
    match (← get).find? fun e => e.1 == name with
    | some e => return .alias e.2
    | none => failure
  | .scalar anchor tag isPlain text => return .scalar (← anchorNumber anchor) tag isPlain text
  | .sequence anchor tag items => do
    let anchor ← anchorNumber anchor
    return .sequence anchor tag (← numberedItems items)
  | .mapping anchor tag entries => do
    let anchor ← anchorNumber anchor
    return .mapping anchor tag (← numberedEntries entries)

def numberedItems : List Written → StateT Names Option (List (Node Nat))
  | [] => pure []
  | n :: rest => do
    let n ← n.numbered?
    return n :: (← numberedItems rest)

def numberedEntries : List (Written × Written) → StateT Names Option (List (Node Nat × Node Nat))
  | [] => pure []
  | (k, v) :: rest => do
    let k ← k.numbered?
    let v ← v.numbered?
    return (k, v) :: (← numberedEntries rest)
end

mutual
/-- The anchored nodes of a tree with their numbers, in the order in which they start. -/
def Node.anchored (n : Node Nat) : List (Nat × Node Nat) :=
  match n with
  | .alias _ => []
  | .scalar anchor _ _ _ => anchor.toList.map (·, n)
  | .sequence anchor _ items => anchor.toList.map (·, n) ++ anchoredItems items
  | .mapping anchor _ entries => anchor.toList.map (·, n) ++ anchoredEntries entries

def anchoredItems : List (Node Nat) → List (Nat × Node Nat)
  | [] => []
  | n :: rest => n.anchored ++ anchoredItems rest

def anchoredEntries : List (Node Nat × Node Nat) → List (Nat × Node Nat)
  | [] => []
  | (k, v) :: rest => k.anchored ++ v.anchored ++ anchoredEntries rest
end

mutual
/-- The size of a tree, a collection counting twice: once where it starts and once where it ends. -/
def Node.size : Node Nat → Nat
  | .alias _ => 1
  | .scalar _ _ _ _ => 1
  | .sequence _ _ items => sizeItems items + 2
  | .mapping _ _ entries => sizeEntries entries + 2

def sizeItems : List (Node Nat) → Nat
  | [] => 0
  | n :: rest => n.size + sizeItems rest

def sizeEntries : List (Node Nat × Node Nat) → Nat
  | [] => 0
  | (k, v) :: rest => k.size + v.size + sizeEntries rest
end

end StreamConfig.Yaml
