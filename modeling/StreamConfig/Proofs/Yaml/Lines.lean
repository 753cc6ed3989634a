import StreamConfig.Label
import StreamConfig.Proofs.Document.Order
import StreamConfig.Proofs.Value.UpTo
import StreamConfig.Yaml.Chars

/-! # Trees in block style

A tree of mappings and sequences, written with one key per line: what belongs to a key is indented
by two spaces on the lines below it, an item follows a dash and a space, and a scalar stands on the
line of its key or its dash.
* `Tree` — a tree, the value that it stands for and the lines that it is written on
* `Line` — a line as a margin, with one mark per level, and what stands behind it
* `isPlain` — a scalar that needs no quotes
* `Tree.places` — every key with its own line and column
* `Tree.isQuiet` — no scalar stops the search for the key that comes next, or leads it astray
-/

namespace StreamConfig.Yaml

/-! ## Lines -/

/-- One level of nesting in the margin of a line. -/
inductive Mark where
  | spaces
  | dash
deriving DecidableEq

def Mark.text : Mark → List Char
  | .spaces => [' ', ' ']
  | .dash => ['-', ' ']

def marginText (margin : List Mark) : List Char := margin.flatMap Mark.text

@[simp] theorem marginText_nil : marginText [] = [] := rfl

@[simp] theorem marginText_spaces (margin : List Mark) :
    marginText (.spaces :: margin) = ' ' :: ' ' :: marginText margin := rfl

@[simp] theorem marginText_dash (margin : List Mark) :
    marginText (.dash :: margin) = '-' :: ' ' :: marginText margin := rfl

/-- What a line holds behind its margin; keys come with their pointers. -/
inductive Content where
  /-- a key whose entries or items are on the lines below -/
  | opening (p : Pointer) (key : String)
  /-- a key and its scalar -/
  | entry (p : Pointer) (key : String) (scalar : List Char)
  /-- a scalar without a key -/
  | item (scalar : List Char)

namespace Content

def key? : Content → Option (Pointer × String)
  | .opening p key | .entry p key _ => some (p, key)
  | .item _ => none

def name : Content → List Char
  | .opening _ key | .entry _ key _ => key.toList
  | .item _ => []

/-- What stands between the key and its scalar. -/
def colon : Content → List Char
  | .opening _ _ => [':']
  | .entry _ _ _ => [':', ' ']
  | .item _ => []

def scalar : Content → List Char
  | .opening _ _ => []
  | .entry _ _ scalar | .item scalar => scalar

theorem name_eq_nil {c : Content} (h : c.key? = none) : c.name = [] := by
  cases c with
  | opening | entry => cases h
  | item => rfl

end Content

structure Line where
  margin : List Mark
  content : Content

namespace Line

/-- The line up to a part of its scalar. -/
def upTo (l : Line) (part : List Char) : List Char :=
  marginText l.margin ++ (l.content.name ++ (l.content.colon ++ part))

def text (l : Line) : List Char := l.upTo l.content.scalar ++ ['\n']

/-- The column of the first character behind the margin. -/
def column (l : Line) : Nat := 2 * l.margin.length + 1

/-- One level further in. -/
def within (m : Mark) (l : Line) : Line := { l with margin := m :: l.margin }

def textOf (ls : List Line) : List Char := ls.flatMap Line.text

def keysOf (ls : List Line) : List (Pointer × String) := ls.filterMap (·.content.key?)

/-- The keys on some lines, each with the number of its line and its column there. -/
def placesFrom (number : Nat) : List Line → Positions
  | [] => []
  | l :: ls =>
    (l.content.key?.map fun k => (k.1, ⟨number, l.column⟩)).toList ++ placesFrom (number + 1) ls

/-- The lines of an item: a dash before the first one, all others as far in. -/
def itemised : List Line → List Line
  | [] => []
  | l :: ls => l.within .dash :: ls.map (Line.within .spaces)

end Line

/-! ## Scalars without quotes -/

/-- A character that means something else than itself at the start of a scalar. -/
def isIndicator (c : Char) : Bool :=
  ['-', '?', ':', ',', '[', ']', '\x7b', '\x7d', '#', '&', '*', '!', '|', '>', '\'', '"', '%', '@',
    '\x60'].contains c

/-- A scalar starts with no blank and no indicator; a dash, a question mark and a colon are none if
no blank follows them. -/
def startsPlain : List Char → Bool
  | [] => false
  | c :: rest =>
    if c == '-' || c == '?' || c == ':' then rest.head?.any fun d => !isBlank d
    else !isBlank c && !isIndicator c

/-- A scalar as it may stand without quotes on a line of its own: no colon before a blank or at the
end, and no number sign behind a blank. -/
def isPlain (text : List Char) : Bool :=
  text.all (fun c => isAllowed c && !isBreak c) && startsPlain text &&
    text.getLast?.all (fun c => !isBlank c && c != ':') &&
    decide (text.IsChain fun c d => ¬ (c = ':' ∧ isBlank d) ∧ ¬ (isBlank c ∧ d = '#'))

/-- A key of lower-case letters, digits and underscores. -/
def isName (key : String) : Bool := key != "" && key.toList.all Label.isLabelChar

def Content.isWellFormed : Content → Bool
  | .opening _ key => isName key
  | .entry _ key scalar => isName key && isPlain scalar
  | .item scalar => isPlain scalar

/-! ## Trees -/

inductive Tree where
  | scalar (text : List Char) (v : Value)
  | mapping (entries : List (String × Tree))
  | sequence (items : List Tree)

namespace Tree

mutual
def value : Tree → Value
  | .scalar _ v => v
  | .mapping entries => .object (entryValues entries)
  | .sequence items => .array (itemValues items)

def entryValues : List (String × Tree) → List (String × Value)
  | [] => []
  | (k, b) :: rest => (k, b.value) :: entryValues rest

def itemValues : List Tree → List Value
  | [] => []
  | b :: rest => b.value :: itemValues rest
end

mutual
/-- Plain scalars, and mappings and sequences that are not empty; no mapping has a key twice. -/
def isWellFormed : Tree → Bool
  | .scalar text v => isPlain text && v.isScalar
  | .mapping entries =>
    !entries.isEmpty && decide (entries.map (·.1)).Nodup && entriesAreWellFormed entries
  | .sequence items => !items.isEmpty && itemsAreWellFormed items

def entriesAreWellFormed : List (String × Tree) → Bool
  | [] => true
  | (k, b) :: rest => isName k && b.isWellFormed && entriesAreWellFormed rest

def itemsAreWellFormed : List Tree → Bool
  | [] => true
  | b :: rest => b.isWellFormed && itemsAreWellFormed rest
end

/-- The lines of a key, given the lines of the tree under it. -/
def keyLines (p : Pointer) (key : String) (inside : List Line) : Tree → List Line
  | .scalar text _ => [⟨[], .entry p key text⟩]
  | .mapping _ | .sequence _ => ⟨[], .opening p key⟩ :: inside.map (Line.within .spaces)

mutual
/-- The lines of a tree that stands at a pointer. -/
def lines (p : Pointer) : Tree → List Line
  | .scalar text _ => [⟨[], .item text⟩]
  | .mapping entries => entryLines p entries
  | .sequence items => itemLines p 0 items

def entryLines (p : Pointer) : List (String × Tree) → List Line
  | [] => []
  | (k, b) :: rest => b.keyLines (p.child k) k (b.lines (p.child k)) ++ entryLines p rest

def itemLines (p : Pointer) (index : Nat) : List Tree → List Line
  | [] => []
  | b :: rest => Line.itemised (b.lines (p.item index)) ++ itemLines p (index + 1) rest
end

def text (b : Tree) : String := String.ofList (Line.textOf (b.lines ""))

/-- Every key with its own line and column. -/
def places (b : Tree) : Positions := Line.placesFrom 1 (b.lines "")

end Tree

/-! ## Quiet scalars -/

/-- A search for the key gets over a scalar: from left to right, where a token may start, there is
neither the key with a colon next nor a quote, unless the quote is closed again in the scalar, and
not as quoted key before a colon, or is not closed in the whole text. What is `before` comes nearest
first, `skip` characters are quoted ones. -/
def isQuiet (key after : List Char) : (skip : Nat) → (before scalar : List Char) → Bool
  | skip, _, [] => skip == 0
  | skip + 1, before, c :: rest => isQuiet key after skip (c :: before) rest
  | 0, before, c :: rest =>
    if isTokenStart before then
      if c == '"' || c == '\'' then
        match quotedLength? c (rest ++ after) with
        | none => isQuiet key after 0 (c :: before) rest
        | some n =>
          !((rest ++ after).take n == key && isBeforeColon ((rest ++ after).drop (n + 1))) &&
            isQuiet key after (n + 1) (c :: before) rest
      else
        !(key.isPrefixOf (c :: rest ++ after) &&
            isBeforeColon ((c :: rest ++ after).drop key.length)) &&
          isQuiet key after 0 (c :: before) rest
    else isQuiet key after 0 (c :: before) rest

namespace Line

/-- The key that comes next. -/
def nextKey? (ls : List Line) : Option String := (keysOf ls).head?.map (·.2)

/-- Every scalar lets the search for the next key pass. -/
def areQuiet : List Line → Bool
  | [] => true
  | l :: ls =>
    (nextKey? ls).all (fun k => isQuiet k.toList ('\n' :: textOf ls) 0 [] l.content.scalar) &&
      areQuiet ls

end Line

def Tree.isQuiet (b : Tree) : Bool := Line.areQuiet (b.lines "")

end StreamConfig.Yaml
