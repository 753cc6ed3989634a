import StreamConfig.Json.Reader
import StreamConfig.Proofs.Document.Passing
import StreamConfig.Proofs.Document.Pointers

/-! # JSON as it is spelled

A spelling is a JSON text cut into its parts: the value that it denotes, and every character between
the keys and values of it. From it one reads off, with no search:
* `Spelling.text` — the text
* `Spelling.value` — the value
* `Spelling.places` — every key and element with the position it should have, keys at their own
  first character and objects in arrays at their first key
* `Spelling.keepsColons` — whether every key has its colon on its own line

Numbers and words are any run of their characters: which of them denotes which value is the reader's
affair and moves no key.
-/

namespace StreamConfig.Json

mutual

/-- One value as it is written, without the blanks around it. -/
inductive Spelling where
  /-- a number, a truth value or null -/
  | word (chars : List Char) (v : Value)
  /-- a string between its quotes -/
  | quoted (body : List Char) (s : String)
  /-- blanks behind the bracket, then the items -/
  | array (gap : List Char) (items : Items)
  /-- blanks behind the brace, then the members -/
  | object (gap : List Char) (members : Members)

/-- The items of an array, each with the blanks around it. -/
inductive Items where
  | nil
  | cons (before : List Char) (v : Spelling) (after : List Char) (rest : Items)

/-- The members of an object, each with the blanks around it and around its colon; a key is given as
it is written and as what it denotes. -/
inductive Members where
  | nil
  | cons (before written : List Char) (key : String) (gap between : List Char) (v : Spelling)
      (after : List Char) (rest : Members)

end

def Items.comma : Items → List Char
  | .nil => []
  | .cons .. => [',']

def Members.comma : Members → List Char
  | .nil => []
  | .cons .. => [',']

theorem Items.comma_eq (items : Items) : items.comma = [] ∨ items.comma = [','] := by
  cases items with
  | nil => exact .inl rfl
  | cons => exact .inr rfl

theorem Members.comma_eq (members : Members) : members.comma = [] ∨ members.comma = [','] := by
  cases members with
  | nil => exact .inl rfl
  | cons => exact .inr rfl

theorem Items.comma_of_ne_nil {items : Items} (h : items ≠ .nil) : items.comma = [','] := by
  cases items with
  | nil => exact absurd rfl h
  | cons => rfl

theorem Members.comma_of_ne_nil {members : Members} (h : members ≠ .nil) :
    members.comma = [','] := by
  cases members with
  | nil => exact absurd rfl h
  | cons => rfl

/-! ## What is written -/

mutual

def Spelling.text : Spelling → List Char
  | .word chars _ => chars
  | .quoted body _ => '"' :: (body ++ ['"'])
  | .array gap items => '[' :: (gap ++ (items.text ++ [']']))
  | .object gap members => '\x7b' :: (gap ++ (members.text ++ ['\x7d']))

def Items.text : Items → List Char
  | .nil => []
  | .cons before v after rest => before ++ (v.text ++ (after ++ (rest.comma ++ rest.text)))

def Members.text : Members → List Char
  | .nil => []
  | .cons before written _ gap between v after rest =>
    before ++ ('"' :: (written ++ ('"' :: (gap ++ (':' :: (between ++ (v.text ++
      (after ++ (rest.comma ++ rest.text)))))))))

end

mutual

def Spelling.value : Spelling → Value
  | .word _ v => v
  | .quoted _ s => .string s
  | .array _ items => .array items.values
  | .object _ members => .object members.entries

def Items.values : Items → List Value
  | .nil => []
  | .cons _ v _ rest => v.value :: rest.values

def Members.entries : Members → Entries
  | .nil => []
  | .cons _ _ key _ _ v _ rest => (key, v.value) :: rest.entries

end

/-! ## Where the keys are -/

/-- The position of the first key, given the text behind the members. -/
def Members.first? (behind : List Char) : Members → Option Position
  | .nil => none
  | .cons before .. => some (Position.behind (behind ++ before ++ ['"']))

/-- The position that an array element should have. -/
def Spelling.first? (behind : List Char) : Spelling → Option Position
  | .object gap members => members.first? (behind ++ '\x7b' :: gap)
  | _ => none

mutual

/-- Every key and element below a value, with the position that it should have, given the text
behind the value. -/
def Spelling.places (p : Pointer) (behind : List Char) : Spelling → List (Pointer × Option Position)
  | .array gap items => items.places p 0 (behind ++ '[' :: gap)
  | .object gap members => members.places p (behind ++ '\x7b' :: gap)
  | _ => []

def Items.places (p : Pointer) (index : Nat) (behind : List Char) :
    Items → List (Pointer × Option Position)
  | .nil => []
  | .cons before v after rest =>
    let start := behind ++ before
    (p.item index, v.first? start) :: (v.places (p.item index) start ++
      rest.places p (index + 1) (start ++ v.text ++ (after ++ rest.comma)))

def Members.places (p : Pointer) (behind : List Char) :
    Members → List (Pointer × Option Position)
  | .nil => []
  | .cons before written key gap between v after rest =>
    let own := behind ++ before ++ ['"']
    let start := own ++ written ++ ['"'] ++ (gap ++ ':' :: between)
    (p.child key, some (Position.behind own)) :: (v.places (p.child key) start ++
      rest.places p (start ++ v.text ++ (after ++ rest.comma)))

end

/-! ## What may be written -/

/-- A character of a number or of `true`, `false` and `null`. -/
def isWordChar (c : Char) : Bool := c.isAlphanum || c == '+' || c == '-' || c == '.'

/-- A number, a truth value or null. -/
def isWord : Value → Bool
  | .null => true
  | .bool _ => true
  | .number _ => true
  | _ => false

mutual

/-- The parts are what JSON has in their places; a key without escapes denotes what is written. -/
def Spelling.isWellFormed : Spelling → Bool
  | .word chars v => !chars.isEmpty && chars.all isWordChar && isWord v
  | .quoted body _ => isQuotedBody body
  | .array gap items => gap.all isSpace && items.areWellFormed
  | .object gap members => gap.all isSpace && members.areWellFormed

def Items.areWellFormed : Items → Bool
  | .nil => true
  | .cons before v after rest =>
    before.all isSpace && v.isWellFormed && after.all isSpace && rest.areWellFormed

def Members.areWellFormed : Members → Bool
  | .nil => true
  | .cons before written key gap between v after rest =>
    before.all isSpace && isQuotedBody written &&
      (written.contains '\\' || key.toList == written) && gap.all isSpace && between.all isSpace &&
      v.isWellFormed && after.all isSpace && rest.areWellFormed

end

/-- A key that is written without escapes, is not empty and ends neither in a blank nor in an
opening bracket, a comma or a colon. -/
def isPlainWritten (written : List Char) : Bool :=
  !written.contains '\\' && !isTokenStart written.reverse

mutual

/-- Every key below the value satisfies `ok`, which is asked about the key as it is written and the
blanks before its colon. -/
def Spelling.allKeys (ok : (written gap : List Char) → Bool) : Spelling → Bool
  | .array _ items => items.allKeys ok
  | .object _ members => members.allKeys ok
  | _ => true

def Items.allKeys (ok : (written gap : List Char) → Bool) : Items → Bool
  | .nil => true
  | .cons _ v _ rest => v.allKeys ok && rest.allKeys ok

def Members.allKeys (ok : (written gap : List Char) → Bool) : Members → Bool
  | .nil => true
  | .cons _ written _ gap _ v _ rest => ok written gap && v.allKeys ok && rest.allKeys ok

end

/-- Every key is plain. -/
def Spelling.hasPlainKeys (l : Spelling) : Bool := l.allKeys fun written _ => isPlainWritten written

/-- Every key has its colon on the line where it ends, after spaces and tabs at most. -/
def Spelling.keepsColons (l : Spelling) : Bool := l.allKeys fun _ gap => gap.all Text.isInlineBlank

/-- A whole text: a value with blanks around it. -/
structure Document where
  before : List Char
  root : Spelling
  after : List Char

namespace Document

def text (d : Document) : String := String.ofList (d.before ++ d.root.text ++ d.after)

def isWellFormed (d : Document) : Bool :=
  d.before.all isSpace && d.root.isWellFormed && d.after.all isSpace

/-- Every key and element of the document, with the position that it should have. -/
def places (d : Document) : List (Pointer × Option Position) := d.root.places "" d.before

end Document

end StreamConfig.Json
