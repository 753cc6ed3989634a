import StreamConfig.Document.Cursor
import StreamConfig.Document.Pointer

/-! # Positions of keys

`Positions.scan` looks every key of a value up in its source text, in document order. A key that is
not found has the position of the key before it. An array element that is an object has the
position of its first key; other elements have none.

`Positions.nearest` is the position of a place or, if it has none, of the nearest place around it.
-/

namespace StreamConfig

/-- Positions by pointer. -/
abbrev Positions := List (Pointer × Position)

/-- How far the look-up of keys has come: the place behind the last key found, and the position of
that key. -/
structure Trail where
  cursor : Cursor
  last : Position

namespace Trail

def start (source : String) : Trail := ⟨Cursor.start source, Position.origin⟩

/-- Looks up one more key. -/
def follow (t : Trail) (key : String) : Trail :=
  match t.cursor.find key with
  | some c => ⟨c.advance key.toList.length, c.position⟩
  | none => t

mutual
/-- Looks up all keys below a value. -/
def locate (p : Pointer) (v : Value) (t : Trail) : Positions × Trail :=
  match v with
  | .object m => locateEntries p m t
  | .array items => locateItems p 0 items t
  | _ => ([], t)

def locateEntries (p : Pointer) (m : List (String × Value)) (t : Trail) : Positions × Trail :=
  match m with
  | [] => ([], t)
  | (k, v) :: rest =>
    let t := t.follow k
    let (inside, t') := locate (p.child k) v t
    let (others, t'') := locateEntries p rest t'
    ((p.child k, t.last) :: (inside ++ others), t'')

def locateItems (p : Pointer) (index : Nat) (items : List Value) (t : Trail) : Positions × Trail :=
  match items with
  | [] => ([], t)
  | v :: rest =>
    let (inside, t') := locate (p.item index) v t
    let (others, t'') := locateItems p (index + 1) rest t'
    let first := match v with
      | .object _ => (inside.head?.map fun e => (p.item index, e.2)).toList
      | _ => []
    (first ++ (inside ++ others), t'')
end

end Trail

namespace Positions

/-- The positions of all keys of a value in its source text. -/
def scan (source : String) (v : Value) : Positions := (Trail.locate "" v (Trail.start source)).1

def get? (ps : Positions) (p : Pointer) : Option Position := (ps.find? fun e => e.1 == p).map (·.2)

/-- The position of a place or of the nearest place around it, looking at most `steps` places out;
the start of the text if none has a position. -/
def nearestTo (ps : Positions) : (steps : Nat) → Pointer → Position
  | 0, _ => Position.origin
  | steps + 1, p =>
    match ps.get? p with
    | some at' => at'
    | none =>
      match p.parent? with
      | some q => nearestTo ps steps q
      | none => Position.origin

/-- The position of a place or of the nearest place around it. -/
def nearest (ps : Positions) (p : Pointer) : Position := nearestTo ps (p.toList.length + 1) p

end Positions

end StreamConfig
