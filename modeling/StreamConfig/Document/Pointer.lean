import StreamConfig.Value.Basic

/-! # Pointers

A pointer names a place in a value: the keys and indices on the way to it, each after a slash. A
slash inside a key is written `~1` and a tilde `~0`, so that pointers can be cut apart again.

* `Pointer.child` — one step further;
* `Pointer.parent?` — one step back: what stands before the last slash;
* `Value.pointers` — every key and element of a value in document order;
* `parent?_child` — a step back undoes a step further, whatever the key.
-/

namespace StreamConfig

/-- The text of a pointer. The whole document is the empty text. -/
abbrev Pointer := String

namespace Pointer

/-- A key's character as a pointer writes it. -/
def escapedChar (c : Char) : List Char :=
  match c with
  | '~' => ['~', '0']
  | '/' => ['~', '1']
  | c => [c]

def escaped (token : String) : List Char := token.toList.flatMap escapedChar

/-- The place under a key or index. -/
def child (p : Pointer) (token : String) : Pointer :=
  String.ofList (p.toList ++ '/' :: escaped token)

/-- The place under an index. -/
def item (p : Pointer) (index : Nat) : Pointer := child p (toString index)

/-- What stands before the last slash. -/
def parent? (p : Pointer) : Option Pointer :=
  match p.toList.reverse.dropWhile (· != '/') with
  | [] => none
  | _ :: before => some (String.ofList before.reverse)

/-- No slash is left in a key as a pointer writes it. -/
theorem slash_not_mem_escaped (token : String) : '/' ∉ escaped token := by
  intro h
  obtain ⟨c, -, hc⟩ := List.mem_flatMap.1 h
  unfold escapedChar at hc
  split at hc
  · simp at hc
  · simp at hc
  · next hslash =>
    rw [List.mem_singleton] at hc
    exact hslash hc.symm

@[simp] theorem parent?_child (p : Pointer) (token : String) :
    parent? (child p token) = some p := by
  have hpass : ∀ c ∈ (escaped token).reverse, (c != '/') = true := by
    intro c hc
    rw [bne_iff_ne]
    rintro rfl
    exact slash_not_mem_escaped token (List.mem_reverse.1 hc)
  have htoken : (child p token).toList.reverse.dropWhile (· != '/') = '/' :: p.toList.reverse := by
    simp only [child, String.toList_ofList, List.reverse_append, List.reverse_cons,
      List.append_assoc, List.singleton_append]
    rw [List.dropWhile_append_of_pos hpass]
    rfl
  simp [parent?, htoken]

end Pointer

namespace Value

mutual
/-- The pointers of all keys and elements below a value, parents before children. -/
def pointers (p : Pointer) : Value → List Pointer
  | .array items => itemPointers p 0 items
  | .object m => entryPointers p m
  | _ => []

def itemPointers (p : Pointer) (index : Nat) : List Value → List Pointer
  | [] => []
  | v :: rest => p.item index :: (pointers (p.item index) v ++ itemPointers p (index + 1) rest)

def entryPointers (p : Pointer) : List (String × Value) → List Pointer
  | [] => []
  | (k, v) :: rest => p.child k :: (pointers (p.child k) v ++ entryPointers p rest)
end

end Value

end StreamConfig
