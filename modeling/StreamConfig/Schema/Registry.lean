import StreamConfig.Schema.Component
import StreamConfig.Text.Sorted

/-! # The registry

A registry knows components by kind and name, at most one for each pair. Extensions announce names
ahead of time: an announced name waits in a queue and becomes a component at the next refresh.

* `Registry.register` — a component takes the place of one with its kind and name;
* `Registry.announce` — queues a name;
* `Registry.refresh` — turns the queue into components, first come first;
* `Registry.get?`, `Registry.components` — what is known now.

`get?_register` says that the last component registered for a kind and a name is the one found,
`refreshed_induction` that a refresh is no more than registering what the queue announces.
-/

namespace StreamConfig

/-- Components by kind and name, and the names that wait to become components. -/
structure Registry where
  /-- the components, the latest first -/
  known : List Component
  /-- names announced since the last refresh, the earliest first -/
  queue : List (String × Kind)

/-- Computations that look components up; doing so may refresh the registry. -/
abbrev RegistryM := StateM Registry

namespace Registry

def empty : Registry := ⟨[], []⟩

/-- Whether a component answers to a kind and a name. -/
def answers (kind : Kind) (name : String) (c : Component) : Bool := c.kind == kind && c.name == name

/-- The component of a kind and a name. -/
def get? (r : Registry) (kind : Kind) (name : String) : Option Component :=
  r.known.find? (answers kind name)

/-- Adds a component in place of any other of its kind and name. -/
def register (r : Registry) (c : Component) : Registry :=
  { r with known := c :: r.known.filter fun d => !answers c.kind c.name d }

/-- Queues a name. -/
def announce (r : Registry) (name : String) (kind : Kind) : Registry :=
  { r with queue := r.queue ++ [(name, kind)] }

/-- Registers what the queue announces, in order, and empties it. -/
def refreshed (r : Registry) : Registry :=
  r.queue.foldl (fun r n => r.register (Component.announced n.1 n.2)) { r with queue := [] }

/-- Refreshes and tells how many names were queued. -/
def refresh : RegistryM Nat := do
  let r ← get
  set r.refreshed
  return r.queue.length

/-- The components of a kind by name. -/
def components (r : Registry) (kind : Kind) : List Component :=
  Text.sortBy (fun a b => decide (a.name < b.name)) (r.known.filter fun c => c.kind == kind)

/-- A registry of the given components; of two with one kind and name the later one stays. -/
def ofList (cs : List Component) : Registry := cs.foldl register empty

/-! ## What is found -/

theorem answers_iff {kind : Kind} {name : String} {c : Component} :
    answers kind name c = true ↔ c.kind = kind ∧ c.name = name := by
  simp [answers]

/-- A component is found under its own kind and name only. -/
theorem answers_of_get? {r : Registry} {kind : Kind} {name : String} {c : Component}
    (h : r.get? kind name = some c) : c.kind = kind ∧ c.name = name :=
  answers_iff.1 (List.find?_some h)

@[simp] theorem get?_empty (kind : Kind) (name : String) : empty.get? kind name = none := rfl

@[simp] theorem get?_announce (r : Registry) (n : String) (k kind : Kind) (name : String) :
    (r.announce n k).get? kind name = r.get? kind name := rfl

theorem get?_register (r : Registry) (c : Component) (kind : Kind) (name : String) :
    (r.register c).get? kind name =
      if c.kind = kind ∧ c.name = name then some c else r.get? kind name := by
  simp only [get?, register, List.find?_cons]
  by_cases h : c.kind = kind ∧ c.name = name
  · rw [answers_iff.2 h, if_pos h]
  · have hc : answers kind name c = false := by
      rw [← Bool.not_eq_true, answers_iff]
      exact h
    simp only [hc, if_neg h, List.find?_filter]
    congr 1
    funext d
    by_cases hd : answers kind name d = true
    · have hn : ¬ answers c.kind c.name d = true := fun ha => by
        rw [answers_iff] at ha hd
        exact h ⟨ha.1.symm.trans hd.1, ha.2.symm.trans hd.2⟩
      simp [hd, hn]
    · simp [hd]

/-! ## Refreshing -/

/-- What holds with the queue emptied, and goes on holding as queued names are registered, holds
after a refresh. -/
theorem refreshed_induction {P : Registry → Prop} (r : Registry) (hstart : P { r with queue := [] })
    (hstep : ∀ s, P s → ∀ n ∈ r.queue, P (s.register (Component.announced n.1 n.2))) :
    P r.refreshed :=
  List.foldlRecOn r.queue _ hstart hstep

/-- A refresh empties the queue. -/
@[simp] theorem queue_refreshed (r : Registry) : r.refreshed.queue = [] :=
  refreshed_induction (P := fun s => s.queue = []) r rfl fun _ hs _ _ => hs

/-- A second refresh finds nothing to do. -/
@[simp] theorem refreshed_refreshed (r : Registry) : r.refreshed.refreshed = r.refreshed := by
  generalize h : r.refreshed = s
  have hs : s.queue = [] := h ▸ queue_refreshed r
  obtain ⟨known, queue⟩ := s
  cases hs
  rfl

end Registry

end StreamConfig
