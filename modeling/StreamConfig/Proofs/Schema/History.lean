import Mathlib.Data.List.DropRight
import Mathlib.Data.List.Nodup
import StreamConfig.Proofs.Text.ByteOrder
import StreamConfig.Schema.Registry

/-! # Histories of a registry

What a registry knows after any number of operations can be read off their history:
* `Operation`, `performAll` — what can be done to a registry, and doing it
* `waiting` — the names that the history has queued since its last refresh
* `writes` — the components in the order in which they became known: a registered one at once, an
  announced one at the first refresh that follows, as the plugin `pluginOf` makes of its name
* `Records.perform` — one operation keeps a registry in step with its history, `records_performAll`
  any number of them
* `performAll_history` — so the last component written for a kind and a name is the one found, no
  name is lost or drained twice, and components are listed in the order of their names
-/

namespace StreamConfig.Registry

/-! ## Operations -/

/-- What can be done to a registry. -/
inductive Operation where
  | register (c : Component)
  | announce (name : String) (kind : Kind)
  | refresh

namespace Operation

def isRefresh : Operation → Bool
  | .refresh => true
  | _ => false

/-- The name that an operation queues. -/
def name? : Operation → Option (String × Kind)
  | .announce name kind => some (name, kind)
  | _ => none

/-- Does it; a refresh tells how many names it found in the queue. -/
def perform : Operation → RegistryM (Option Nat)
  | .register c => do
    modify fun r => r.register c
    return none
  | .announce name kind => do
    modify fun r => r.announce name kind
    return none
  | .refresh => do return some (← Registry.refresh)

end Operation

/-- Does one thing after the other; gives what the refreshes among them tell. -/
def performAll : List Operation → RegistryM (List Nat)
  | [] => return []
  | op :: rest => do
    let told ← op.perform
    return told.toList ++ (← performAll rest)

/-! ## Histories -/

section Histories
variable {α : Type}

/-- What operations come to, one after the other, each in the light of all that were before it. -/
def along (f : List Operation → Operation → List α) (earlier : List Operation) :
    List Operation → List α
  | [] => []
  | op :: rest => f earlier op ++ along f (earlier ++ [op]) rest

theorem along_snoc (f : List Operation → Operation → List α) (earlier ops : List Operation)
    (op : Operation) :
    along f earlier (ops ++ [op]) = along f earlier ops ++ f (earlier ++ ops) op := by
  induction ops generalizing earlier with
  | nil => simp [along]
  | cons op' ops ih => simp [along, ih]

end Histories

/-- The names that have been queued since the last refresh. -/
def waiting (ops : List Operation) : List (String × Kind) :=
  (ops.rtakeWhile fun op => !op.isRefresh).filterMap Operation.name?

/-- What a name becomes of which no more than the name is known: an experimental component of an
extension, whose configuration is an object without fields. -/
def pluginOf (n : String × Kind) : Component where
  name := n.1
  kind := n.2
  summary := ""
  status := .experimental
  isPlugin := true
  config := {
    name := ""
    description := ""
    type := .object
    arity := .scalar
    isAdvanced := false
    isDeprecated := false
    version := none
    children := []
    omission := none
    linter := none }

/-- The components that become known by an operation: a refresh makes components of the names that
wait. -/
def writesOf (earlier : List Operation) : Operation → List Component
  | .register c => [c]
  | .announce _ _ => []
  | .refresh => (waiting earlier).map pluginOf

/-- The last one of some components that has a kind and a name. -/
def lastOf (kind : Kind) (name : String) (cs : List Component) : Option Component :=
  (cs.filter fun c => c.kind = kind ∧ c.name = name).getLast?

/-- The components of a history in the order in which they became known. -/
def writes (ops : List Operation) : List Component := along writesOf [] ops

/-- For every refresh of a history, the names that had been queued since the one before. -/
def drains (ops : List Operation) : List (List (String × Kind)) :=
  along (fun earlier op => if op.isRefresh then [waiting earlier] else []) [] ops

theorem lastOf_append (kind : Kind) (name : String) (cs cs' : List Component) :
    lastOf kind name (cs ++ cs') = (lastOf kind name cs').or (lastOf kind name cs) := by
  rw [lastOf, List.filter_append, List.getLast?_append]
  rfl

theorem waiting_snoc (ops : List Operation) (op : Operation) :
    waiting (ops ++ [op]) = if op.isRefresh then [] else waiting ops ++ op.name?.toList := by
  unfold waiting
  rw [List.rtakeWhile_concat]
  cases op <;> simp [Operation.isRefresh, Operation.name?]

theorem writes_snoc (ops : List Operation) (op : Operation) :
    writes (ops ++ [op]) = writes ops ++ writesOf ops op := along_snoc writesOf [] ops op

theorem drains_snoc (ops : List Operation) (op : Operation) :
    drains (ops ++ [op]) = drains ops ++ if op.isRefresh then [waiting ops] else [] :=
  along_snoc _ [] ops op

/-- Every name that was ever queued was drained by one refresh or is still waiting. -/
theorem flatten_drains_append_waiting (ops : List Operation) :
    (drains ops).flatten ++ waiting ops = ops.filterMap Operation.name? := by
  induction ops using List.reverseRecOn with
  | nil => rfl
  | append_singleton ops op ih =>
    rw [drains_snoc, waiting_snoc, List.filterMap_append, ← ih]
    cases op <;> simp [Operation.isRefresh, Operation.name?]

/-! ## A registry and its history -/

/-- No two components have one kind and one name. -/
def IsDistinct (r : Registry) : Prop := (r.known.map fun c => (c.kind, c.name)).Nodup

theorem IsDistinct.register {r : Registry} (h : r.IsDistinct) (c : Component) :
    (r.register c).IsDistinct := by
  unfold IsDistinct Registry.register
  rw [List.map_cons, List.nodup_cons]
  refine ⟨fun hmem => ?_, h.sublist (List.filter_sublist.map _)⟩
  obtain ⟨d, hd, heq⟩ := List.mem_map.1 hmem
  have hother := (List.mem_filter.1 hd).2
  simp only [Prod.mk.injEq] at heq
  rw [answers_iff.2 heq] at hother
  cases hother

/-- Of components registered in a row the last one is found. -/
theorem get?_foldl_register (cs : List Component) (r : Registry) (kind : Kind) (name : String) :
    (cs.foldl Registry.register r).get? kind name =
      (lastOf kind name cs).or (r.get? kind name) := by
  induction cs using List.reverseRecOn with
  | nil => rfl
  | append_singleton cs c ih =>
    rw [List.foldl_append, List.foldl_cons, List.foldl_nil, get?_register, ih, lastOf_append]
    by_cases hc : c.kind = kind ∧ c.name = name <;> simp [lastOf, hc]

theorem refreshed_eq (r : Registry) :
    r.refreshed = (r.queue.map pluginOf).foldl Registry.register { r with queue := [] } := by
  rw [List.foldl_map]
  rfl

/-- Where no two components have one kind and one name, each is found under its own. -/
theorem IsDistinct.get?_of_mem {r : Registry} (h : r.IsDistinct) {c : Component}
    (hc : c ∈ r.known) : r.get? c.kind c.name = some c := by
  obtain ⟨known, queue⟩ := r
  unfold IsDistinct at h
  unfold get?
  dsimp only at h hc ⊢
  induction known with
  | nil => cases hc
  | cons d rest ih =>
    rw [List.map_cons, List.nodup_cons] at h
    rcases List.mem_cons.1 hc with rfl | hc
    · exact List.find?_cons_of_pos (answers_iff.2 ⟨rfl, rfl⟩)
    · have hd : ¬ answers c.kind c.name d = true := by
        intro hd
        obtain ⟨hkind, hname⟩ := answers_iff.1 hd
        exact h.1 (List.mem_map.2 ⟨c, hc, by rw [hkind, hname]⟩)
      rw [List.find?_cons_of_neg hd]
      exact ih h.2 hc

/-- The components of a kind are those that can be found under it. -/
theorem IsDistinct.mem_components_iff {r : Registry} (h : r.IsDistinct) {kind : Kind}
    {c : Component} :
    c ∈ r.components kind ↔ r.get? kind c.name = some c := by
  unfold components
  rw [Text.mem_sortBy, List.mem_filter, beq_iff_eq]
  constructor
  · rintro ⟨hc, rfl⟩
    exact h.get?_of_mem hc
  · intro hfound
    exact ⟨List.mem_of_find?_eq_some hfound, (answers_of_get? hfound).1⟩

/-- Names of one kind are listed in the strict order of their bytes, so each of them once. -/
theorem IsDistinct.pairwise_components {r : Registry} (h : r.IsDistinct) (kind : Kind) :
    ((r.components kind).map fun c => Text.bytes c.name).Pairwise (· < ·) := by
  apply Text.pairwise_sortBy_text Component.name
  have hpairs : ((r.known.filter fun c => c.kind == kind).map fun c => (c.kind, c.name)).Nodup :=
    h.sublist (List.filter_sublist.map _)
  -- in one kind different pairs have different names
  have hsame : ((r.known.filter fun c => c.kind == kind).map fun c => (c.kind, c.name)) =
      ((r.known.filter fun c => c.kind == kind).map (·.name)).map (Prod.mk kind) := by
    rw [List.map_map]
    refine List.map_congr_left fun c hc => ?_
    exact Prod.ext (beq_iff_eq.1 (List.mem_filter.1 hc).2) rfl
  rw [hsame] at hpairs
  exact List.Nodup.of_map _ hpairs

/-- A registry is in step with its history, and so is what the refreshes told. -/
structure Records (ops : List Operation) (told : List Nat) (r : Registry) : Prop where
  queue : r.queue = waiting ops
  found : ∀ kind name, r.get? kind name = lastOf kind name (writes ops)
  isDistinct : r.IsDistinct
  told : told = (drains ops).map List.length

theorem records_empty : Records [] [] empty :=
  ⟨rfl, fun _ _ => rfl, List.nodup_nil, rfl⟩

theorem Records.perform {ops : List Operation} {told : List Nat} {r : Registry}
    (h : Records ops told r) (op : Operation) :
    Records (ops ++ [op]) (told ++ (op.perform.run r).1.toList) (op.perform.run r).2 := by
  cases op with
  | register c =>
    refine ⟨?_, fun kind name => ?_, h.isDistinct.register c, ?_⟩
    · rw [waiting_snoc]
      exact h.queue.trans (List.append_nil _).symm
    · rw [writes_snoc, lastOf_append, ← h.found]
      exact get?_foldl_register [c] r kind name
    · rw [drains_snoc]
      exact (List.append_nil _).trans (h.told.trans (by simp [Operation.isRefresh]))
  | announce name kind =>
    refine ⟨?_, fun kind' name' => ?_, h.isDistinct, ?_⟩
    · rw [waiting_snoc]
      exact congrArg (· ++ [(name, kind)]) h.queue
    · rw [writes_snoc, writesOf, List.append_nil, ← h.found]
      exact get?_announce r name kind kind' name'
    · rw [drains_snoc]
      exact (List.append_nil _).trans (h.told.trans (by simp [Operation.isRefresh]))
  | refresh =>
    have hstate : (Operation.refresh.perform.run r).2 = r.refreshed := rfl
    rw [hstate]
    -- what waits is registered in its order, on top of all that was known
    refine ⟨?_, fun kind name => ?_, ?_, ?_⟩
    · rw [waiting_snoc]
      exact queue_refreshed r
    · rw [writes_snoc, lastOf_append, ← h.found, refreshed_eq, get?_foldl_register, h.queue]
      rfl
    · exact refreshed_induction r h.isDistinct fun s hs n _ => hs.register _
    · rw [drains_snoc, List.map_append, ← h.told, ← h.queue]
      rfl

theorem performAll_snoc (ops : List Operation) (op : Operation) (r : Registry) :
    (performAll (ops ++ [op])).run r =
      (((performAll ops).run r).1 ++ (op.perform.run ((performAll ops).run r).2).1.toList,
        (op.perform.run ((performAll ops).run r).2).2) := by
  induction ops generalizing r with
  | nil =>
    exact Prod.ext (List.append_nil _) rfl
  | cons op' ops ih =>
    have hcons : ∀ rest, (performAll (op' :: rest)).run r =
        ((op'.perform.run r).1.toList ++ ((performAll rest).run (op'.perform.run r).2).1,
          ((performAll rest).run (op'.perform.run r).2).2) := fun _ => rfl
    rw [List.cons_append, hcons, hcons, ih, List.append_assoc]

/-- By induction on the history: every operation keeps the registry in step. -/
theorem records_performAll (ops : List Operation) :
    Records ops ((performAll ops).run empty).1 ((performAll ops).run empty).2 := by
  induction ops using List.reverseRecOn with
  | nil => exact records_empty
  | append_singleton ops op ih =>
    rw [performAll_snoc]
    exact ih.perform op

/-- After any operations on a new registry: what is found under a kind and a name is the last
component written for them, and has that kind and that name; every refresh has told how many names
had been queued since the one before it, and the names drained and those that wait are the names
queued, in their order; and the components of a kind are all that can be found under it, listed
in the strict order of the bytes of their names. -/
theorem performAll_history (ops : List Operation) :
    let (told, r) := (performAll ops).run empty
    (∀ kind name, r.get? kind name = lastOf kind name (writes ops)) ∧
      (∀ kind name c, r.get? kind name = some c → c.name = name ∧ c.kind = kind) ∧
      (told = (drains ops).map List.length ∧ r.queue = waiting ops ∧
        (drains ops).flatten ++ waiting ops = ops.filterMap Operation.name?) ∧
      ∀ kind, (∀ c, c ∈ r.components kind ↔ r.get? kind c.name = some c) ∧
        ((r.components kind).map fun c => Text.bytes c.name).Pairwise (· < ·) := by
  have h := records_performAll ops
  refine ⟨h.found, fun kind name c hc => ?_, ⟨h.told, h.queue, ?_⟩, fun kind => ⟨fun c => ?_, ?_⟩⟩
  · exact (answers_of_get? hc).symm
  · exact flatten_drains_append_waiting ops
  · exact h.isDistinct.mem_components_iff
  · exact h.isDistinct.pairwise_components kind

/-- A name is queued twice and its component registered in between. A refresh puts the plugin in the
place of the component, and the component registered again takes it back. -/
theorem performAll_history_overwritten :
    let own := Component.plain "a" .input
    let ops : List Operation := [.announce "a" .input, .register own, .announce "b" .cache,
      .announce "a" .input, .refresh]
    let (told, r) := (performAll ops).run empty
    let later := ((performAll (ops ++ [.register own, .refresh])).run empty).2
    (r.get? .input "a" = some (pluginOf ("a", .input)) ∧
        r.get? .cache "b" = some (pluginOf ("b", .cache)) ∧ r.get? .cache "a" = none) ∧
      told = [3] ∧ later.get? .input "a" = some own ∧ own.status = .stable := by
  intro own ops
  obtain ⟨hfound, -, ⟨htold, -⟩, -⟩ := performAll_history ops
  obtain ⟨hlater, -⟩ := performAll_history (ops ++ [.register own, .refresh])
  exact ⟨⟨hfound _ _, hfound _ _, hfound _ _⟩, htold, hlater _ _, rfl⟩

end StreamConfig.Registry
