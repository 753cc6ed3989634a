import Mathlib.Data.List.Chain
import StreamConfig.Proofs.Nesting.Inside
import StreamConfig.Proofs.Schema.Fields

/-! # Calls within calls

A walk treats a component block by calls that treat what its fields hold, and a field by calls that
treat the component blocks that it holds or what the fields below it hold. All that a walk has done
is then a tree of calls.

* `Call` — a call with the calls made on its way
* `Callee.MayCall`, `Call.GoesDown` — the local rule: a call for a field goes inside the value, and
  a call for a block that a field holds does not leave the value; from field to field the way is
  down the tree of fields
* `IsNested` — calls that are made one within the other
* `Call.IsBounded` — what follows for these: there are no more of them for blocks than the value is
  deep and one, each works inside the value of the one before, and between two of them the fields
  are on a way down one tree
* `Call.GoesDown.isBounded` — that it does follow
-/

namespace StreamConfig

/-- What is treated: a component block, or what a field holds. -/
inductive Callee where
  | block (kind : Kind)
  | field (f : Field)

/-- A call: what it treats, the value as the call finds it, and the calls made on its way, the
earliest first. -/
structure Call where
  callee : Callee
  value : Value
  within : List Call

/-- Which calls a call may make itself, and on which values. -/
inductive Callee.MayCall (r : Registry) : Callee → Value → Callee → Value → Prop
  | own {kind : Kind} {name : String} {c : Component} {v w : Value} (hc : r.get? kind name = some c)
      (h : v.Encloses w) : MayCall r (.block kind) v (.field c.config) w
  | reserved {kind : Kind} {f : Field} {v w : Value} (hf : f ∈ kind.reservedFields)
      (h : v.Encloses w) : MayCall r (.block kind) v (.field f) w
  | child {f g : Field} {v w : Value} (hg : g ∈ f.children) (h : v.Encloses w) :
      MayCall r (.field f) v (.field g) w
  | held {f : Field} {kind : Kind} {v w : Value} (hkind : f.type.kind? = some kind)
      (h : v.Covers w) : MayCall r (.field f) v (.block kind) w

/-- A field is met inside, whether in a block or in another field. -/
theorem Callee.MayCall.encloses {r : Registry} {callee : Callee} {f : Field} {v w : Value}
    (h : callee.MayCall r v (.field f) w) : v.Encloses w := by
  cases h with
  | own _ h | reserved _ h | child _ h => exact h

/-- A block may be met without having gone further inside. -/
theorem Callee.MayCall.covers {r : Registry} {callee : Callee} {kind : Kind} {v w : Value}
    (h : callee.MayCall r v (.block kind) w) : v.Covers w := by
  cases h with
  | held _ h => exact h

/-- The calls are made one within the other. -/
def IsNested (calls : List Call) : Prop := calls.IsChain fun c d => d ∈ c.within

namespace Call

def isBlock (c : Call) : Bool :=
  match c.callee with
  | .block _ => true
  | .field _ => false

def field? (c : Call) : Option Field :=
  match c.callee with
  | .block _ => none
  | .field f => some f

/-- All calls on the way are made as they may be. -/
inductive GoesDown (r : Registry) : Call → Prop
  | mk {callee : Callee} {v : Value} {within : List Call}
      (hmay : ∀ d ∈ within, callee.MayCall r v d.callee d.value)
      (hwithin : ∀ d ∈ within, GoesDown r d) : GoesDown r ⟨callee, v, within⟩

/-- How far calls go that are made one within the other, from this one on. -/
structure IsBounded (c : Call) : Prop where
  /-- no more of them are for blocks than the value is deep, and one -/
  blocks : ∀ {rest}, IsNested (c :: rest) →
    ((c :: rest).filter isBlock).length ≤ 1 + c.value.depth
  /-- of two blocks, the later one is met inside the earlier one -/
  inward : ∀ {rest}, IsNested (c :: rest) →
    ((c :: rest).filter isBlock).Pairwise fun d e => d.value.Encloses e.value
  /-- fields without a block between them are on a way down one tree of fields -/
  fields : ∀ {rest} {f : Field} {fs : List Field}, IsNested (c :: rest) →
    (f :: fs).map some <:+: (c :: rest).map field? →
    (f :: fs).IsChain (fun g h => h ∈ g.children) ∧ (f :: fs).length ≤ f.family.length

/-! ## One call after the other -/

section Chain

variable {r : Registry} {c d : Call} {rest : List Call}

theorem GoesDown.may (h : c.GoesDown r) (hd : d ∈ c.within) :
    c.callee.MayCall r c.value d.callee d.value ∧ d.GoesDown r := by
  cases h with
  | mk hmay hwithin => exact ⟨hmay d hd, hwithin d hd⟩

theorem isBlock_of_callee {kind : Kind} (h : c.callee = .block kind) : c.isBlock = true := by
  rw [isBlock, h]

/-- From a block the way goes inside; from a field it may stay with the value. -/
theorem GoesDown.covers (h : c.GoesDown r) (hd : d ∈ c.within) :
    c.value.Covers d.value ∧ (c.isBlock = true → c.value.Encloses d.value) := by
  obtain ⟨hmay, -⟩ := h.may hd
  unfold isBlock
  generalize c.callee = callee, d.callee = callee' at hmay
  cases hmay with
  | own _ h | reserved _ h | child _ h => exact ⟨h.covers, fun _ => h⟩
  | held _ h => exact ⟨h, nofun⟩

/-- The same from one call to all that are nested in it. -/
theorem GoesDown.covers_all (h : c.GoesDown r) (hrest : IsNested (c :: rest)) :
    ∀ e ∈ rest, c.value.Covers e.value ∧ (c.isBlock = true → c.value.Encloses e.value) := by
  induction rest generalizing c with
  | nil => exact fun _ he => nomatch he
  | cons d rest ih =>
    obtain ⟨hd, hrest⟩ := List.isChain_cons_cons.1 hrest
    obtain ⟨hcovers, hencloses⟩ := h.covers hd
    intro e he
    rcases List.mem_cons.1 he with rfl | he
    · exact ⟨hcovers, hencloses⟩
    · obtain ⟨hlater, -⟩ := ih (h.may hd).2 hrest e he
      exact ⟨hcovers.trans hlater, fun hblock => (hencloses hblock).trans_covers hlater⟩

theorem GoesDown.inward (h : c.GoesDown r) (hrest : IsNested (c :: rest)) :
    ((c :: rest).filter isBlock).Pairwise fun d e => d.value.Encloses e.value := by
  rw [List.pairwise_filter]
  induction rest generalizing c with
  | nil => exact List.pairwise_singleton _ _
  | cons d rest ih =>
    have hcovers := h.covers_all hrest
    obtain ⟨hd, hrest⟩ := List.isChain_cons_cons.1 hrest
    refine List.pairwise_cons.2 ⟨fun e he hblock _ => ?_, ih (h.may hd).2 hrest⟩
    exact (hcovers e he).2 hblock

/-- Each block that is met is less deep than the one before. -/
theorem GoesDown.blocks (h : c.GoesDown r) (hrest : IsNested (c :: rest)) :
    ((c :: rest).filter isBlock).length ≤ 1 + c.value.depth := by
  induction rest generalizing c with
  | nil => exact (List.length_filter_le _ _).trans (by simp)
  | cons d rest ih =>
    obtain ⟨hd, hrest⟩ := List.isChain_cons_cons.1 hrest
    obtain ⟨hcovers, hencloses⟩ := h.covers hd
    have hlater := ih (h.may hd).2 hrest
    cases hblock : c.isBlock with
    | true =>
      have hdepth := (hencloses hblock).depth_lt
      rw [List.filter_cons_of_pos hblock, List.length_cons]
      omega
    | false =>
      have hdepth := hcovers.depth_le
      rw [List.filter_cons_of_neg (by simp [hblock])]
      omega

/-- From field to field the way is down the tree. -/
theorem GoesDown.children (h : c.GoesDown r) (hrest : IsNested (c :: rest)) :
    ((c :: rest).map field?).IsChain
      fun x y => ∀ f g, x = some f → y = some g → g ∈ f.children := by
  induction rest generalizing c with
  | nil => exact .singleton _
  | cons d rest ih =>
    obtain ⟨hd, hrest⟩ := List.isChain_cons_cons.1 hrest
    obtain ⟨hmay, hdown⟩ := h.may hd
    refine .cons_cons (fun f g hf hg => ?_) (ih hdown hrest)
    unfold field? at hf hg
    generalize c.callee = callee, d.callee = callee' at hmay hf hg
    cases hmay with
    | own | reserved => cases hf
    | child hchild =>
      cases hf
      cases hg
      exact hchild
    | held => cases hg

end Chain

end Call

/-! ## Ways down a tree of fields -/

theorem Field.length_family_le_families {g : Field} {fields : List Field} (h : g ∈ fields) :
    g.family.length ≤ (families fields).length := by
  induction fields with
  | nil => cases h
  | cons f rest ih =>
    rw [families, List.length_append]
    rcases List.mem_cons.1 h with rfl | h
    · omega
    · have := ih h
      omega

theorem Field.length_family_lt {f g : Field} (h : g ∈ f.children) :
    g.family.length < f.family.length := by
  obtain ⟨_, _, _, _, _, _, _, children, _, _⟩ := f
  rw [family, List.length_cons]
  exact Nat.lt_succ_of_le (length_family_le_families h)

/-- A way down a tree of fields is no longer than the tree has fields. -/
theorem Field.length_le_of_isChain {f : Field} {fs : List Field}
    (h : (f :: fs).IsChain fun g h => h ∈ g.children) : (f :: fs).length ≤ f.family.length := by
  induction fs generalizing f with
  | nil => exact List.length_pos_of_mem f.mem_family_self
  | cons g rest ih =>
    obtain ⟨hg, hrest⟩ := List.isChain_cons_cons.1 h
    have hlater := ih hrest
    have hless := length_family_lt hg
    rw [List.length_cons]
    omega

theorem Call.GoesDown.isBounded {r : Registry} {c : Call} (h : c.GoesDown r) : c.IsBounded where
  blocks hrest := h.blocks hrest
  inward hrest := h.inward hrest
  fields hrest hfields := by
    obtain ⟨before, after, hcut⟩ := hfields
    have hway := h.children hrest
    rw [← hcut] at hway
    have hpart := hway.left_of_append.right_of_append
    rw [List.isChain_map] at hpart
    have hchain := hpart.imp fun f g hchild => hchild f g rfl rfl
    exact ⟨hchain, Field.length_le_of_isChain hchain⟩

end StreamConfig
