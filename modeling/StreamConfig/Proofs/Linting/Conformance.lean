import StreamConfig.Document.Lint
import StreamConfig.Proofs.Linting.Labels

/-! # Conforming documents

What it means for a document to be in order, told by rules over the value and the schema together
and without a word on how a linter walks:
* `IsSection` — the sections by name
* `DemandMet` — a single value is a block of a kind, or an object with known fields
* `FieldConforms` — what a field holds, by its own linter and by what it demands of its parts
* `SectionConforms` — what stands under a section
* `DocumentConforms` — the whole document

Every judgement lists the labels that stand in what it judges, in document order. That the labels
are in order is said once, of the whole list, and not where each of them stands.

Which names sections have, what an empty block stands for and which numbers of threads there are is
written out here, so that the linter has to agree with it.
-/

namespace StreamConfig

/-- What stands under a name at the root of a document: one component, a list of components that are
shared, or the pipeline. -/
inductive IsSection : String → Section → Prop
  | component {kind} : kind ∈ [.input, .buffer, .output, .metrics, .tracer] →
      IsSection kind.name (.component kind)
  | components {kind} : kind ∈ [.input, .processor, .output, .cache, .rateLimit] →
      IsSection (kind.name ++ "_resources") (.components kind)
  | pipeline : IsSection "pipeline" .pipeline

/-- What every single value of a field has to be. -/
inductive Demand where
  /-- a block of a kind -/
  | block (kind : Kind)
  /-- an object with these fields and no others -/
  | object (fields : List Field)

/-- What every single value of a field has to be, if the field says. -/
def Field.demand? (f : Field) : Option Demand :=
  match f.type.kind? with
  | some kind => some (.block kind)
  | none => if f.children.isEmpty then none else some (.object f.children)

/-- A linter that makes findings of its own makes none at this place. -/
def Field.IsQuiet (ps : Positions) (f : Field) (p : Pointer) (v : Value) : Prop :=
  ∀ run, f.linter = some (.report run) → run (ps.nearest p) v = []

/-- The label that a field with the label linter brings up. -/
def Field.ownLabels (f : Field) (v : Value) : List String :=
  match f.linter with
  | some .label => v.label?.toList
  | _ => []

/-- What the entries of an object have to satisfy. -/
inductive EntryRule where
  /-- every entry is a section -/
  | root
  /-- processors and a number of threads -/
  | pipeline
  /-- the component's own entry, or reserved fields that stay -/
  | block (kind : Kind) (c : Component) (parent : Entries)
  /-- every entry is one of these fields -/
  | known (fields : List Field)
  /-- every entry meets the demand, under whatever name -/
  | parts (demand : Demand)

section

variable (r : Registry) (ps : Positions)

mutual

/-- A single value is what is demanded. A block is judged by the component that it resolves to; a
buffer, metrics or a tracer that does not say which one it is stands for `none`. -/
inductive DemandMet : Demand → Pointer → Value → List String → Prop
  | block {kind p es c labels} :
      r.resolve kind (if kind ∈ [.buffer, .metrics, .tracer] then "none" else "") (.object es) =
        .ok c →
      EntriesConform (.block kind c es) p es labels → DemandMet (.block kind) p (.object es) labels
  | object {fields p es labels} : EntriesConform (.known fields) p es labels →
      DemandMet (.object fields) p (.object es) labels

/-- Every item from the one with this index on is what is demanded. -/
inductive ItemsConform : Demand → Pointer → Nat → List Value → List String → Prop
  | nil {demand p index} : ItemsConform demand p index [] []
  | cons {demand p index v rest here there} : DemandMet demand (p.item index) v here →
      ItemsConform demand p (index + 1) rest there →
      ItemsConform demand p index (v :: rest) (here ++ there)

/-- Every entry of an object follows the rule. -/
inductive EntriesConform : EntryRule → Pointer → Entries → List String → Prop
  | nil {rule p} : EntriesConform rule p [] []
  | cons {rule p k v rest here there} : EntryConforms rule k (p.child k) v here →
      EntriesConform rule p rest there → EntriesConform rule p ((k, v) :: rest) (here ++ there)

/-- One entry follows the rule. The component's own name comes before the reserved fields, and a
reserved field stays only if nothing says that it should be left out. Threads are counted by an
exact integer of 64 bits. -/
inductive EntryConforms : EntryRule → String → Pointer → Value → List String → Prop
  | section {k p v labels s} : IsSection k s → SectionConforms s p v labels →
      EntryConforms .root k p v labels
  | processors {k p v labels} : k = "processors" →
      SectionConforms (.components .processor) p v labels → EntryConforms .pipeline k p v labels
  | threads {k p n} : k = "threads" → -9223372036854775808 ≤ n → n ≤ 9223372036854775807 →
      EntryConforms .pipeline k p (.number (.int n)) []
  | own {kind c parent p v labels} : FieldConforms c.config p v labels →
      EntryConforms (.block kind c parent) c.name p v labels
  | reserved {kind c parent k p v labels f} : k ≠ c.name → kind.reserved? k = some f →
      f.omissionReason? v parent = none → FieldConforms f p v labels →
      EntryConforms (.block kind c parent) k p v labels
  | known {fields k p v labels f} : fields.find? (fun f => f.name == k) = some f →
      FieldConforms f p v labels → EntryConforms (.known fields) k p v labels
  | part {demand k p v labels} : DemandMet demand p v labels →
      EntryConforms (.parts demand) k p v labels

/-- What a field holds is in order. Its own label stands before those of its parts. -/
inductive FieldConforms : Field → Pointer → Value → List String → Prop
  | free {f p v} : f.IsQuiet ps p v → f.demand? = none → FieldConforms f p v (f.ownLabels v)
  | bound {f p v demand labels} : f.IsQuiet ps p v → f.demand? = some demand →
      PartsConform f.arity demand p v labels → FieldConforms f p v (f.ownLabels v ++ labels)

/-- The value has the shape that the arity asks for, and every part is what is demanded. -/
inductive PartsConform : Arity → Demand → Pointer → Value → List String → Prop
  | scalar {demand p v labels} : DemandMet demand p v labels →
      PartsConform .scalar demand p v labels
  | array {demand p items labels} : ItemsConform demand p 0 items labels →
      PartsConform .array demand p (.array items) labels
  | map {demand p es labels} : EntriesConform (.parts demand) p es labels →
      PartsConform .map demand p (.object es) labels

/-- What stands under a section is in order. -/
inductive SectionConforms : Section → Pointer → Value → List String → Prop
  | component {kind p v labels} : DemandMet (.block kind) p v labels →
      SectionConforms (.component kind) p v labels
  | components {kind p items labels} : ItemsConform (.block kind) p 0 items labels →
      SectionConforms (.components kind) p (.array items) labels
  | pipeline {p es labels} : EntriesConform .pipeline p es labels →
      SectionConforms .pipeline p (.object es) labels
end

/-- The document is an object of sections that are in order. -/
inductive DocumentConforms : Value → List String → Prop
  | sections {es labels} : EntriesConform r ps .root "" es labels →
      DocumentConforms (.object es) labels

end

end StreamConfig
