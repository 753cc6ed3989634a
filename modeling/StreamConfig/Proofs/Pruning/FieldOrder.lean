import Mathlib.Data.List.Induction
import Mathlib.Tactic.TFAE
import StreamConfig.Proofs.Pruning.Remains
import StreamConfig.Proofs.Pruning.Survivors

/-! # The order of fields

An object with known fields gives one field its turn after another, and every rule of omission looks
at what the turns before have left. So the order of the fields can show in what remains.
* `prunedAtOnce` — what fields leave if each of them judges the object as it was given
* `foldl_eq_prunedAtOnce` — turn after turn leaves the same, as long as no field judges what the
  fields before it have left in another way than the object
* `pruneFields_order_tfae` — exactly then the order does not show
* `order_shows` — it does where a field is of no use beside another one which goes as well
-/

namespace StreamConfig

section Turns

variable (policy : Policy) (inner : Field → Value → Value)

/-- What is left of an object if all fields judge it as it was given, so that none sees what another
one has done. -/
def prunedAtOnce (fields : List Field) (es : Entries) : Entries :=
  (es.filter fun e => fields.all fun f => e.1 != f.name || !policy.drops es f).map
    (knownEntry inner fields)

variable {policy inner}

theorem prunedAtOnce_nil (es : Entries) : prunedAtOnce policy inner [] es = es := by
  show (es.filter fun _ => true).map id = es
  rw [List.filter_true, List.map_id]

/-- A field that comes last and judges as it would have judged at first. -/
theorem pruneEntry_prunedAtOnce {before : List Field} {f : Field}
    (hname : f.name ∉ before.map (·.name)) {es : Entries}
    (hsame : policy.drops (prunedAtOnce policy inner before es) f = policy.drops es f) :
    pruneEntry policy inner (prunedAtOnce policy inner before es) f =
      prunedAtOnce policy inner (before ++ [f]) es := by
  -- no field before has the name, so its value is still the one given
  have hnone : before.find? (fun g => g.name == f.name) = none := by
    rw [List.find?_eq_none]
    intro g hg hgf
    exact hname (List.mem_map.2 ⟨g, hg, beq_iff_eq.1 hgf⟩)
  have hentry : (fun e : String × Value => if e.1 = f.name then (e.1, inner f e.2) else e) ∘
      knownEntry inner before = knownEntry inner (before ++ [f]) := by
    funext e
    by_cases he : e.1 = f.name
    · simp [knownEntry, he, hnone]
    · simp [knownEntry, List.find?_append, he, Ne.symm he]
  rw [pruneEntry_eq, hsame]
  unfold prunedAtOnce
  rw [List.filter_map, List.map_map, List.filter_filter, hentry]
  refine congrArg _ (List.filter_congr fun e _ => ?_)
  simp [knownEntry_fst, List.all_append, Bool.and_comm]

/-- Turn after turn, by induction on the last one. -/
theorem foldl_eq_prunedAtOnce {order : List Field} (hnames : (order.map (·.name)).Nodup)
    {es : Entries}
    (hsame : ∀ before f after, order = before ++ f :: after →
      before.foldl (pruneEntry policy inner) es = prunedAtOnce policy inner before es →
      policy.drops (prunedAtOnce policy inner before es) f = policy.drops es f) :
    order.foldl (pruneEntry policy inner) es = prunedAtOnce policy inner order es := by
  induction order using List.reverseRecOn with
  | nil => exact (prunedAtOnce_nil es).symm
  | append_singleton before f ih =>
    rw [List.map_append, List.nodup_append] at hnames
    obtain ⟨hbefore, -, hname⟩ := hnames
    have hleft := ih hbefore fun first g rest hsplit =>
      hsame first g (rest ++ [f]) (by simp [hsplit])
    rw [List.foldl_append, hleft]
    refine pruneEntry_prunedAtOnce (fun hmem => ?_) (hsame before f [] rfl hleft)
    exact hname _ hmem _ (List.mem_singleton_self _) rfl

/-- Where no two fields share a name, their order means nothing to what they leave at once. -/
theorem prunedAtOnce_of_perm {fields order : List Field} (hnames : (fields.map (·.name)).Nodup)
    (hperm : order.Perm fields) (es : Entries) :
    prunedAtOnce policy inner order es = prunedAtOnce policy inner fields es := by
  have hfind : ∀ k : String,
      order.find? (fun f => f.name == k) = fields.find? (fun f => f.name == k) := by
    intro k
    cases hfields : fields.find? (fun f => f.name == k) with
    | none =>
      rw [List.find?_eq_none] at hfields ⊢
      exact fun f hf => hfields f (hperm.mem_iff.1 hf)
    | some f =>
      have hname : f.name = k := by simpa using List.find?_some hfields
      subst hname
      have horder : (order.map (·.name)).Nodup := (hperm.map _).nodup_iff.2 hnames
      exact Field.find?_name_of_mem horder (hperm.mem_iff.2 (List.mem_of_find?_eq_some hfields))
  unfold prunedAtOnce knownEntry
  simp only [hfind, hperm.all_eq]

/-! ## One field among the others -/

theorem get?_pruneEntry (es : Entries) (f : Field) (k : String) :
    (pruneEntry policy inner es f).get? k =
      if k = f.name then if policy.drops es f then none else (es.get? k).map (inner f)
      else es.get? k := by
  rw [pruneEntry_eq_ite]
  split
  · rw [Entries.get?_erase]
  · rw [Entries.get?_modify]

/-- Turns of other fields do not touch what stands under a name. -/
theorem get?_foldl_of_not_mem {fields : List Field} {k : String}
    (hk : k ∉ fields.map (·.name)) (es : Entries) :
    (fields.foldl (pruneEntry policy inner) es).get? k = es.get? k := by
  induction fields generalizing es with
  | nil => rfl
  | cons f rest ih =>
    rw [List.map_cons, List.mem_cons, not_or] at hk
    rw [List.foldl_cons, ih hk.2, get?_pruneEntry, if_neg hk.1]

variable (policy inner) in
/-- What becomes of a field depends on its judgement of what the fields before it have left. -/
theorem get?_foldl_turn {before after : List Field} {f : Field}
    (hnames : ((before ++ f :: after).map (·.name)).Nodup) (es : Entries) :
    ((before ++ f :: after).foldl (pruneEntry policy inner) es).get? f.name =
      if policy.drops (before.foldl (pruneEntry policy inner) es) f then none
      else (es.get? f.name).map (inner f) := by
  rw [List.map_append, List.map_cons, List.nodup_middle, List.nodup_cons, List.mem_append,
    not_or] at hnames
  obtain ⟨⟨hbefore, hafter⟩, -⟩ := hnames
  rw [List.foldl_append, List.foldl_cons, get?_foldl_of_not_mem hafter, get?_pruneEntry, if_pos rfl,
    get?_foldl_of_not_mem hbefore]

/-- If all orders leave the same, a field judges what the fields before it have left as it judges
the object: in one of the orders it comes first. -/
theorem drops_foldl {fields : List Field} (hnames : (fields.map (·.name)).Nodup) {es : Entries}
    (hall : ∀ order : List Field, order.Perm fields →
      order.foldl (pruneEntry policy inner) es = fields.foldl (pruneEntry policy inner) es)
    {before after : List Field} {f : Field} (hperm : (before ++ f :: after).Perm fields) :
    policy.drops (before.foldl (pruneEntry policy inner) es) f = policy.drops es f := by
  have hfirst : ([] ++ f :: (before ++ after)).Perm fields := List.perm_middle.symm.trans hperm
  have hnodup := (hperm.map (·.name)).nodup_iff.2 hnames
  have hhere := get?_foldl_turn policy inner hnodup es
  have hthere := get?_foldl_turn policy inner ((hfirst.map (·.name)).nodup_iff.2 hnames) es
  rw [hall _ hperm] at hhere
  rw [hall _ hfirst, hhere, List.foldl_nil] at hthere
  cases hget : es.get? f.name with
  | none =>
    -- a field that is not there goes if the policy does not keep it, whatever else there is
    have hbefore : f.name ∉ before.map (·.name) := by
      rw [List.map_append, List.map_cons, List.nodup_middle, List.nodup_cons] at hnodup
      exact fun hmem => hnodup.1 (List.mem_append_left _ hmem)
    simp [Policy.drops, get?_foldl_of_not_mem hbefore, hget]
  | some v =>
    rw [hget] at hthere
    generalize policy.drops es f = there at hthere ⊢
    generalize policy.drops (before.foldl (pruneEntry policy inner) es) f = here at hthere ⊢
    cases here <;> cases there <;> simp at hthere ⊢

/-- The same of fields that have had their turns before. -/
theorem foldl_before_eq {fields : List Field} (hnames : (fields.map (·.name)).Nodup) {es : Entries}
    (hall : ∀ order : List Field, order.Perm fields →
      order.foldl (pruneEntry policy inner) es = fields.foldl (pruneEntry policy inner) es)
    {before after : List Field} (hperm : (before ++ after).Perm fields) :
    before.foldl (pruneEntry policy inner) es = prunedAtOnce policy inner before es := by
  have hnodup := (hperm.map (·.name)).nodup_iff.2 hnames
  rw [List.map_append] at hnodup
  apply foldl_eq_prunedAtOnce (List.nodup_append.1 hnodup).1
  rintro first f rest rfl hfirst
  rw [List.append_assoc, List.cons_append] at hperm
  rw [← hfirst]
  exact drops_foldl hnames hall hperm

end Turns

/-! ## Runs -/

/-- A run gives each field its turn. -/
theorem run_pruneFields (r : Registry) (policy : Policy) (fields : List Field) (es : Entries) :
    ((policy.supplied (pruneFields policy resolve fields (.object es))).run r).1 =
      .object (fields.foldl (pruneEntry policy (policy.prunedBy r)) es) := by
  rw [((Snapshot.pruneFields policy fields (.object es)).supplied policy r).1]
  unfold pruneFields
  rw [pruneFieldsStep_congr (thinsTo_pruneFieldTo policy _ _)
    (fun f v hv => policy.pruneFieldTo_eq_prunedBy r f hv) fields (Nat.le_refl _),
    pruneFieldsStep_object]

/-- Let no two fields share a name. That they leave the same of an object in every order, that in
every order each of them judges the object as it was given, and that none of them judges what others
leave in another way than the object: these are the same. -/
theorem pruneFields_order_tfae (r : Registry) (policy : Policy) {fields : List Field}
    (hnames : (fields.map (·.name)).Nodup) (es : Entries) :
    let run order := ((policy.supplied (pruneFields policy resolve order (.object es))).run r).1
    let atOnce fs := prunedAtOnce policy (policy.prunedBy r) fs es
    [∀ order : List Field, order.Perm fields → run order = run fields,
      ∀ order : List Field, order.Perm fields → run order = .object (atOnce fields),
      ∀ before f after, (before ++ f :: after).Perm fields →
        policy.drops (atOnce before) f = policy.drops es f].TFAE := by
  intro run atOnce
  have hrun : ∀ order, run order =
      .object (order.foldl (pruneEntry policy (policy.prunedBy r)) es) :=
    fun order => run_pruneFields r policy order es
  simp only [hrun, Value.object.injEq]
  tfae_have 1 → 3 := by
    intro hall before f after hperm
    show policy.drops (prunedAtOnce policy (policy.prunedBy r) before es) f = _
    rw [← foldl_before_eq hnames hall hperm]
    exact drops_foldl hnames hall hperm
  tfae_have 3 → 2 := by
    intro hsame order hperm
    show _ = prunedAtOnce policy (policy.prunedBy r) fields es
    rw [← prunedAtOnce_of_perm hnames hperm]
    apply foldl_eq_prunedAtOnce ((hperm.map (·.name)).nodup_iff.2 hnames)
    rintro before f after rfl -
    exact hsame before f after hperm
  tfae_have 2 → 1 := fun honce order hperm =>
    (honce order hperm).trans (honce fields (.refl _)).symm
  tfae_finish

/-- A text that is of no use beside a flag. The flag stays, so either order will do. -/
theorem pruneFields_order_tfae_flag :
    let fields := [Field.bool "a" "", (Field.string "b" "").omitted (.whenTrue "a")]
    let es : Entries := [("b", .string "x"), ("c", .null), ("a", .bool true)]
    let run order := ((Policy.keepAll.supplied
      (pruneFields .keepAll resolve order (.object es))).run .empty).1
    (fields.map (·.name)).Nodup ∧ run fields.reverse = run fields ∧
      run fields = .object [("c", .null), ("a", .bool true)] := by
  intro fields es run
  have hnames : (fields.map (·.name)).Nodup := by decide
  have hsame : ∀ before f after, (before ++ f :: after).Perm fields →
      Policy.keepAll.drops (prunedAtOnce .keepAll (Policy.keepAll.prunedBy .empty) before es) f =
        Policy.keepAll.drops es f := by
    intro before f after hperm
    rcases List.perm_pair.1 hperm with horder | horder <;>
      rcases List.append_eq_cons_iff.1 horder with ⟨rfl, hrest⟩ | ⟨first, rfl, hrest⟩
    · rfl
    · obtain ⟨rfl, hlast⟩ | ⟨-, hlast⟩ := List.append_eq_singleton_iff.1 hrest.symm <;> cases hlast
      rfl
    · rfl
    · obtain ⟨rfl, hlast⟩ | ⟨-, hlast⟩ := List.append_eq_singleton_iff.1 hrest.symm <;> cases hlast
      rfl
  have hall := ((pruneFields_order_tfae .empty .keepAll hnames es).out 2 0).1 hsame
  exact ⟨hnames, hall _ (List.reverse_perm _), rfl⟩

/-- A text that is of no use beside a name, and an empty name that is of no use itself. In one order
the text stays, because the name has gone before; in the other both go, as they do if each of them
judges the object as it was given. -/
theorem order_shows :
    let fields := [Builtin.emptyOmitted (.string "name" ""),
      (Field.string "text" "").omitted (.whenPresent "name")]
    let es : Entries := [("name", .string ""), ("text", .string "x")]
    let run order := ((Policy.keepAll.supplied
      (pruneFields .keepAll resolve order (.object es))).run .empty).1
    (fields.map (·.name)).Nodup ∧ fields.reverse.Perm fields ∧
      run fields = .object [("text", .string "x")] ∧ run fields.reverse = .object [] ∧
      prunedAtOnce .keepAll (Policy.keepAll.prunedBy .empty) fields es = [] := by
  intro fields es run
  exact ⟨by decide, List.reverse_perm _, rfl, rfl, rfl⟩

end StreamConfig
