import WellLog.Proofs.Pool.Slots
/-!
# What linking keeps of the references

Linking counts references, but it keeps their slots by label.  Of two attributes of an object that have
the same label and both refer to other objects, only the last one has slots afterwards.

* `Pool.length_linksOf_iff` : every reference has a slot exactly if no two attributes that refer share a
  label.
* `Pool.Linked.slots_eq` : the slots of a linked instance.
* `Pool.slots_after` : **linking loses no reference exactly if there are no such attributes**.
* `Pool.slots_doubledSet` : a set that can be read, and that loses a reference.
-/

namespace WellLog.Pool

variable {ε : Type} {registry : Registry} {sets : List ObjectSet} {p : Pool}
  {all : List (Fingerprint × InstanceId)} {o : RawObject} {id : InstanceId}
  {j : Journalled Pool}

/-- The slots of an instance, under all labels that it has links under. -/
def slots (p : Pool) (id : InstanceId) : List (Option InstanceId) :=
  (p.linkedLabels id).flatMap (p.linked id)

/-- The instances of all types, by a query for each of them. -/
def everything : Logged QueryError Pool (List InstanceId) := do
  return (← (← Logged.state).types.mapM fun t => find t none .exact).flatten

/-! ### The slots of one object -/

/-- There is a slot for every reference, before they are put under their labels. -/
theorem flatMap_slotsOf (registry : Registry) (all : List (Fingerprint × InstanceId))
    (o : RawObject) :
    (slotsOf registry all o).flatMap (·.2) =
      (registry.citations o).map fun d => resolve all d.target := by
  rw [slotsOf, ← Registry.flatMap_references, List.flatMap_map, List.map_flatMap]
  refine List.flatMap_congr fun r _ => ?_
  rw [List.map_map]
  rfl

/-- Labels without slots are not kept. -/
theorem ne_nil_of_mem_slotsOf {entry : String × List (Option InstanceId)}
    (h : entry ∈ slotsOf registry all o) : entry.2 ≠ [] := by
  obtain ⟨r, hr, rfl⟩ := List.mem_map.1 h
  have hne := (List.mem_filter.1 hr).2
  simpa using hne

/-- Where no two attributes that refer share a label, no slots are lost. -/
theorem perm_linksOf (hnodup : ((registry.references o).map (·.1)).Nodup)
    (all : List (Fingerprint × InstanceId)) :
    (linksOf registry all o).Perm (slotsOf registry all o) := by
  rw [← map_fst_slotsOf registry all] at hnodup
  have hperm : (linksOf registry all o).Perm (slotsOf registry all o ++ []) :=
    Table.perm_putAll hnodup fun _ _ => List.not_mem_nil
  rwa [List.append_nil] at hperm

/-- **Every reference has a slot exactly if no two attributes that refer share a label.** -/
theorem length_linksOf_iff :
    ((linksOf registry all o).flatMap (·.2)).length = (registry.citations o).length ↔
      ((registry.references o).map (·.1)).Nodup := by
  have hlength : (registry.citations o).length = ((slotsOf registry all o).flatMap (·.2)).length := by
    rw [flatMap_slotsOf, List.length_map]
  rw [hlength]
  constructor
  · intro heq
    rw [← map_fst_slotsOf registry all]
    refine (Table.nodup_of_length_putAll Table.ordered_nil ?_ (Nat.le_of_eq heq.symm)).1
    rw [List.append_nil]
    exact fun entry => ne_nil_of_mem_slotsOf
  · intro hnodup
    exact ((perm_linksOf hnodup all).flatMap_right _).length_eq

/-- Where nothing is lost, the slots that are not empty are those of the references that lead to an
object. -/
theorem countP_linksOf (hnodup : ((registry.references o).map (·.1)).Nodup) :
    ((linksOf registry all o).flatMap (·.2)).countP Option.isSome =
      (registry.citations o).countP fun d => (resolve all d.target).isSome := by
  rw [((perm_linksOf hnodup all).flatMap_right _).countP_eq, flatMap_slotsOf, List.countP_map]
  rfl

theorem Linked.slots_eq (h : Linked registry sets p) (hid : id ∈ p.members.map (·.2))
    (ho : p.content id = some o) : p.slots id = (linksOf registry p.members o).flatMap (·.2) := by
  have hlinked : p.linked id = fun label => ((linksOf registry p.members o).lookup label).getD [] :=
    funext (h.linked_eq hid ho)
  have hordered : Table.Ordered (linksOf registry p.members o) := Table.ordered_nil.putAll
  rw [slots, h.linkedLabels_eq hid ho, hlinked, hordered.flatMap_lookup]

/-! ### All objects -/

/-- All that a linked pool has is what the sets declare. -/
theorem ends_everything (h : Linked registry sets j.state) :
    Ends (fun ids j' => j' = j ∧ (∀ id ∈ ids, id ∈ j.state.members.map (·.2)) ∧
        ids.map j.state.content = (ObjectSet.contents sets).map some)
      (fun _ _ => False) (everything j) := by
  unfold everything
  rw [bind_state, ends_bind]
  refine (ends_mapM (I := (· = j))
    (R := fun t ids _ => (∀ id ∈ ids, id ∈ j.state.members.map (·.2)) ∧ ids.map j.state.content =
      (RawObject.collapse (ObjectSet.objectsOf sets t)).map some) ?_ rfl).mono ?_ fun _ _ => id
  · rintro t - _ rfl
    refine (h.ends_find_exact t none).mono ?_ fun _ _ => id
    rintro ids j' ⟨rfl, hkept, hcontent⟩
    have hall : ∀ l : List RawObject,
        l.filter (fun o => (none : Option String).all (· == o.fingerprint.name)) = l :=
      fun l => List.filter_eq_self.2 fun _ _ => rfl
    rw [hall] at hcontent
    exact ⟨rfl, ⟨hkept, hcontent⟩, fun _ _ => id⟩
  · rintro found _ ⟨rfl, hfound, -⟩
    rw [ends_pure]
    refine ⟨rfl, fun id hid => ?_, ?_⟩
    · obtain ⟨ids, hids, hid⟩ := List.mem_flatten.1 hid
      exact forall_mem_of_forall₂ (hfound.imp fun _ _ => And.left) ids hids id hid
    · rw [map_flatten_of_forall₂ (hfound.imp fun _ _ => And.right), h.sound.types_eq,
        ObjectSet.contents, List.map_flatMap]

/-- **Where no two attributes of an object that refer share a label, the report counts the slots that
are not empty.** -/
theorem Linked.resolved_eq (h : Linked registry sets p) {ids : List InstanceId}
    (hkept : ∀ id ∈ ids, id ∈ p.members.map (·.2))
    (hcontent : ids.map p.content = (ObjectSet.contents sets).map some)
    (hnodup : ∀ o ∈ ObjectSet.contents sets, ((registry.references o).map (·.1)).Nodup) :
    (ObjectSet.linkReport registry sets).resolved = (ids.flatMap p.slots).countP Option.isSome := by
  -- what an object contributes to either number
  let weight (o : RawObject) : Nat := (registry.citations o).countP fun d =>
    (ObjectSet.contents sets).any (·.fingerprint == d.target)
  have hslots : ∀ id ∈ ids, (p.slots id).countP Option.isSome = (p.content id).elim 0 weight := by
    intro id hid
    obtain ⟨o, ho, hido⟩ := List.mem_map.1 (hcontent ▸ List.mem_map_of_mem hid)
    rw [h.slots_eq (hkept id hid) hido.symm, countP_linksOf (hnodup o ho), ← hido]
    exact List.countP_congr fun d _ => by rw [h.sound.isSome_resolve h.kept]
  have hsums : ids.map (List.countP Option.isSome ∘ p.slots) =
      (ObjectSet.contents sets).map weight := by
    have hweights := congrArg (List.map fun c : Option RawObject => c.elim 0 weight) hcontent
    rw [List.map_map, List.map_map] at hweights
    exact (List.map_congr_left hslots).trans hweights
  rw [List.countP_flatMap, hsums, ObjectSet.linkReport, List.countP_flatMap]
  rfl

/-- Linking lost no reference of some instances. -/
structure Conserves (registry : Registry) (report : LinkReport) (ids : List InstanceId) (p : Pool) :
    Prop where
  /-- The references that the report counts have slots that lead to an instance. -/
  resolved_eq : report.resolved = (ids.flatMap p.slots).countP Option.isSome
  /-- Every reference of an object has a slot. -/
  length_slots : ∀ id ∈ ids, ∃ o, p.content id = some o ∧
    (p.slots id).length = (registry.citations o).length

/-- **Linking loses no reference exactly if no object has two attributes that share a label and both
refer to objects**, whatever was done with the pool before. -/
theorem slots_after (registry : Registry) (notes : Array Note) (history : List Call) :
    Ends (fun report linked => Ends (fun ids j' => Conserves registry report ids j'.state ↔
          ∀ o ∈ ObjectSet.contents (added history), ((registry.references o).map (·.1)).Nodup)
        (fun _ _ => False) (everything linked))
      (fun _ _ => False) (link (after registry notes history) : EStateM.Result ε _ _) := by
  refine (ends_link (sound_after registry notes history)).mono ?_ fun _ _ => id
  rintro report linked ⟨rfl, hlinked⟩
  refine (ends_everything hlinked).mono ?_ fun _ _ => id
  rintro ids j' ⟨rfl, hkept, hcontent⟩
  constructor
  · rintro ⟨-, hslots⟩ o ho
    obtain ⟨id, hid, hido⟩ := List.mem_map.1 (hcontent ▸ List.mem_map_of_mem (f := some) ho)
    obtain ⟨o', ho', hlength⟩ := hslots id hid
    rw [hido, Option.some.injEq] at ho'
    subst ho'
    rw [hlinked.slots_eq (hkept id hid) hido] at hlength
    exact length_linksOf_iff.1 hlength
  · intro hnodup
    refine ⟨hlinked.resolved_eq hkept hcontent hnodup, fun id hid => ?_⟩
    obtain ⟨o, ho, hido⟩ := List.mem_map.1 (hcontent ▸ List.mem_map_of_mem hid)
    refine ⟨o, hido.symm, ?_⟩
    rw [hlinked.slots_eq (hkept id hid) hido.symm]
    exact length_linksOf_iff.2 (hnodup o ho)

/-- A set whose template has two attributes with the same label, and one object, which both of them
refer to. -/
def doubledBody : List UInt8 :=
  [0xF0, 1, 0x54] ++ [0x35, 1, 0x4C, 24, 1, 0x54, 1, 0, 1, 0x41] ++
    [0x35, 1, 0x4C, 24, 1, 0x54, 1, 0, 1, 0x41] ++ [0x70, 1, 0, 1, 0x41]

/-- The set as it is read. -/
def doubledSet : ObjectSet :=
  let link : Attribute := ⟨"L", 1, 24, "", [.reference "T" ⟨1, 0, "A"⟩]⟩
  ⟨"T", none, .plain, 3, [⟨⟨"T", "A", 1, 0⟩, [link, link]⟩]⟩

theorem slots_doubledSet : ObjectSet.parse 3 doubledBody = .ok doubledSet ∧
    ¬ Ends (fun report linked => Ends (fun ids j' => Conserves .empty report ids j'.state)
          (fun _ _ => False) (everything linked))
        (fun _ _ => False)
        (link (after .empty #[] [.addSets [doubledSet]]) : EStateM.Result QueryError _ _) := by
  refine ⟨by cbv, fun hall => ?_⟩
  -- two references are counted, and one slot is left
  have hcount : Ends (fun report linked => Ends (fun ids j' =>
        report.resolved = 2 ∧ (ids.flatMap j'.state.slots).countP Option.isSome = 1)
      (fun _ _ => False) (everything linked)) (fun _ _ => False)
      (link (after .empty #[] [.addSets [doubledSet]]) : EStateM.Result QueryError _ _) := by
    cbv
  obtain ⟨report, linked, hlink, heverything⟩ := hcount.exists_ok
  rw [hlink, ends_ok] at hall
  obtain ⟨ids, j', hids, htwo, hone⟩ := heverything.exists_ok
  rw [hids, ends_ok] at hall
  have hsame := hall.resolved_eq
  rw [htwo, hone] at hsame
  cases hsame

end WellLog.Pool
