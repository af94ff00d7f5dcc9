import Mathlib
import WellLog.Proofs.ObjectSet.Parsing
import WellLog.Proofs.Pool.History
/-!
# What links lead to

A link is the number of an instance.  Behind linking it is worth something because the instance is the
one that queries return: the pool keeps it, and promotes no other one for the same object.

* `Pool.Linked.linked_eq` : the slots under a label of a linked instance.
* `Pool.Linked.object_eq` : a query for the one object with a fingerprint returns the instance that is
  linked.
* `Pool.linked_after` : **every slot leads to what queries return**, and is empty only where there is
  no object.
-/

namespace WellLog

/-- **The objects of a set that was read have its type.** -/
theorem ObjectSet.typed_of_parse {recordType : UInt8} {body : List UInt8} {s : ObjectSet}
    (h : ObjectSet.parse recordType body = .ok s) : s.Typed := by
  obtain ⟨t, -, -, rfl⟩ := ObjectSet.parse_eq_ok_iff.1 h
  intro o ho
  obtain ⟨g, -, rfl⟩ := List.mem_map.1 ho
  rfl

namespace Pool

variable {registry : Registry} {sets : List ObjectSet} {p : Pool}
  {all : List (Fingerprint × InstanceId)} {m : Fingerprint × InstanceId} {o : RawObject}
  {f : Fingerprint} {id : InstanceId} {label : String} {j : Journalled Pool}

/-! ### The instances of a linked pool -/

namespace Linked

/-- An instance that is kept is one of an object that counts. -/
theorem content_eq (h : Linked registry sets p) (hm : m ∈ p.members) :
    ∃ o ∈ ObjectSet.contents sets, p.content m.2 = some o ∧ m.1 = o.fingerprint := by
  have hpair : (m.1, p.content m.2) ∈
      (ObjectSet.contents sets).map fun o => (o.fingerprint, some o) :=
    h.sound.map_members h.kept ▸ List.mem_map_of_mem hm
  obtain ⟨o, ho, heq⟩ := List.mem_map.1 hpair
  exact ⟨o, ho, (Prod.mk.inj heq).2.symm, (Prod.mk.inj heq).1.symm⟩

theorem mem_members (h : Linked registry sets p) (hid : id ∈ p.members.map (·.2))
    (ho : p.content id = some o) : (o.fingerprint, id) ∈ p.members := by
  obtain ⟨m, hm, rfl⟩ := List.mem_map.1 hid
  obtain ⟨o', -, ho', hf⟩ := h.content_eq hm
  rw [ho, Option.some.injEq] at ho'
  rw [ho', ← hf]
  exact hm

/-- No two instances that are kept are of objects with the same fingerprint. -/
theorem eq_of_mem_members (h : Linked registry sets p) (htyped : ∀ s ∈ sets, s.Typed)
    {id' : InstanceId} (hid : (f, id) ∈ p.members) (hid' : (f, id') ∈ p.members) : id' = id := by
  have hnodup := ObjectSet.nodup_fingerprints_contents htyped
  rw [← h.sound.map_fst_members h.kept] at hnodup
  exact (Prod.mk.inj (List.inj_on_of_nodup_map hnodup hid' hid rfl)).2

/-- An instance that is kept lives. -/
theorem isAlive (hm : m ∈ p.members) : p.isAlive m.2 = true := by
  obtain ⟨t, -, b, hb, hmb⟩ := mem_members_iff.1 hm
  rw [Pool.isAlive, Bool.or_eq_true, List.any_eq_true]
  refine .inl ⟨(t, b), Table.mem_of_lookup hb, ?_⟩
  rw [List.contains_iff_mem]
  exact List.mem_map_of_mem hmb

end Linked

theorem mem_of_resolve (h : resolve all f = some id) : (f, id) ∈ all :=
  List.mem_reverse.1 (Table.mem_of_lookup h)

/-- Some slots of an object are those of one of its attributes. -/
theorem exists_of_lookup_linksOf {slots : List (Option InstanceId)}
    (h : (linksOf registry all o).lookup label = some slots) :
    ∃ a ∈ o.attributes, a.label = label ∧
      slots = (a.values.filterMap (Registry.target (registry.namedType o label))).map
        (resolve all) := by
  rw [linksOf, Table.lookup_putAll Table.ordered_nil, List.lookup_nil, Option.or_none] at h
  have hmem := List.mem_reverse.1 (Table.mem_of_lookup h)
  obtain ⟨r, hr, heq⟩ := List.mem_map.1 hmem
  obtain ⟨a, ha, rfl⟩ := List.mem_map.1 (List.mem_filter.1 hr).1
  obtain ⟨hlabel, hslots⟩ := Prod.mk.inj heq
  simp only at hlabel hslots
  subst hlabel
  exact ⟨a, ha, rfl, hslots.symm⟩

namespace Linked

theorem linkedLabels_eq (h : Linked registry sets p) (hid : id ∈ p.members.map (·.2))
    (ho : p.content id = some o) :
    p.linkedLabels id = (linksOf registry p.members o).map (·.1) := by
  obtain ⟨m, hm, rfl⟩ := List.mem_map.1 hid
  rw [linkedLabels, h.linked m hm, ho]
  rfl

/-- **The slots under a label of a linked instance.** -/
theorem linked_eq (h : Linked registry sets p) (hid : id ∈ p.members.map (·.2))
    (ho : p.content id = some o) (label : String) :
    p.linked id label = ((linksOf registry p.members o).lookup label).getD [] := by
  obtain ⟨m, hm, rfl⟩ := List.mem_map.1 hid
  rw [Pool.linked, h.linked m hm, ho]
  simp only [Option.map_some, Option.bind_some]
  cases hslots : (linksOf registry p.members o).lookup label with
  | none => rfl
  | some slots =>
    obtain ⟨a, -, -, rfl⟩ := exists_of_lookup_linksOf hslots
    rw [Option.getD_some]
    simp only
    rw [List.map_map]
    refine List.map_congr_left fun target _ => ?_
    rw [Function.comp_apply]
    -- what a reference is resolved to is kept, so it lives
    cases htarget : resolve p.members target with
    | none => rfl
    | some id' => rw [Option.filter_some_pos (isAlive (mem_of_resolve htarget))]

/-! ### Queries for what is linked -/

/-- A query for one type of a linked pool changes nothing, and finds what the sets declare among the
instances that are kept. -/
theorem ends_find_exact (h : Linked registry sets j.state) (t : String) (name : Option String) :
    Ends (fun ids j' => j' = j ∧ (∀ id ∈ ids, id ∈ j.state.members.map (·.2)) ∧
        ids.map j.state.content = ((RawObject.collapse (ObjectSet.objectsOf sets t)).filter
          fun o => name.all (· == o.fingerprint.name)).map some)
      (fun _ _ => False) (find t name .exact j) := by
  refine ((ends_find h.sound t name .exact).and
    (ends_find_of_kept h.sound h.kept t name .exact)).mono ?_ ?_
  · rintro ids j' ⟨⟨-, -, objects, hanswer, hcontent⟩, rfl, hkept⟩
    rw [ObjectSet.answer_exact] at hanswer
    cases hanswer
    exact ⟨rfl, hkept, hcontent⟩
  · rintro e j' ⟨⟨-, hanswer⟩, -⟩
    rw [ObjectSet.answer_exact] at hanswer
    cases hanswer

/-- A query of a linked pool returns no other instance of an object than the one that is linked. -/
theorem ends_find_unique (h : Linked registry sets j.state) (htyped : ∀ s ∈ sets, s.Typed)
    (hm : (f, id) ∈ j.state.members) (type : String) (name : Option String) (matcher : Matcher) :
    Ends (fun ids j' => ∀ id' ∈ ids, (j'.state.content id').map (·.fingerprint) = some f → id' = id)
      (fun _ _ => True) (find type name matcher j) := by
  refine (ends_find_of_kept h.sound h.kept type name matcher).mono ?_ fun _ _ _ => trivial
  rintro ids j' ⟨rfl, hkept⟩ id' hid' hf
  obtain ⟨o, ho, rfl⟩ := Option.map_eq_some_iff.1 hf
  exact h.eq_of_mem_members htyped hm (h.mem_members (hkept id' hid') ho)

/-- What a query for the type and the name of a fingerprint looks at. -/
theorem mem_found_iff (htyped : ∀ s ∈ sets, s.Typed) :
    o ∈ ((RawObject.collapse (ObjectSet.objectsOf sets f.type)).filter
        fun o => f.name == o.fingerprint.name).filter (·.isOf (some f.origin) (some f.copy)) ↔
      o ∈ ObjectSet.contents sets ∧ o.fingerprint = f := by
  have htype : ∀ t, o ∈ RawObject.collapse (ObjectSet.objectsOf sets t) → o.fingerprint.type = t :=
    fun t hot => ObjectSet.type_of_mem_objectsOf htyped (RawObject.mem_of_mem_collapse hot)
  rw [List.mem_filter, List.mem_filter, RawObject.isOf, Bool.and_eq_true, Option.all_some,
    Option.all_some, beq_iff_eq, beq_iff_eq, beq_iff_eq]
  constructor
  · rintro ⟨⟨ho, hname⟩, horigin, hcopy⟩
    refine ⟨ObjectSet.mem_contents ho, ?_⟩
    rw [Fingerprint.mk.injEq]
    exact ⟨htype f.type ho, hname.symm, horigin.symm, hcopy.symm⟩
  · rintro ⟨ho, rfl⟩
    obtain ⟨t, -, hot⟩ := List.mem_flatMap.1 ho
    rw [htype t hot]
    exact ⟨⟨hot, rfl⟩, rfl, rfl⟩

/-- It finds one object for a fingerprint. -/
theorem found_eq (htyped : ∀ s ∈ sets, s.Typed) (ho : o ∈ ObjectSet.contents sets)
    (hf : o.fingerprint = f) :
    ((RawObject.collapse (ObjectSet.objectsOf sets f.type)).filter
      fun o => f.name == o.fingerprint.name).filter (·.isOf (some f.origin) (some f.copy)) = [o] := by
  refine eq_singleton_of_forall_eq ?_ ((mem_found_iff htyped).2 ⟨ho, hf⟩) fun o' ho' => ?_
  · exact ((RawObject.nodup_fingerprints_collapse _).of_map.filter _).filter _
  · obtain ⟨hcounts, hf'⟩ := (mem_found_iff htyped).1 ho'
    exact List.inj_on_of_nodup_map (ObjectSet.nodup_fingerprints_contents htyped) hcounts ho
      (hf'.trans hf.symm)

/-- The one candidate for a fingerprint is the instance that is linked. -/
theorem candidates_eq (h : Linked registry sets p) (htyped : ∀ s ∈ sets, s.Typed)
    (hm : (f, id) ∈ p.members) {ids : List InstanceId} (hkept : ∀ id ∈ ids, id ∈ p.members.map (·.2))
    (hcontent : ids.map p.content =
      ((RawObject.collapse (ObjectSet.objectsOf sets f.type)).filter
        fun o => f.name == o.fingerprint.name).map some) :
    ∃ o, (p.withContent ids).filter (fun c => c.2.isOf (some f.origin) (some f.copy)) = [(id, o)] := by
  obtain ⟨o, ho, -, hf⟩ := h.content_eq hm
  have hcandidates : ((p.withContent ids).filter fun c =>
      c.2.isOf (some f.origin) (some f.copy)).map (·.2) = [o] := by
    rw [← found_eq htyped ho hf.symm, ← withContent_snd hcontent, List.filter_map]
    rfl
  obtain ⟨⟨id', o'⟩, hone, rfl⟩ := List.map_eq_singleton_iff.1 hcandidates
  have hc := List.mem_of_mem_filter (hone ▸ List.mem_singleton_self (id', o'))
  have hm' := h.mem_members (hkept id' (mem_withContent hc).1) (mem_withContent hc).2
  rw [← hf] at hm'
  obtain rfl := h.eq_of_mem_members htyped hm hm'
  exact ⟨o', hone⟩

/-- **A query for the one object with a fingerprint returns the instance that is linked**, and so does
a query for all with its type and name. -/
theorem object_eq (h : Linked registry sets j.state) (htyped : ∀ s ∈ sets, s.Typed)
    (hm : (f, id) ∈ j.state.members) :
    object f.type f.name (some f.origin) (some f.copy) j = .ok id j ∧
      Ends (fun ids _ => id ∈ ids) (fun _ _ => False) (find f.type (some f.name) .exact j) := by
  obtain ⟨found, j', hrun, rfl, hkept, hcontent⟩ :=
    (h.ends_find_exact f.type (some f.name)).exists_ok
  obtain ⟨o, hone⟩ := h.candidates_eq htyped hm hkept hcontent
  constructor
  · rw [Pool.object_eq]
    simp only [bind, EStateM.bind, hrun]
    show pick f.type f.name ((j'.state.withContent found).filter
      fun c => c.2.isOf (some f.origin) (some f.copy)) j' = .ok id j'
    rw [hone]
    rfl
  · rw [hrun, ends_ok]
    have hfound := (List.mem_filter.1 (hone ▸ List.mem_singleton_self (id, o))).1
    exact (mem_withContent hfound).1

end Linked

/-! ### What a slot leads to -/

/-- A slot leads to what queries return for the object that a reference names. -/
structure LeadsTo (sets : List ObjectSet) (j : Journalled Pool) (target : Fingerprint)
    (slot : Option InstanceId) : Prop where
  /-- It is empty exactly if no set declares the object. -/
  none_iff : slot = none ↔ ∀ s ∈ sets, ∀ o ∈ s.objects, o.fingerprint ≠ target
  /-- A query for the one object returns the instance. -/
  object_eq : ∀ id, slot = some id →
    object target.type target.name (some target.origin) (some target.copy) j = .ok id j
  /-- A query for all objects with its type and its name returns the instance, too. -/
  found : ∀ id, slot = some id →
    Ends (fun ids _ => id ∈ ids) (fun _ _ => False) (find target.type (some target.name) .exact j)
  /-- No query returns another instance of the object. -/
  unique : ∀ id, slot = some id → ∀ type name matcher,
    Ends (fun ids j' => ∀ id' ∈ ids,
        (j'.state.content id').map (·.fingerprint) = some target → id' = id)
      (fun _ _ => True) (find type name matcher j)

theorem Linked.leadsTo (h : Linked registry sets j.state) (htyped : ∀ s ∈ sets, s.Typed)
    (target : Fingerprint) : LeadsTo sets j target (resolve j.state.members target) where
  none_iff := by
    rw [← Option.not_isSome_iff_eq_none, isSome_resolve_iff, h.sound.map_fst_members h.kept,
      ObjectSet.mem_fingerprints_contents]
    constructor
    · intro hnone s hs o ho heq
      exact hnone ⟨s, hs, o, ho, heq⟩
    · rintro hnone ⟨s, hs, o, ho, heq⟩
      exact hnone s hs o ho heq
  object_eq _ hslot := (h.object_eq htyped (mem_of_resolve hslot)).1
  found _ hslot := (h.object_eq htyped (mem_of_resolve hslot)).2
  unique _ hslot := h.ends_find_unique htyped (mem_of_resolve hslot)

/-- The links of some instances are sound.  A label that an instance has links under is the label of one
of its attributes, and the slots stand for the references of that attribute, in order. -/
def SoundLinks (registry : Registry) (sets : List ObjectSet) (ids : List InstanceId)
    (j : Journalled Pool) : Prop :=
  ∀ id ∈ ids, ∃ o, j.state.content id = some o ∧
    ∀ label ∈ j.state.linkedLabels id, ∃ a ∈ o.attributes, a.label = label ∧
      List.Forall₂ (LeadsTo sets j)
        (a.values.filterMap (Registry.target (registry.namedType o label)))
        (j.state.linked id label)

/-- **Every slot leads to what queries return.**  Behind linking, whatever was done with the pool before
and whether caching is on or off, the links of all instances that a query returns are sound. -/
theorem linked_after (registry : Registry) (notes : Array Note) (history : List Call)
    (hparsed : ∀ s ∈ added history, ∃ recordType body, ObjectSet.parse recordType body = .ok s)
    (type : String) (name : Option String) (matcher : Matcher) :
    Ends (SoundLinks registry (added history)) (fun _ _ => True)
      (find type name matcher (after registry notes (history ++ [.link]))) := by
  have hlinked := linked_after_link registry notes history
  have htyped : ∀ s ∈ added history, s.Typed := by
    intro s hs
    obtain ⟨recordType, body, hparse⟩ := hparsed s hs
    exact ObjectSet.typed_of_parse hparse
  refine (ends_find_of_kept hlinked.sound hlinked.kept type name matcher).mono ?_
    fun _ _ _ => trivial
  rintro ids j ⟨rfl, hkept⟩ id hid
  obtain ⟨m, hm, rfl⟩ := List.mem_map.1 (hkept id hid)
  obtain ⟨o, -, ho, -⟩ := hlinked.content_eq hm
  refine ⟨o, ho, fun label hlabel => ?_⟩
  rw [hlinked.linkedLabels_eq (hkept _ hid) ho, ← Table.isSome_lookup_iff] at hlabel
  obtain ⟨slots, hslots⟩ := Option.isSome_iff_exists.1 hlabel
  obtain ⟨a, ha, hal, hvalues⟩ := exists_of_lookup_linksOf hslots
  refine ⟨a, ha, hal, ?_⟩
  rw [hlinked.linked_eq (hkept _ hid) ho, hslots, Option.getD_some, hvalues,
    List.forall₂_map_right_iff, List.forall₂_same]
  exact fun target _ => hlinked.leadsTo htyped target

/-- A set with one object, whose attribute refers to the object itself and to another one that is not
there. -/
def halfBody : List UInt8 :=
  [0xF0, 1, 0x54] ++ [0x3D, 1, 0x4C, 2, 24, 1, 0x54, 1, 0, 1, 0x41, 1, 0x54, 1, 0, 1, 0x42] ++
    [0x70, 1, 0, 1, 0x41]

/-- The set as it is read. -/
def halfSet : ObjectSet :=
  ⟨"T", none, .plain, 3, [⟨⟨"T", "A", 1, 0⟩,
    [⟨"L", 2, 24, "", [.reference "T" ⟨1, 0, "A"⟩, .reference "T" ⟨1, 0, "B"⟩]⟩]⟩]⟩

/-- Without a cache, and with a query before. -/
def halfHistory : List Call := [.setCaching false, .addSets [halfSet], .find "T" none .exact]

theorem linked_halfSet :
    (∀ s ∈ added halfHistory, ∃ recordType body, ObjectSet.parse recordType body = .ok s) ∧
      Ends (SoundLinks .empty (added halfHistory)) (fun _ _ => True)
        (find "T" none .exact (after .empty #[] (halfHistory ++ [.link]))) ∧
      Ends (fun ids j => ids.map (j.state.linked · "L") = [[some 1, none]]) (fun _ _ => False)
        (find "T" none .exact (after .empty #[] (halfHistory ++ [.link]))) := by
  have hparsed : ∀ s ∈ added halfHistory, ∃ recordType body,
      ObjectSet.parse recordType body = .ok s := by
    intro s hs
    obtain rfl : s = halfSet := List.mem_singleton.1 hs
    exact ⟨3, halfBody, by cbv⟩
  exact ⟨hparsed, linked_after .empty #[] halfHistory hparsed "T" none .exact, by cbv⟩

end Pool

end WellLog
