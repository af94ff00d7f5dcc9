import WellLog.Proofs.Pool.Renewal
import WellLog.Proofs.Pool.Slots
/-!
# The instance of an object stays the same

Whoever has an instance from a pool that keeps its instances may compare it with those that the pool
hands out later: for the same object it is the very same one.  Only a call that declares the object
once more, or turns caching off, makes an end of that, and then the pool never hands out the instance
again.  What the call declares besides does not matter to the object, so the instances of all others
are the same as before.

* `Pool.Call.Yields` : a call hands out an instance for a fingerprint, as a result or in a slot.
* `Pool.Call.Yields.hands` : whatever is handed out comes from the buckets of the pool.
* `Pool.Stands` : an instance is the one for its fingerprint.
* `Pool.instance_stands` : **an instance stands until its fingerprint is given up**, and is never
  handed out again from then on.
-/

namespace WellLog

/-- The objects that an object refers to under a label.  Where several attributes with the label refer
to some, the last one counts. -/
def RawObject.targets (registry : Registry) (o : RawObject) (label : String) : List Fingerprint :=
  ((registry.references o).reverse.lookup label).getD []

namespace Pool

variable {registry : Registry} {sets : List ObjectSet} {p : Pool} {f : Fingerprint}
  {id id' : InstanceId} {o : RawObject} {c : Call} {j : Journalled Pool}

/-! ### What is kept and what is linked -/

theorem Sound.mem_members_of_keeps (h : Sound registry sets p) (hid : p.Keeps f id) :
    (f, id) ∈ p.members := by
  obtain ⟨b, hb, hm⟩ := hid
  obtain ⟨o, ho, -⟩ := (h.holds f.type b hb).content_eq hm
  have htype := ObjectSet.mem_typesOf_of_mem_objectsOf (RawObject.mem_of_mem_collapse ho)
  rw [← h.types_eq] at htype
  exact mem_members_iff.2 ⟨f.type, htype, b, hb, hm⟩

theorem Sound.keeps_of_mem_members (h : Sound registry sets p) (htyped : ∀ s ∈ sets, s.Typed)
    (hm : (f, id) ∈ p.members) : p.Keeps f id := by
  obtain ⟨t, -, b, hb, hmb⟩ := mem_members_iff.1 hm
  rw [← (h.holds t b hb).type_eq htyped hmb] at hb
  exact ⟨b, hb, hmb⟩

/-- The slots under a label of a linked instance are those of the objects that it refers to. -/
theorem Linked.linked_eq_targets (h : Linked registry sets p)
    (hid : id ∈ p.members.map (·.2)) (ho : p.content id = some o) (label : String) :
    p.linked id label = (o.targets registry label).map (resolve p.members) := by
  have hslots : (slotsOf registry p.members o).reverse.lookup label =
      ((registry.references o).reverse.lookup label).map (·.map (resolve p.members)) := by
    rw [slotsOf, ← List.map_reverse]
    exact Table.lookup_map _ _ _
  rw [h.linked_eq hid ho, linksOf, Table.lookup_putAll Table.ordered_nil, List.lookup_nil,
    Option.or_none, hslots, RawObject.targets]
  cases (registry.references o).reverse.lookup label with
  | none => rfl
  | some targets => rfl

/-- An instance that the pool keeps has the slot for an object with the fingerprint. -/
def Slot (p : Pool) (f : Fingerprint) (slot : Option InstanceId) : Prop :=
  ∃ g source o label, p.Keeps g source ∧ p.content source = some o ∧
    (f, slot) ∈ (o.targets p.registry label).zip (p.linked source label)

/-- A slot of a linked pool holds what its fingerprint is resolved to. -/
theorem Linked.slot_eq (h : Linked registry sets p) {slot : Option InstanceId}
    (hslot : p.Slot f slot) : slot = resolve p.members f := by
  obtain ⟨g, source, o, label, hsource, ho, hmem⟩ := hslot
  have hkept := List.mem_map_of_mem (f := (·.2)) (h.sound.mem_members_of_keeps hsource)
  rw [h.linked_eq_targets hkept ho, h.sound.registry_eq, ← List.map_prod_left_eq_zip] at hmem
  obtain ⟨target, -, heq⟩ := List.mem_map.1 hmem
  obtain ⟨rfl, rfl⟩ := Prod.mk.inj heq
  rfl

/-- A linked pool resolves a fingerprint to the instance that it keeps for it. -/
theorem Linked.resolve_eq (h : Linked registry sets p) (htyped : ∀ s ∈ sets, s.Typed)
    (hid : p.Keeps f id) : resolve p.members f = some id := by
  have hmem := h.sound.mem_members_of_keeps hid
  have hsome : (resolve p.members f).isSome = true :=
    isSome_resolve_iff.2 (List.mem_map_of_mem (f := (·.1)) hmem)
  obtain ⟨id', hid'⟩ := Option.isSome_iff_exists.1 hsome
  rw [hid', h.sound.keeps_unique hid (h.sound.keeps_of_mem_members htyped (mem_of_resolve hid'))]

/-! ### Handing out -/

namespace Call

/-- A call hands out an instance for a fingerprint: a query finds it, or linking makes a slot for the
fingerprint lead to it. -/
def Yields (c : Call) (j : Journalled Pool) (f : Fingerprint) (id : InstanceId) : Prop :=
  match c with
  | find type name matcher => Ends (fun ids j' => id ∈ ids ∧ j'.state.Is id f) (fun _ _ => False)
      (Pool.find type name matcher j)
  | object type name origin copy => Ends (fun only j' => only = id ∧ j'.state.Is id f)
      (fun _ _ => False) (Pool.object type name origin copy j)
  | link => (link.after j).state.Slot f (some id)
  | addSets _ | setCaching _ | hold _ | release _ => False

/-- A query asks for a fingerprint. -/
def Asks : Call → Fingerprint → Prop
  | find type name matcher, f => (∃ n, matcher.compile? type = some n ∧ n.accepts f.type = true) ∧
      ∀ text, name = some text → ∃ n, matcher.compile? text = some n ∧ n.accepts f.name = true
  | object type name origin copy, f =>
      type = f.type ∧ name = f.name ∧ origin = some f.origin ∧ copy = some f.copy
  | link, _ | addSets _, _ | setCaching _, _ | hold _, _ | release _, _ => False

theorem Yields.not_drops (h : c.Yields j f id) (g : Fingerprint) : ¬ c.Drops g := by
  cases c with
  | find _ _ _ | object _ _ _ _ | link => exact not_false
  | addSets _ | setCaching _ | hold _ | release _ => exact False.elim h

end Call

section

variable (h : Sound registry sets j.state) (htyped : ∀ s ∈ sets, s.Typed)
include h

theorem linked_after_call : Linked registry sets (Call.link.after j).state := by
  refine Call.after_of_ends (P := fun j' => Linked registry sets j'.state) ?_
  rw [Call.run, ends_bind]
  exact (ends_link h).mono (fun _ _ h => h.2) fun _ _ => False.elim

include htyped

/-- **Whatever is handed out comes from the buckets of the pool.** -/
theorem Call.Yields.hands (hid : c.Yields j f id) : Hands j.state (c.after j).state f id := by
  cases c with
  | find type name matcher =>
    refine Call.after_of_ends (P := fun j' => Hands j.state j'.state f id) ?_
    rw [run, ends_bind]
    refine (Ends.and hid (ends_find_hands h htyped type name matcher)).mono ?_ fun _ _ h => h.1.elim
    rintro ids j' ⟨⟨hmem, his⟩, -, hids⟩
    obtain ⟨g, hg⟩ := hids id hmem
    obtain rfl := his.unique hg.is
    exact hg
  | object type name origin copy =>
    refine Call.after_of_ends (P := fun j' => Hands j.state j'.state f id) ?_
    rw [run, ends_bind]
    refine (Ends.and hid (ends_object_hands h htyped type name origin copy)).mono ?_
      fun _ _ h => h.1.elim
    rintro only j' ⟨⟨rfl, his⟩, -, g, hg⟩
    obtain rfl := his.unique hg.is
    exact hg
  | link =>
    have hlinked := linked_after_call h
    have hkept : (Call.link.after j).state.Keeps f id :=
      hlinked.sound.keeps_of_mem_members htyped (mem_of_resolve (hlinked.slot_eq hid).symm)
    have hrenews := Call.renews h .link (by rwa [adds, List.append_nil])
    exact ⟨hlinked.sound.is_of_keeps hkept, fun hlt => (hrenews.old f id hkept hlt).1,
      fun _ => hkept⟩
  | addSets _ | setCaching _ | hold _ | release _ => exact False.elim hid

/-- Where the pool keeps an instance for the fingerprint, it hands out this one. -/
theorem Call.Yields.eq_of_keeps (hid' : c.Yields j f id') (hid : j.state.Keeps f id) : id' = id := by
  have hadds : c.adds = [] := by
    cases c with
    | addSets _ => exact False.elim hid'
    | find _ _ _ | object _ _ _ _ | link | setCaching _ | hold _ | release _ => rfl
  have hrenews := Call.renews h c (by rwa [hadds, List.append_nil])
  have hsound : Sound registry sets (c.after j).state := by
    have hafter := Call.after_of_ends (Call.ends_run h c)
    rwa [hadds, List.append_nil] at hafter
  -- behind the call the pool keeps both of them for the fingerprint
  have hkept := hrenews.spared f id hid (hid'.not_drops f)
  obtain ⟨b, hb, -⟩ := hid
  exact hsound.keeps_unique hkept ((hid'.hands h htyped).kept (.inr ⟨b, hb⟩))

end

/-! ### The instance for a fingerprint -/

section

variable (hf : o.fingerprint = f)
include hf

/-- A query that asks for the fingerprint of an object finds the object. -/
theorem Call.Asks.exists_answer {type : String} {name : Option String} {matcher : Matcher}
    (h : (Call.find type name matcher).Asks f)
    (ho : o ∈ RawObject.collapse (ObjectSet.objectsOf sets f.type)) :
    ∃ objects, ObjectSet.answer sets type name matcher = .ok objects ∧ o ∈ objects := by
  obtain ⟨⟨n, htype, haccepts⟩, hname⟩ := h
  have hmem : f.type ∈ (ObjectSet.typesOf sets).filter n.accepts := List.mem_filter.2
    ⟨ObjectSet.mem_typesOf_of_mem_objectsOf (RawObject.mem_of_mem_collapse ho), haccepts⟩
  rw [ObjectSet.answer, htype]
  cases name with
  | none => exact ⟨_, rfl, List.mem_flatMap.2 ⟨f.type, hmem, List.mem_filter.2 ⟨ho, rfl⟩⟩⟩
  | some text =>
    obtain ⟨m, htext, haccepts'⟩ := hname text rfl
    rw [Option.mapM_some, htext]
    refine ⟨_, rfl, List.mem_flatMap.2 ⟨f.type, hmem, List.mem_filter.2 ⟨ho, ?_⟩⟩⟩
    rw [Option.all_some, hf]
    exact haccepts'

/-- There is one object to decide on for a fingerprint. -/
theorem single_of_mem_collapse (htyped : ∀ s ∈ sets, s.Typed)
    (ho : o ∈ RawObject.collapse (ObjectSet.objectsOf sets f.type)) :
    ObjectSet.single sets f.type f.name (some f.origin) (some f.copy) = .ok o := by
  rw [ObjectSet.single, ObjectSet.answer_exact]
  exact congrArg (RawObject.pick f.type f.name)
    (Linked.found_eq htyped (ObjectSet.mem_contents ho) hf)

end

/-- An instance is the one for its fingerprint. -/
structure Stands (j : Journalled Pool) (f : Fingerprint) (id : InstanceId) : Prop where
  /-- No call hands out another one. -/
  unique : ∀ c id', Call.Yields c j f id' → id' = id
  /-- Every query for the fingerprint hands it out. -/
  found : ∀ c, Call.Asks c f → c.Yields j f id
  /-- Every slot for the fingerprint that linking makes leads to it. -/
  slot : ∀ slot, (Call.link.after j).state.Slot f slot → slot = some id

section

variable (h : Sound registry sets j.state) (htyped : ∀ s ∈ sets, s.Typed)
  (hid : j.state.Keeps f id)
include h htyped hid

/-- A query for the fingerprint hands out the instance that the pool keeps. -/
theorem yields_of_asks (hc : c.Asks f) : c.Yields j f id := by
  have hkept := hid
  obtain ⟨b, hb, hm⟩ := hkept
  obtain ⟨o, ho, -, hf⟩ := (h.holds f.type b hb).content_eq hm
  simp only at hf
  cases c with
  | find type name matcher =>
    obtain ⟨objects, hanswer, hmem⟩ := hc.exists_answer hf.symm ho
    have hfind := ends_find h type name matcher
    rw [hanswer] at hfind
    cases hrun : Pool.find type name matcher j with
    | ok ids j' =>
      rw [hrun] at hfind
      obtain ⟨-, -, objects', heq, hcontent⟩ := hfind
      cases heq
      obtain ⟨id', hid', ho'⟩ := List.mem_map.1 (hcontent ▸ List.mem_map_of_mem hmem)
      have his : j'.state.Is id' f := by rw [Is, ho', hf]; rfl
      have hyields : (Call.find type name matcher).Yields j f id' := by
        rw [Call.Yields, hrun]
        exact ⟨hid', his⟩
      rwa [← hyields.eq_of_keeps h htyped hid]
    | error e j' =>
      rw [hrun] at hfind
      cases hfind.2
  | object type name origin copy =>
    obtain ⟨rfl, rfl, rfl, rfl⟩ := hc
    have hobject := ends_object h f.type f.name (some f.origin) (some f.copy)
    rw [single_of_mem_collapse hf.symm htyped ho] at hobject
    cases hrun : Pool.object f.type f.name (some f.origin) (some f.copy) j with
    | ok id' j' =>
      rw [hrun] at hobject
      obtain ⟨-, -, o', heq, ho'⟩ := hobject
      cases heq
      have his : j'.state.Is id' f := by rw [Is, ho', hf]; rfl
      have hyields : (Call.object f.type f.name (some f.origin) (some f.copy)).Yields j f id' := by
        rw [Call.Yields, hrun]
        exact ⟨rfl, his⟩
      rwa [← hyields.eq_of_keeps h htyped hid]
    | error e j' =>
      rw [hrun] at hobject
      cases hobject.2.2
  | link | addSets _ | setCaching _ | hold _ | release _ => exact False.elim hc

/-- **The instance that a pool keeps is the one for its fingerprint.** -/
theorem Sound.stands : Stands j f id where
  unique c id' hid' := hid'.eq_of_keeps h htyped hid
  found c hc := yields_of_asks h htyped hid hc
  slot slot hslot := by
    have hlinked := linked_after_call h
    have hrenews := Call.renews h .link (by rwa [Call.adds, List.append_nil])
    rw [hlinked.slot_eq hslot, hlinked.resolve_eq htyped (hrenews.spared f id hid not_false)]

end

/-- **An instance stands until its fingerprint is given up.**  Once a pool that keeps its instances
has handed one out, the same one is handed out for the fingerprint as long as no call adds an object
with it or turns caching off, whatever the calls do to other objects.  Behind such a call the instance
is never handed out again. -/
theorem instance_stands (registry : Registry) (notes : Array Note) (history : List Call) (c : Call)
    (later : List Call) (f : Fingerprint) (id : InstanceId)
    (htyped : ∀ s ∈ added (history ++ c :: later), s.Typed)
    (hcaching : (after registry notes history).state.caching = true)
    (hid : c.Yields (after registry notes history) f id) :
    ((∀ d ∈ later, ¬ d.Drops f) →
      Stands (after registry notes (history ++ c :: later)) f id ∧
        (after registry notes (history ++ c :: later)).state.content id =
          (after registry notes (history ++ [c])).state.content id) ∧
    ((∃ d ∈ later, d.Drops f) →
      ∀ d g, ¬ Call.Yields d (after registry notes (history ++ c :: later)) g id) := by
  rw [List.append_cons] at htyped ⊢
  have hbefore : ∀ s ∈ added history, s.Typed := by
    intro s hs
    refine htyped s ?_
    rw [added, List.append_assoc, List.flatMap_append]
    exact List.mem_append_left _ hs
  have hlast := sound_after registry notes (history ++ [c] ++ later)
  -- what is handed out while caching is on is kept behind the call
  have hhands := hid.hands (sound_after registry notes history) hbefore
  rw [← after_concat] at hhands
  have hkept := hhands.kept (.inl hcaching)
  have hrenews := renews_after registry notes (history ++ [c]) later htyped
  obtain ⟨o, ho, -⟩ := Option.map_eq_some_iff.1 hhands.is
  constructor
  · intro hspares
    refine ⟨hlast.stands htyped (hrenews.spared f id hkept ?_), ?_⟩
    · rintro ⟨d, hd, hdrops⟩
      exact hspares d hd hdrops
    · rw [ho, hrenews.content id o ho]
  · intro hdrops d g hid'
    -- the number is an old one, so the pool must have kept the instance all along
    have hlt := Nat.lt_of_lt_of_le (lt_of_is hhands.is) hrenews.size_le
    have hback := (hid'.hands hlast htyped).old hlt
    exact hrenews.not_keeps (sound_after registry notes (history ++ [c])) hkept hdrops g hback

/-- A set with two objects, the first of which refers to the second. -/
def pairSet : ObjectSet :=
  ⟨"T", none, .plain, 3, [⟨⟨"T", "A", 1, 0⟩, [⟨"L", 1, 24, "", [.reference "T" ⟨1, 0, "B"⟩]⟩]⟩,
    ⟨⟨"T", "B", 1, 0⟩, []⟩]⟩

/-- A set that declares the second object once more. -/
def secondSet : ObjectSet := ⟨"T", none, .plain, 3, [⟨⟨"T", "B", 1, 0⟩, []⟩]⟩

/-- The objects are linked, and then the second one is replaced. -/
def replacing : List Call := [.link, .addSets [secondSet]]

/-- The first instance stands, the second one is gone, and there is a third one in its place. -/
theorem instance_stands_pairSet :
    (∀ s ∈ added ([.addSets [pairSet]] ++ .find "T" none .exact :: replacing), s.Typed) ∧
      (Call.find "T" none .exact).Yields (after .empty #[] [.addSets [pairSet]]) ⟨"T", "A", 1, 0⟩ 0 ∧
      (Call.find "T" none .exact).Yields (after .empty #[] [.addSets [pairSet]]) ⟨"T", "B", 1, 0⟩ 1 ∧
      Stands (after .empty #[] ([.addSets [pairSet]] ++ .find "T" none .exact :: replacing))
        ⟨"T", "A", 1, 0⟩ 0 ∧
      (∀ d g, ¬ Call.Yields d
        (after .empty #[] ([.addSets [pairSet]] ++ .find "T" none .exact :: replacing)) g 1) ∧
      (Call.object "T" "B" none none).Yields
        (after .empty #[] ([.addSets [pairSet]] ++ .find "T" none .exact :: replacing))
        ⟨"T", "B", 1, 0⟩ 2 := by
  have htyped : ∀ s ∈ added ([.addSets [pairSet]] ++ .find "T" none .exact :: replacing),
      s.Typed := by
    intro s hs
    have hsets : s = pairSet ∨ s = secondSet := by
      simpa [added, Call.adds, replacing] using hs
    rcases hsets with rfl | rfl
    · intro o ho
      fin_cases ho <;> rfl
    · intro o ho
      fin_cases ho
      rfl
  have hfirst : (Call.find "T" none .exact).Yields (after .empty #[] [.addSets [pairSet]])
      ⟨"T", "A", 1, 0⟩ 0 := by
    cbv
    exact ⟨.head _, trivial⟩
  have hsecond : (Call.find "T" none .exact).Yields (after .empty #[] [.addSets [pairSet]])
      ⟨"T", "B", 1, 0⟩ 1 := by
    cbv
    exact ⟨.tail _ (.head _), trivial⟩
  refine ⟨htyped, hfirst, hsecond, ?_, ?_, by cbv⟩
  · exact ((instance_stands .empty #[] [.addSets [pairSet]] (.find "T" none .exact) replacing
      ⟨"T", "A", 1, 0⟩ 0 htyped (by cbv) hfirst).1 (by decide)).1
  · exact (instance_stands .empty #[] [.addSets [pairSet]] (.find "T" none .exact) replacing
      ⟨"T", "B", 1, 0⟩ 1 htyped (by cbv) hsecond).2 (by decide)

end Pool

end WellLog
