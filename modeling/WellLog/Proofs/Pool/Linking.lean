import WellLog.Proofs.Pool.Query
import WellLog.Proofs.Pool.Report
/-!
# Linked pools

Linking keeps the instances of all types, and then gives every instance the links of its object.
Those do not depend on the links that the instance had before, so linking a linked pool changes
nothing.

* `Pool.linkInstance_eq` : what linking does to one instance.
* `Pool.Linked` : all instances are kept and have their links.
* `Pool.ends_link` : **linking a sound pool** links it, and reports on what the sets declare.
* `Pool.ends_link_of_linked` : linking again changes nothing.
* `Pool.ends_find_of_kept` : a query of a linked pool changes nothing either, and returns the instances
  that are linked.
-/

namespace WellLog.Pool

variable {ε : Type} {registry : Registry} {sets : List ObjectSet} {p : Pool}
  {all : List (Fingerprint × InstanceId)} {o : RawObject} {i : Instance}
  {id : InstanceId} {ids : List InstanceId} {j : Journalled Pool}

/-! ### One instance -/

/-- The slots of the references of an object, where `all` are the instances that they can lead to. -/
def slotsOf (registry : Registry) (all : List (Fingerprint × InstanceId)) (o : RawObject) :
    List (String × List (Option InstanceId)) :=
  (registry.references o).map fun r => (r.1, r.2.map (resolve all))

/-- The links of an object.  Slots of a later attribute take the place of those under the same label. -/
def linksOf (registry : Registry) (all : List (Fingerprint × InstanceId)) (o : RawObject) :
    List (String × List (Option InstanceId)) :=
  Table.putAll (slotsOf registry all o) []

/-- The instance with the slots of its references, over the links that it had before. -/
def linkedAs (registry : Registry) (all : List (Fingerprint × InstanceId)) (i : Instance) : Instance :=
  ⟨i.raw, Table.putAll (slotsOf registry all i.raw) i.links⟩

/-- The labels of the slots are those of the references. -/
theorem map_fst_slotsOf (registry : Registry) (all : List (Fingerprint × InstanceId))
    (o : RawObject) : (slotsOf registry all o).map (·.1) = (registry.references o).map (·.1) := by
  rw [slotsOf, List.map_map]
  rfl

/-- **The links of an instance are those of its object**, whatever they were before. -/
theorem linkedAs_of_labelled (h : i.Labelled registry) (all : List (Fingerprint × InstanceId)) :
    linkedAs registry all i = ⟨i.raw, linksOf registry all i.raw⟩ := by
  rw [linkedAs, h.ordered.putAll_eq]
  · rfl
  · -- every label that has links gets new ones
    intro k hk
    rw [map_fst_slotsOf]
    exact h.known k hk

theorem labelled_linkedAs (h : i.Labelled registry) : (linkedAs registry all i).Labelled registry where
  ordered := h.ordered.putAll
  known label hlabel := by
    rcases Table.mem_keys_putAll.1 hlabel with hnew | hold
    · rwa [map_fst_slotsOf] at hnew
    · exact h.known label hold

/-- The pool with one instance linked. -/
def relink (all : List (Fingerprint × InstanceId)) (p : Pool) (id : InstanceId) : Pool :=
  { p with promoted := p.promoted.modify id (linkedAs p.registry all) }

theorem registry_relink : (relink all p id).registry = p.registry := rfl

theorem instance?_relink (id' : InstanceId) :
    (relink all p id).instance? id' =
      if id = id' then (p.instance? id').map (linkedAs p.registry all) else p.instance? id' :=
  Array.getElem?_modify

/-- Linking does not change what instances are. -/
theorem content_relink : (relink all p id).content = p.content := by
  funext id'
  rw [content, instance?_relink, content]
  split
  · rw [Option.map_map]
    rfl
  · rfl

theorem Sound.relink (h : Sound registry sets p) (all : List (Fingerprint × InstanceId))
    (id : InstanceId) : Sound registry sets (relink all p id) where
  registry_eq := h.registry_eq
  ordered := h.ordered
  mem_types := h.mem_types
  objectsOf_eq := h.objectsOf_eq
  holds t b hb := by
    rw [content_relink]
    exact h.holds t b hb
  labelled id' i hi := by
    rw [instance?_relink, h.registry_eq] at hi
    split at hi
    · obtain ⟨old, hold, rfl⟩ := Option.map_eq_some_iff.1 hi
      exact labelled_linkedAs (h.labelled id' old hold)
    · exact h.labelled id' i hi

/-- The report with the references of an object. -/
def reportObject (registry : Registry) (all : List (Fingerprint × InstanceId)) (report : LinkReport)
    (o : RawObject) : LinkReport :=
  (registry.citations o).foldl (LinkReport.count fun f => (resolve all f).isSome) report

theorem reportSlots_eq (source : Fingerprint) (label : String) (report : LinkReport)
    (targets : List Fingerprint) :
    reportSlots source label report (targets.map fun target => (target, resolve all target)) =
      (targets.map fun target => (⟨source, label, target⟩ : Dangling)).foldl
        (LinkReport.count fun f => (resolve all f).isSome) report := by
  rw [reportSlots, List.foldl_map, List.foldl_map]
  congr 1
  funext report target
  rw [LinkReport.count]
  cases hslot : resolve all target with
  | none => simp
  | some id => simp

theorem relink_of_none (h : p.instance? id = none) : relink all p id = p := by
  have hsame : p.promoted.modify id (linkedAs p.registry all) = p.promoted := by
    refine Array.ext_getElem? fun id' => ?_
    rw [Array.getElem?_modify]
    split
    · rename_i heq
      rw [← heq, ← instance?, h]
      rfl
    · rfl
  rw [relink, hsame]

theorem relink_of_some (h : p.instance? id = some i) :
    relink all p id =
      { p with promoted := p.promoted.setIfInBounds id (linkedAs p.registry all i) } := by
  have hset : p.promoted.modify id (linkedAs p.registry all) =
      p.promoted.setIfInBounds id (linkedAs p.registry all i) := by
    refine Array.ext_getElem? fun id' => ?_
    rw [Array.getElem?_modify, Array.getElem?_setIfInBounds]
    split
    · rename_i heq
      rw [← heq, ← instance?, h, if_pos (Array.getElem?_eq_some_iff.1 h).1]
      rfl
    · rfl
  rw [relink, hset]

/-- **Linking one instance** gives it the slots of its references, and counts them. -/
theorem linkInstance_eq (all : List (Fingerprint × InstanceId)) (report : LinkReport)
    (id : InstanceId) (j : Journalled Pool) :
    (linkInstance all report id j : EStateM.Result ε _ _) =
      .ok ((j.state.content id).elim report (reportObject j.state.registry all report))
        ⟨relink all j.state id, j.notes⟩ := by
  unfold linkInstance
  rw [bind_state, content]
  cases hi : j.state.instance? id with
  | none =>
    rw [relink_of_none hi]
    rfl
  | some i =>
    have hlinks : ∀ links : List (String × List (Option InstanceId)),
        ((j.state.registry.references i.raw).map fun r =>
          (r.1, r.2.map fun target => (target, resolve all target))).foldl
            (fun links r => setLinks r.1 (r.2.map (·.2)) links) links =
          Table.putAll (slotsOf j.state.registry all i.raw) links := by
      intro links
      rw [Table.putAll, slotsOf, List.foldl_map, List.foldl_map]
      congr 1
      funext links r
      rw [setLinks_eq_upsert, List.map_map]
      rfl
    have hreport : ((j.state.registry.references i.raw).map fun r =>
          (r.1, r.2.map fun target => (target, resolve all target))).foldl
            (fun report r => reportSlots i.raw.fingerprint r.1 report r.2) report =
          reportObject j.state.registry all report i.raw := by
      rw [reportObject, ← Registry.flatMap_references, List.foldl_flatMap, List.foldl_map]
      congr 1
      funext report r
      exact reportSlots_eq i.raw.fingerprint r.1 report r.2
    simp only [hlinks, hreport]
    rw [relink_of_some hi]
    rfl

/-! ### All instances -/

/-- The pool with instances linked, one after the other. -/
def relinkAll (all : List (Fingerprint × InstanceId)) (p : Pool) (ids : List InstanceId) : Pool :=
  ids.foldl (relink all) p

theorem relinkAll_cons : relinkAll all p (id :: ids) = relinkAll all (relink all p id) ids := rfl

/-- Only instances change. -/
theorem relinkAll_eq (all : List (Fingerprint × InstanceId)) (p : Pool) (ids : List InstanceId) :
    relinkAll all p ids = { p with promoted := (relinkAll all p ids).promoted } := by
  induction ids generalizing p with
  | nil => rfl
  | cons id ids ih =>
    rw [relinkAll_cons, ih]
    rfl

theorem types_relinkAll : (relinkAll all p ids).types = p.types := by
  rw [relinkAll_eq]
  rfl

theorem cache_relinkAll : (relinkAll all p ids).cache = p.cache := by
  rw [relinkAll_eq]

theorem content_relinkAll : (relinkAll all p ids).content = p.content := by
  induction ids generalizing p with
  | nil => rfl
  | cons id ids ih => rw [relinkAll_cons, ih, content_relink]

theorem Sound.relinkAll (h : Sound registry sets p) (all : List (Fingerprint × InstanceId))
    (ids : List InstanceId) : Sound registry sets (relinkAll all p ids) := by
  induction ids generalizing p with
  | nil => exact h
  | cons id ids ih => exact ih (h.relink all id)

/-- Every instance that is linked has the links of its object. -/
theorem Sound.instance?_relinkAll (h : Sound registry sets p)
    (all : List (Fingerprint × InstanceId)) (ids : List InstanceId) (id : InstanceId) :
    (Pool.relinkAll all p ids).instance? id =
      if id ∈ ids then (p.content id).map fun o => ⟨o, linksOf registry all o⟩
      else p.instance? id := by
  induction ids generalizing p with
  | nil => rfl
  | cons first ids ih =>
    rw [relinkAll_cons, ih (h.relink all first), content_relink, instance?_relink]
    by_cases hid : id ∈ ids
    · simp [hid]
    · by_cases hfirst : first = id
      · subst hfirst
        rw [if_neg hid, if_pos rfl, if_pos List.mem_cons_self, content, Option.map_map,
          h.registry_eq]
        refine Option.map_congr fun i hi => ?_
        exact linkedAs_of_labelled (h.labelled first i hi) all
      · rw [if_neg hid, if_neg hfirst, if_neg (by simp [hid, Ne.symm hfirst])]

theorem foldlM_linkInstance (all members : List (Fingerprint × InstanceId)) (report : LinkReport)
    (j : Journalled Pool) :
    (members.foldlM (fun report m => linkInstance all report m.2) report j :
        EStateM.Result ε _ _) =
      .ok ((members.filterMap fun m => j.state.content m.2).foldl
          (reportObject j.state.registry all) report)
        ⟨relinkAll all j.state (members.map (·.2)), j.notes⟩ := by
  induction members generalizing report j with
  | nil => rfl
  | cons m members ih =>
    rw [List.foldlM_cons]
    simp only [bind, EStateM.bind]
    rw [linkInstance_eq]
    simp only
    rw [ih, content_relink, registry_relink, List.map_cons, relinkAll_cons]
    cases hm : j.state.content m.2 with
    | none => simp only [List.filterMap_cons, hm, Option.elim_none]
    | some o => simp only [List.filterMap_cons, hm, Option.elim_some, List.foldl_cons]

/-! ### Buckets of all types -/

/-- The instances that are kept, by type. -/
def members (p : Pool) : List (Fingerprint × InstanceId) :=
  p.types.flatMap fun t => ((p.cache.lookup t).map (·.members)).getD []

/-- The instances of all types are kept. -/
def AllKept (p : Pool) : Prop := ∀ t ∈ p.types, ∃ b, p.cache.lookup t = some b

/-- **The instances that are kept are those of the objects that the sets declare.** -/
theorem Sound.map_members (h : Sound registry sets p) (hkept : AllKept p) :
    p.members.map (fun m => (m.1, p.content m.2)) =
      (ObjectSet.contents sets).map fun o => (o.fingerprint, some o) := by
  rw [members, List.map_flatMap, ObjectSet.contents, List.map_flatMap, ← h.types_eq]
  refine List.flatMap_congr fun t ht => ?_
  obtain ⟨b, hb⟩ := hkept t ht
  rw [hb]
  exact (h.holds t b hb).members

theorem Sound.map_fst_members (h : Sound registry sets p) (hkept : AllKept p) :
    p.members.map (·.1) = (ObjectSet.contents sets).map (·.fingerprint) := by
  have hkeys := congrArg (List.map Prod.fst) (h.map_members hkept)
  simpa only [List.map_map, Function.comp_def] using hkeys

theorem Sound.filterMap_members (h : Sound registry sets p) (hkept : AllKept p) :
    (p.members.filterMap fun m => p.content m.2) = ObjectSet.contents sets := by
  have hobjects := congrArg (List.filterMap Prod.snd) (h.map_members hkept)
  rw [List.filterMap_map, List.filterMap_map] at hobjects
  exact hobjects.trans List.filterMap_some

theorem isSome_resolve_iff {f : Fingerprint} :
    (resolve all f).isSome = true ↔ f ∈ all.map (·.1) := by
  rw [resolve, Table.isSome_lookup_iff, List.map_reverse, List.mem_reverse]

/-- A reference is resolved if there is an object for it. -/
theorem Sound.isSome_resolve (h : Sound registry sets p) (hkept : AllKept p) (f : Fingerprint) :
    (resolve p.members f).isSome = (ObjectSet.contents sets).any (·.fingerprint == f) := by
  rw [Bool.eq_iff_iff, isSome_resolve_iff, h.map_fst_members hkept]
  simp

/-- The buckets of all types are what the pool keeps. -/
theorem flatMap_members_of_forall₂ {types : List String} {buckets : List Bucket}
    (h : List.Forall₂ (fun t b => p.cache.lookup t = some b) types buckets) :
    (∀ t ∈ types, ∃ b, p.cache.lookup t = some b) ∧
      buckets.flatMap (·.members) =
        types.flatMap fun t => ((p.cache.lookup t).map (·.members)).getD [] := by
  induction h with
  | nil => exact ⟨nofun, rfl⟩
  | @cons t b types buckets hb _ ih =>
    constructor
    · intro t' ht'
      rcases List.mem_cons.1 ht' with rfl | ht'
      · exact ⟨b, hb⟩
      · exact ih.1 t' ht'
    · rw [List.flatMap_cons, List.flatMap_cons, ih.2, hb]
      rfl

theorem ends_keepAll (h : Sound registry sets j.state) :
    Ends (fun buckets j' => Sound registry sets j'.state ∧ AllKept j'.state ∧
        buckets.flatMap (·.members) = j'.state.members)
      (fun _ _ => False) (j.state.types.mapM keptBucket j : EStateM.Result ε _ _) := by
  refine (ends_mapM (I := fun j' => Sound registry sets j'.state ∧ Grows j.state j'.state)
    (R := fun t b j' => j'.state.cache.lookup t = some b) ?_ ⟨h, .refl _⟩).mono ?_ fun _ _ => id
  · rintro t - j' ⟨hsound, hgrows⟩
    refine (ends_keptBucket hsound t).mono ?_ fun _ _ => id
    rintro b j'' ⟨hsound', hgrows', hb⟩
    exact ⟨⟨hsound', hgrows.trans hgrows'⟩, hb, fun t' b' => hgrows'.kept t' b'⟩
  · rintro buckets j' ⟨⟨hsound, hgrows⟩, hbuckets, -⟩
    have htypes : j.state.types = j'.state.types := by
      rw [types, ← hgrows.declared, types]
    rw [htypes] at hbuckets
    exact ⟨hsound, flatMap_members_of_forall₂ hbuckets⟩

theorem ends_keepAll_of_kept (h : AllKept j.state) :
    Ends (fun buckets j' => j' = j ∧ buckets.flatMap (·.members) = j.state.members)
      (fun _ _ => False) (j.state.types.mapM keptBucket j : EStateM.Result ε _ _) := by
  refine (ends_mapM (I := (· = j)) (R := fun t b j' => j'.state.cache.lookup t = some b) ?_
    rfl).mono ?_ fun _ _ => id
  · rintro t ht _ rfl
    obtain ⟨b, hb⟩ := h t ht
    rw [keptBucket_of_kept hb]
    exact ⟨rfl, hb, fun _ _ => id⟩
  · rintro buckets j' ⟨rfl, hbuckets, -⟩
    exact ⟨rfl, (flatMap_members_of_forall₂ hbuckets).2⟩

/-! ### Linking -/

/-- Linking keeps the buckets of all types, links what is in them, and makes notes. -/
theorem ends_link_steps {R : List Bucket → Journalled Pool → Prop}
    (hkeep : Ends R (fun _ _ => False) (j.state.types.mapM keptBucket j : EStateM.Result ε _ _)) :
    Ends (fun report j' => ∃ buckets kept, R buckets kept ∧
        report = ((buckets.flatMap (·.members)).filterMap fun m => kept.state.content m.2).foldl
          (reportObject kept.state.registry (buckets.flatMap (·.members))) ⟨0, []⟩ ∧
        j'.state = relinkAll (buckets.flatMap (·.members)) kept.state
          ((buckets.flatMap (·.members)).map (·.2)))
      (fun _ _ => False) (link j : EStateM.Result ε _ _) := by
  unfold link
  rw [bind_state, ends_bind]
  refine hkeep.mono ?_ fun _ _ => id
  intro buckets kept hR
  rw [ends_bind, foldlM_linkInstance, ends_ok, ends_bind]
  refine (ends_forM_note _ _ _).mono ?_ fun _ _ => id
  intro _ noted hnoted
  refine ends_noted fun noted' hnoted' => ?_
  rw [ends_pure]
  exact ⟨buckets, kept, hR, rfl, hnoted'.trans hnoted⟩

/-- **A linked pool**: all instances are kept, and they have the links of their objects. -/
structure Linked (registry : Registry) (sets : List ObjectSet) (p : Pool) : Prop where
  /-- The pool is sound. -/
  sound : Sound registry sets p
  /-- The instances of all types are kept. -/
  kept : AllKept p
  /-- They have the links of their objects. -/
  linked : ∀ m ∈ p.members,
    p.instance? m.2 = (p.content m.2).map fun o => ⟨o, linksOf registry p.members o⟩

/-- What is counted are the references of all objects. -/
theorem foldl_reportObject (registry : Registry) (all : List (Fingerprint × InstanceId))
    (objects : List RawObject) (report : LinkReport) :
    objects.foldl (reportObject registry all) report =
      (objects.flatMap registry.citations).foldl
        (LinkReport.count fun f => (resolve all f).isSome) report := by
  rw [List.foldl_flatMap]
  rfl

/-- **Linking a sound pool** links it, and reports on what the sets declare. -/
theorem ends_link (h : Sound registry sets j.state) :
    Ends (fun report j' => report = ObjectSet.linkReport registry sets ∧
        Linked registry sets j'.state)
      (fun _ _ => False) (link j : EStateM.Result ε _ _) := by
  refine (ends_link_steps (ends_keepAll h)).mono ?_ fun _ _ => id
  rintro report j' ⟨buckets, kept, ⟨hsound, hkept, hmembers⟩, rfl, hj'⟩
  rw [hmembers] at hj' ⊢
  constructor
  · have hthere : (fun f => (resolve kept.state.members f).isSome) = fun f =>
        (ObjectSet.contents sets).any (·.fingerprint == f) := funext (hsound.isSome_resolve hkept)
    rw [hsound.filterMap_members hkept, foldl_reportObject, hthere, LinkReport.foldl_count,
      hsound.registry_eq]
    rfl
  · have hsame : j'.state.members = kept.state.members := by
      rw [hj', members, types_relinkAll, cache_relinkAll, members]
    refine ⟨?_, ?_, ?_⟩
    · rw [hj']
      exact hsound.relinkAll _ _
    · rw [hj', AllKept, types_relinkAll, cache_relinkAll]
      exact hkept
    · intro m hm
      rw [hsame] at hm ⊢
      rw [hj', hsound.instance?_relinkAll, if_pos (List.mem_map_of_mem hm), content_relinkAll]

/-- Where all instances have their links, linking them does not change them. -/
theorem Sound.relinkAll_eq (h : Sound registry sets p)
    (hlinked : ∀ id ∈ ids, p.instance? id = (p.content id).map fun o => ⟨o, linksOf registry all o⟩) :
    Pool.relinkAll all p ids = p := by
  have hpromoted : (Pool.relinkAll all p ids).promoted = p.promoted := by
    refine Array.ext_getElem? fun id => ?_
    rw [← instance?, ← instance?, h.instance?_relinkAll]
    split
    · rename_i hid
      exact (hlinked id hid).symm
    · rfl
  rw [Pool.relinkAll_eq, hpromoted]

/-- **Linking a linked pool changes nothing.** -/
theorem ends_link_of_linked (h : Linked registry sets j.state) :
    Ends (fun _ j' => j'.state = j.state) (fun _ _ => False)
      (link j : EStateM.Result ε _ _) := by
  refine (ends_link_steps (ends_keepAll_of_kept h.kept)).mono ?_ fun _ _ => id
  rintro report j' ⟨buckets, kept, ⟨rfl, hmembers⟩, -, hj'⟩
  rw [hj', hmembers]
  refine h.sound.relinkAll_eq fun id hid => ?_
  obtain ⟨m, hm, rfl⟩ := List.mem_map.1 hid
  exact h.linked m hm

/-! ### Queries of linked pools -/

theorem mem_members_iff {m : Fingerprint × InstanceId} :
    m ∈ p.members ↔ ∃ t ∈ p.types, ∃ b, p.cache.lookup t = some b ∧ m ∈ b.members := by
  rw [members, List.mem_flatMap]
  refine exists_congr fun t => and_congr_right fun _ => ?_
  cases p.cache.lookup t with
  | none => simp
  | some b => simp

/-- **A query of a linked pool** changes nothing, and returns instances that are kept. -/
theorem ends_find_of_kept (h : Sound registry sets j.state) (hkept : AllKept j.state) (type : String)
    (name : Option String) (matcher : Matcher) :
    Ends (fun ids j' => j' = j ∧ ∀ id ∈ ids, id ∈ j.state.members.map (·.2)) (fun _ j' => j' = j)
      (find type name matcher j) := by
  rw [find_eq]
  cases hname : name.mapM matcher.compile? with
  | none => exact rfl
  | some name =>
    cases htype : matcher.compile? type with
    | none => exact rfl
    | some type =>
      simp only
      rw [map_eq_pure_bind, ends_bind]
      refine (ends_mapM (I := (· = j))
        (R := fun t ids _ => ids.map id = ((j.state.cache.lookup t).map (·.select name)).getD [])
        ?_ rfl).mono ?_ fun _ _ => False.elim
      · rintro t ht _ rfl
        obtain ⟨b, hb⟩ := hkept t (List.mem_filter.1 ht).1
        rw [map_eq_pure_bind, ends_bind, bucket_of_kept hb]
        refine ⟨rfl, ?_, fun _ _ => id⟩
        rw [hb, List.map_id]
        rfl
      · rintro found j' ⟨rfl, hfound, -⟩
        refine ⟨rfl, fun id hid => ?_⟩
        have hflat := map_flatten_of_forall₂ hfound
        rw [List.map_id] at hflat
        rw [hflat, List.mem_flatMap] at hid
        obtain ⟨t, ht, hid⟩ := hid
        have htype := (List.mem_filter.1 ht).1
        obtain ⟨b, hb⟩ := hkept t htype
        rw [hb, Option.map_some, Option.getD_some, (h.holds t b hb).select_eq] at hid
        obtain ⟨m, hm, rfl⟩ := List.mem_map.1 hid
        exact List.mem_map_of_mem
          (mem_members_iff.2 ⟨t, htype, b, hb, (List.mem_filter.1 hm).1⟩)

end WellLog.Pool
