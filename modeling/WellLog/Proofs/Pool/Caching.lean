import WellLog.Proofs.Mirror
import WellLog.Proofs.Pool.Linking
/-!
# Pools that keep instances, and pools that do not

The setting of a pool decides which of the promoted instances are kept, and so which of them live and
whether the next query promotes anew.  It does not decide what a query returns, as long as no type is
asked for twice: then both pools promote the same objects in the same order, and their instances have
the same numbers.

Linking keeps all instances in any case, so links lead to the same instances whatever the setting is.
A pool that was not linked has no links at all.

* `Pool.synced_link` : **linking takes no notice of the setting**.
* `Pool.Parallel` : pools with the same instances, and types that they were not asked for yet.
* `Pool.agree_bucket`, `Pool.agree_find` : **a query for such types finds the same instances**.
* `Pool.Settled.parallel` : pools are parallel for all of their types before the first query.
* `Pool.Parallel.linked_eq` : what is linked is the same.
-/

namespace WellLog.Pool

variable {ε : Type} {H : ε → Prop} {p p' : Pool} {ts rest : List String} {type t : String}
  {b : Bucket} {raw : RawObject} {id : InstanceId}

/-! ### Promotion -/

section Promotion

variable {R : Pool → Pool → Prop} (hsame : ∀ p p', R p p' → p'.promoted = p.promoted)
  (hmore : ∀ p p' raw, R p p' → R (p.withInstances [raw]) (p'.withInstances [raw]))
include hsame hmore

/-- Where the same instances were promoted, the next one is the same. -/
theorem synced_promote (b : Bucket) (raw : RawObject) :
    Mirrors H (Synced R) Eq (promote b raw : Logged ε Pool _) (promote b raw : Logged ε Pool _) := by
  unfold promote
  refine .bind_state_synced fun p p' hp => ?_
  have hadd : Mirrors H (Synced R) Eq
      ((modify fun j => { j with state.promoted := j.state.promoted.push ⟨raw, []⟩ }) >>= fun _ =>
        pure (b.put raw.fingerprint p.promoted.size) : Logged ε Pool Bucket)
      ((modify fun j => { j with state.promoted := j.state.promoted.push ⟨raw, []⟩ }) >>= fun _ =>
        pure (b.put raw.fingerprint p.promoted.size) : Logged ε Pool Bucket) := by
    refine .bind_eq (.modify fun j j' hj => ⟨hj.1, ?_⟩) fun _ => .pure rfl
    have hpush := hmore _ _ raw hj.2
    rwa [withInstances_singleton, withInstances_singleton] at hpush
  simp only [instance?, hsame p p' hp]
  split
  · split
    · exact .bind_note_synced hadd
    · exact hadd
  · exact hadd

theorem synced_promoteAll (b : Bucket) (objects : List RawObject) :
    Mirrors H (Synced R) Eq (promoteAll b objects : Logged ε Pool _)
      (promoteAll b objects : Logged ε Pool _) :=
  .foldlM (synced_promote hsame hmore) b objects

end Promotion

/-! ### Linking -/

/-- The pools differ in whether instances are kept from now on. -/
def Recached (p p' : Pool) : Prop := ∃ on, p' = { p with caching := on }

theorem synced_keptBucket (type : String) :
    Mirrors H (Synced Recached) Eq (keptBucket type : Logged ε Pool _)
      (keptBucket type : Logged ε Pool _) := by
  refine .bind_state_synced ?_
  rintro p _ ⟨on, rfl⟩
  simp only
  cases p.cache.lookup type with
  | some b => exact .pure rfl
  | none =>
    refine .bind_eq (synced_promoteAll ?_ ?_ _ _) fun b => .bind_eq (.modify ?_) fun _ => .pure rfl
    · rintro p _ ⟨on, rfl⟩
      rfl
    · rintro p _ raw ⟨on, rfl⟩
      exact ⟨on, rfl⟩
    · rintro ⟨p, notes⟩ ⟨_, notes'⟩ ⟨hnotes, on, rfl⟩
      exact ⟨hnotes, on, rfl⟩

theorem synced_linkInstance (members : List (Fingerprint × InstanceId)) (report : LinkReport)
    (id : InstanceId) :
    Mirrors H (Synced Recached) Eq (linkInstance members report id : Logged ε Pool _)
      (linkInstance members report id : Logged ε Pool _) := by
  refine .bind_state_synced ?_
  rintro p _ ⟨on, rfl⟩
  simp only [instance?]
  cases p.promoted[id]? with
  | none => exact .pure rfl
  | some i =>
    refine .bind_eq (.modify ?_) fun _ => .pure rfl
    rintro ⟨p, notes⟩ ⟨_, notes'⟩ ⟨hnotes, on, rfl⟩
    exact ⟨hnotes, on, rfl⟩

/-- **Linking takes no notice of whether instances are kept.** -/
theorem synced_link :
    Mirrors H (Synced Recached) Eq (link : Logged ε Pool _) (link : Logged ε Pool _) := by
  refine .bind_state_synced ?_
  rintro p _ ⟨on, rfl⟩
  refine .bind_eq (.mapM synced_keptBucket _) fun buckets => ?_
  refine .bind_eq (.foldlM (fun report (m : Fingerprint × InstanceId) =>
    synced_linkInstance _ report m.2) _ _) fun report => ?_
  exact .bind_eq (.forM (fun d => .note_synced _ _) _) fun _ => .bind_note_synced (.pure rfl)

/-! ### Pools that differ in what they keep -/

/-- No instance has links. -/
def Unlinked (p : Pool) : Prop := ∀ id i, p.instance? id = some i → i.links = []

theorem Unlinked.withInstances (h : Unlinked p) (objects : List RawObject) :
    Unlinked (p.withInstances objects) := by
  intro id i hi
  rcases of_instance?_withInstances hi with hold | ⟨o, -, rfl⟩
  · exact h id i hold
  · rfl

/-- The same objects were promoted in both pools, which were not asked for the types `ts` yet. -/
structure Parallel (ts : List String) (p p' : Pool) : Prop where
  /-- The objects. -/
  declared : p'.declared = p.declared
  /-- The schemas. -/
  registry : p'.registry = p.registry
  /-- The instances. -/
  promoted : p'.promoted = p.promoted
  /-- Those that someone holds. -/
  holds : p'.holds = p.holds
  /-- No type stands twice. -/
  nodup : p.types.Nodup
  /-- The types are among those of the pool, in order. -/
  asked : ts.Sublist p.types
  /-- Their instances are kept in both pools or in none. -/
  kept : ∀ t ∈ ts, p'.cache.lookup t = p.cache.lookup t
  /-- Where there are links, all instances are kept. -/
  links : p'.cache = p.cache ∧ AllKept p ∨ Unlinked p

namespace Parallel

theorem types (h : Parallel ts p p') : p'.types = p.types := by
  rw [Pool.types, h.declared, Pool.types]

theorem objectsOf (h : Parallel ts p p') (t : String) : p'.objectsOf t = p.objectsOf t := by
  rw [Pool.objectsOf, h.declared, Pool.objectsOf]

/-- Fewer types that were not asked for. -/
theorem mono (h : Parallel ts p p') (hrest : rest.Sublist ts) : Parallel rest p p' :=
  { h with
    asked := hrest.trans h.asked
    kept := fun t ht => h.kept t (hrest.subset ht) }

theorem withInstances (h : Parallel ts p p') (objects : List RawObject) :
    Parallel ts (p.withInstances objects) (p'.withInstances objects) :=
  { h with
    promoted := congrArg (· ++ _) h.promoted
    links := h.links.imp_right fun hbare => hbare.withInstances objects }

/-- Without links, either pool may keep what was promoted for another type. -/
theorem recache (h : Parallel ts p p') (hbare : Unlinked p) {cache cache' : List (String × Bucket)}
    (hkept : ∀ t ∈ ts, cache'.lookup t = cache.lookup t) :
    Parallel ts { p with cache } { p' with cache := cache' } :=
  { h with
    kept := hkept
    links := .inr hbare }

/-- **What is linked is the same.** -/
theorem linked_eq (h : Parallel ts p p') (id : InstanceId) :
    (p'.linkedLabels id).map (fun label => (label, p'.linked id label)) =
      (p.linkedLabels id).map fun label => (label, p.linked id label) := by
  have hinstance : p'.instance? id = p.instance? id := by
    rw [instance?, h.promoted, instance?]
  rw [linkedLabels, linkedLabels, hinstance]
  rcases h.links with ⟨hcache, -⟩ | hbare
  · have halive : p'.isAlive = p.isAlive := by
      funext target
      rw [isAlive, isAlive, hcache, h.holds]
    refine List.map_congr_left fun label _ => ?_
    rw [linked, linked, hinstance, halive]
  · cases hi : p.instance? id with
    | none => rfl
    | some i =>
      rw [Option.map_some, Option.getD_some, hbare id i hi]
      rfl

end Parallel

/-! ### Queries -/

variable {j j' : Journalled Pool}

/-- **The bucket of a type that was not asked for yet** is the same in both pools. -/
theorem agree_bucket (h : Synced (Parallel (t :: ts)) j j') :
    Agree (fun b k b' k' => b' = b ∧ Synced (Parallel ts) k k') SameFailure
      (bucket t j : EStateM.Result ε _ _) (bucket t j' : EStateM.Result ε _ _) := by
  obtain ⟨hnotes, h⟩ := h
  have hkept := h.kept t List.mem_cons_self
  have hothers := h.mono (List.sublist_cons_self t ts)
  cases hlookup : j.state.cache.lookup t with
  | some b =>
    rw [hlookup] at hkept
    rw [bucket_of_kept hlookup, bucket_of_kept hkept]
    exact ⟨rfl, hnotes, hothers⟩
  | none =>
    rw [hlookup] at hkept
    have hbare : Unlinked j.state := by
      refine h.links.resolve_left ?_
      rintro ⟨-, hall⟩
      obtain ⟨b, hb⟩ := hall t (h.asked.subset List.mem_cons_self)
      rw [hlookup] at hb
      cases hb
    have hpromote := synced_promoteAll (H := fun _ : ε => False)
      (R := fun p p' => Parallel ts p p' ∧ Unlinked p) (fun _ _ hp => hp.1.promoted)
      (fun _ _ raw hp => ⟨hp.1.withInstances [raw], hp.2.withInstances [raw]⟩)
      .empty (j.state.objectsOf t) j j' ⟨hnotes, hothers, hbare⟩
    unfold bucket
    rw [bind_state, bind_state, hlookup, hkept, h.objectsOf]
    refine agree_bind ((hpromote.agree fun _ => id).mono ?_ fun _ _ _ _ he => ⟨he.1, he.2.1⟩)
    rintro b ⟨p, notes⟩ _ ⟨p', notes'⟩ ⟨rfl, hnotes', hp, hbare'⟩
    obtain rfl : notes' = notes := hnotes'
    have hnew : t ∉ ts := (List.nodup_cons.1 (h.asked.nodup h.nodup)).1
    have hstore : ∀ cache, ∀ t' ∈ ts, (store t b cache).lookup t' = cache.lookup t' := by
      intro cache t' ht'
      rw [lookup_store, if_neg]
      rintro rfl
      exact hnew ht'
    refine agree_bind (agree_note.2 ?_)
    -- each of the pools keeps the bucket or does not; the other types take no notice
    split
    · split
      · exact ⟨rfl, rfl, hp.recache hbare' fun t' ht' => by
          rw [hstore _ t' ht', hstore _ t' ht', hp.kept t' ht']⟩
      · exact ⟨rfl, rfl, hp.recache hbare' fun t' ht' => by
          rw [hstore _ t' ht', hp.kept t' ht']⟩
    · split
      · exact ⟨rfl, rfl, hp.recache hbare' fun t' ht' => by
          rw [hstore _ t' ht', hp.kept t' ht']⟩
      · exact ⟨rfl, rfl, hp⟩

/-- **A query for types that were not asked for yet** finds the same instances in both pools. -/
theorem agree_find {name : Option String} {matcher : Matcher} (rest : List String)
    (h : Synced (Parallel ts) j j')
    (hts : ∀ n, matcher.compile? type = some n →
      (j.state.types.filter n.accepts ++ rest).Sublist ts) :
    Agree (fun ids k ids' k' => ids' = ids ∧ Synced (Parallel rest) k k') SameFailure
      (find type name matcher j) (find type name matcher j') := by
  rw [find_eq, find_eq, h.2.types]
  cases name.mapM matcher.compile? with
  | none => exact ⟨rfl, h.1⟩
  | some name =>
    cases htype : matcher.compile? type with
    | none => exact ⟨rfl, h.1⟩
    | some n =>
      simp only
      rw [map_eq_pure_bind]
      refine agree_bind ((agree_mapM (I := fun l => Synced (Parallel (l ++ rest)))
        ⟨h.1, h.2.mono (hts n htype)⟩ ?_).mono ?_ fun _ _ _ _ => id)
      · intro t l k k' hk
        rw [map_eq_pure_bind]
        refine agree_bind ((agree_bucket hk).mono ?_ fun _ _ _ _ => id)
        rintro b u _ u' ⟨rfl, hu⟩
        exact ⟨rfl, hu⟩
      · rintro found k _ k' ⟨rfl, hk⟩
        exact ⟨rfl, hk⟩

/-! ### Before the first query -/

/-- The pool is sound, and where there are links, all instances are kept. -/
structure Settled (p : Pool) : Prop where
  /-- The pool is sound for some sets. -/
  sound : ∃ registry sets, Sound registry sets p
  /-- Where there are links, all instances are kept. -/
  links : AllKept p ∨ Unlinked p

/-- **Before the first query**, pools that differ in the setting are parallel for all types. -/
theorem Settled.parallel (h : Settled p) (hp : Recached p p') : Parallel p.types p p' := by
  obtain ⟨on, rfl⟩ := hp
  obtain ⟨registry, sets, hsound⟩ := h.sound
  refine ⟨rfl, rfl, rfl, rfl, ?_, .refl _, fun _ _ => rfl,
    h.links.imp_left fun hkept => ⟨rfl, hkept⟩⟩
  rw [hsound.types_eq]
  exact ObjectSet.nodup_typesOf sets

/-- Linking leaves the pool so. -/
theorem Settled.ends_link (h : Settled j.state) :
    Ends (fun _ k => Settled k.state) (fun _ _ => True) (link j : EStateM.Result ε _ _) := by
  obtain ⟨registry, sets, hsound⟩ := h.sound
  refine (Pool.ends_link hsound).mono ?_ fun _ _ => False.elim
  rintro report k ⟨-, hlinked⟩
  exact ⟨⟨registry, sets, hlinked.sound⟩, .inl hlinked.kept⟩

/-- Nothing was promoted. -/
structure Unasked (p : Pool) : Prop where
  /-- There are no instances. -/
  promoted : p.promoted = #[]
  /-- None are kept. -/
  cache : p.cache = []

/-- Nothing is lost when caching is turned off. -/
theorem Unasked.setCaching (h : Unasked p) (on : Bool) :
    p.setCaching on = { p with caching := on } := by
  cases on with
  | true => rfl
  | false => simp [Pool.setCaching, h.cache]

theorem ends_addSet_of_unasked (h : Unasked j.state) (s : ObjectSet) :
    Ends (fun _ k => Unasked k.state) (fun _ _ => False) (addSet s j : EStateM.Result ε _ _) := by
  unfold addSet
  refine ends_noted fun noted hnoted => ?_
  rw [← hnoted] at h
  rw [bind_state, h.cache]
  exact ⟨h.promoted, h.cache⟩

/-- Adding sets promotes nothing where nothing is kept. -/
theorem ends_addSets_of_unasked (h : Unasked j.state) (sets : List ObjectSet) :
    Ends (fun _ k => Unasked k.state) (fun _ _ => False)
      (addSets sets j : EStateM.Result ε _ _) := by
  induction sets generalizing j with
  | nil => exact h
  | cons s sets ih =>
    rw [addSets_cons, ends_bind]
    exact (ends_addSet_of_unasked h s).mono (fun _ _ hk => ih hk) fun _ _ => id

/-- **A pool that was made of sets** is settled, with caching and without. -/
theorem ends_addSets_settled (registry : Registry) (sets : List ObjectSet) (notes : Array Note) :
    Ends (fun _ k => ∀ on, k.state.setCaching on = { k.state with caching := on } ∧
        Settled { k.state with caching := on }) (fun _ _ => True)
      (addSets sets ⟨empty registry, notes⟩ : EStateM.Result ε _ _) := by
  have hunasked : Unasked (empty registry) := ⟨rfl, rfl⟩
  refine ((ends_addSets (sound_empty registry) sets).and
    (ends_addSets_of_unasked hunasked sets)).mono ?_ fun _ _ _ => trivial
  rintro _ k ⟨hk, hk'⟩ on
  have hset := hk'.setCaching on
  refine ⟨hset, ⟨registry, _, hset ▸ hk.setCaching on⟩, .inr fun id i hi => ?_⟩
  rw [instance?, hk'.promoted] at hi
  cases hi

end WellLog.Pool
