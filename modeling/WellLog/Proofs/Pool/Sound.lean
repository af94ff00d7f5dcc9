import WellLog.Proofs.Pool.Bucket
import WellLog.Proofs.Pool.Table
import WellLog.Proofs.Run
/-!
# Sound pools

A pool is sound for some sets if it declares what they declare, and if every bucket that it keeps
holds the objects of its type, whenever it was built and however often it was added to.

* `Pool.Sound` : the invariant.
* `Pool.Grows` : a query promotes objects and keeps buckets, and changes nothing that is there.
* `Pool.ends_bucket` : **the bucket of a query holds what the sets say**, and the pool stays sound.
* `Pool.ends_addSets` : more sets make a pool that is sound for them, too.
-/

namespace WellLog

/-- The links of an instance are a table of labels that its object has references under. -/
structure Instance.Labelled (registry : Registry) (i : Instance) : Prop where
  /-- The labels are in order. -/
  ordered : Table.Ordered i.links
  /-- Each of them is the label of references. -/
  known : ∀ label ∈ i.links.map (·.1), label ∈ (registry.references i.raw).map (·.1)

theorem Instance.labelled_of_raw (registry : Registry) (raw : RawObject) :
    Instance.Labelled registry ⟨raw, []⟩ := ⟨Table.ordered_nil, nofun⟩

namespace Pool

variable {ε : Type} {registry : Registry} {sets : List ObjectSet} {p p' p'' : Pool}
  {objects : List RawObject} {raw o : RawObject} {i : Instance} {id : InstanceId} {b : Bucket}
  {type : String} {j : Journalled Pool}

/-- The object that an instance is. -/
def content (p : Pool) (id : InstanceId) : Option RawObject := (p.instance? id).map (·.raw)

/-- A pool is sound for some sets and the schemas that are known. -/
structure Sound (registry : Registry) (sets : List ObjectSet) (p : Pool) : Prop where
  /-- The schemas are those that are known. -/
  registry_eq : p.registry = registry
  /-- The types are in order. -/
  ordered : Table.Ordered p.declared
  /-- They are those of the sets. -/
  mem_types : ∀ t, t ∈ p.types ↔ ∃ s ∈ sets, s.type = t
  /-- The objects of a type are those of its sets. -/
  objectsOf_eq : ∀ t, p.objectsOf t = ObjectSet.objectsOf sets t
  /-- A bucket that is kept holds the objects of its type. -/
  holds : ∀ t b, p.cache.lookup t = some b → b.Holds p.content (ObjectSet.objectsOf sets t)
  /-- Links stand under the labels of references. -/
  labelled : ∀ id i, p.instance? id = some i → i.Labelled registry

theorem sound_empty (registry : Registry) : Sound registry [] (empty registry) where
  registry_eq := rfl
  ordered := Table.ordered_nil
  mem_types _ := by simp [types, empty]
  objectsOf_eq _ := rfl
  holds _ _ h := by simp [empty] at h
  labelled _ _ h := by simp [instance?, empty] at h

/-- **The types of a pool are those of the sets**, in order. -/
theorem Sound.types_eq (h : Sound registry sets p) : p.types = ObjectSet.typesOf sets :=
  ObjectSet.eq_typesOf h.ordered h.mem_types

theorem content_eq_of_instance? (h : p.instance? id = some i) : p.content id = some i.raw := by
  rw [content, h, Option.map_some]

theorem exists_instance?_of_content (h : p.content id = some o) :
    ∃ i, p.instance? id = some i ∧ i.raw = o := by
  simpa [content] using h

/-! ### More instances -/

/-- The pool with an instance more for each of some objects. -/
def withInstances (p : Pool) (objects : List RawObject) : Pool :=
  { p with promoted := p.promoted ++ (objects.map fun o => (⟨o, []⟩ : Instance)).toArray }

theorem withInstances_nil (p : Pool) : p.withInstances [] = p := by
  simp [withInstances]

theorem withInstances_concat (p : Pool) (objects : List RawObject) (raw : RawObject) :
    (p.withInstances objects).withInstances [raw] = p.withInstances (objects ++ [raw]) := by
  simp [withInstances]

theorem withInstances_singleton (p : Pool) (raw : RawObject) :
    p.withInstances [raw] = { p with promoted := p.promoted.push ⟨raw, []⟩ } := by
  simp [withInstances]

theorem instance?_withInstances_of_some (h : p.instance? id = some i) :
    (p.withInstances objects).instance? id = some i := by
  have hlt : id < p.promoted.size := (Array.getElem?_eq_some_iff.1 h).1
  rw [instance?, withInstances, Array.getElem?_append_left hlt]
  exact h

theorem of_instance?_withInstances (h : (p.withInstances objects).instance? id = some i) :
    p.instance? id = some i ∨ ∃ o ∈ objects, i = ⟨o, []⟩ := by
  rw [instance?, withInstances, Array.getElem?_append] at h
  split at h
  · exact .inl h
  · right
    obtain ⟨o, ho, rfl⟩ := List.mem_map.1 (List.mem_of_getElem? (by simpa using h))
    exact ⟨o, ho, rfl⟩

theorem content_withInstances_singleton (p : Pool) (raw : RawObject) :
    (p.withInstances [raw]).content p.promoted.size = some raw := by
  simp [content, instance?, withInstances]

/-- Queries promote objects and keep buckets; what is there stays as it is. -/
structure Grows (p p' : Pool) : Prop where
  /-- Nothing is declared. -/
  declared : p'.declared = p.declared
  /-- Instances keep their numbers. -/
  instances : ∀ id i, p.instance? id = some i → p'.instance? id = some i
  /-- Buckets that are kept stay what they are. -/
  kept : ∀ t b, p.cache.lookup t = some b → p'.cache.lookup t = some b

namespace Grows

theorem refl (p : Pool) : Grows p p := ⟨rfl, fun _ _ => id, fun _ _ => id⟩

theorem trans (h : Grows p p') (h' : Grows p' p'') : Grows p p'' :=
  ⟨h'.declared.trans h.declared, fun id i hi => h'.instances id i (h.instances id i hi),
    fun t b hb => h'.kept t b (h.kept t b hb)⟩

theorem content (h : Grows p p') (hid : p.content id = some o) : p'.content id = some o := by
  obtain ⟨i, hi, rfl⟩ := exists_instance?_of_content hid
  exact content_eq_of_instance? (h.instances id i hi)

theorem withInstances (p : Pool) (objects : List RawObject) : Grows p (p.withInstances objects) :=
  ⟨rfl, fun _ _ => instance?_withInstances_of_some, fun _ _ => id⟩

/-- A bucket is kept where there was none. -/
theorem store (h : p.cache.lookup type = none) (b : Bucket) :
    Grows p { p with cache := Pool.store type b p.cache } := by
  refine ⟨rfl, fun _ _ => id, fun t c hc => ?_⟩
  rw [lookup_store, if_neg]
  · exact hc
  · rintro rfl
    rw [h] at hc
    cases hc

end Grows

theorem Sound.withInstances (h : Sound registry sets p) (objects : List RawObject) :
    Sound registry sets (p.withInstances objects) where
  registry_eq := h.registry_eq
  ordered := h.ordered
  mem_types := h.mem_types
  objectsOf_eq := h.objectsOf_eq
  holds t b hb := (h.holds t b hb).congr fun _ _ => (Grows.withInstances p objects).content
  labelled id i hi := by
    rcases of_instance?_withInstances hi with hold | ⟨o, -, rfl⟩
    · exact h.labelled id i hold
    · exact Instance.labelled_of_raw registry o

/-- A bucket is kept that holds the objects of its type. -/
theorem Sound.store (h : Sound registry sets p)
    (hb : b.Holds p.content (ObjectSet.objectsOf sets type)) :
    Sound registry sets { p with cache := Pool.store type b p.cache } where
  registry_eq := h.registry_eq
  ordered := h.ordered
  mem_types := h.mem_types
  objectsOf_eq := h.objectsOf_eq
  holds t c hc := by
    rw [lookup_store] at hc
    split at hc
    · rename_i ht
      subst ht
      cases hc
      exact hb
    · exact h.holds t c hc
  labelled := h.labelled

/-! ### Promotion -/

theorem ends_promote (b : Bucket) (raw : RawObject) (j : Journalled Pool) :
    Ends (fun b' j' => b' = b.put raw.fingerprint j.state.promoted.size ∧
        j'.state = j.state.withInstances [raw]) (fun _ _ => False)
      (promote b raw j : EStateM.Result ε _ _) := by
  unfold promote
  rw [bind_state]
  rw [withInstances_singleton]
  -- an object that was there before only makes a difference to the journal
  simp only
  generalize (b.position? raw.fingerprint).bind _ = old
  cases old with
  | none => exact ⟨rfl, rfl⟩
  | some old =>
    simp only
    split
    · exact ⟨rfl, rfl⟩
    · exact ⟨rfl, rfl⟩

/-- **Promoting objects** into a bucket adds an instance for each of them. -/
theorem ends_promoteAll {old : List RawObject} (hb : b.Holds j.state.content old)
    (objects : List RawObject) :
    Ends (fun b' j' => j'.state = j.state.withInstances objects ∧
        b'.Holds j'.state.content (old ++ objects)) (fun _ _ => False)
      (promoteAll b objects j : EStateM.Result ε _ _) := by
  unfold promoteAll
  refine ends_foldlM (I := fun done (b' : Bucket) (j' : Journalled Pool) =>
    j'.state = j.state.withInstances done ∧ b'.Holds j'.state.content (old ++ done)) ?_ ?_
  · rintro done raw - b' j' ⟨hj', hb'⟩
    refine (ends_promote b' raw j').mono ?_ fun _ _ => id
    rintro b'' j'' ⟨rfl, hj''⟩
    rw [hj'', ← List.append_assoc]
    refine ⟨?_, hb'.put (fun _ _ => (Grows.withInstances _ _).content)
      (content_withInstances_singleton _ _)⟩
    rw [hj', withInstances_concat]
  · rw [withInstances_nil, List.append_nil]
    exact ⟨rfl, hb⟩

/-! ### Buckets of queries -/

theorem bucket_of_kept (h : j.state.cache.lookup type = some b) :
    (bucket type j : EStateM.Result ε _ _) = .ok b j := by
  unfold bucket
  rw [bind_state, h]
  rfl

theorem keptBucket_of_kept (h : j.state.cache.lookup type = some b) :
    (keptBucket type j : EStateM.Result ε _ _) = .ok b j := by
  unfold keptBucket
  rw [bind_state, h]
  rfl

/-- A new bucket for a type. -/
theorem Sound.ends_promoteType (h : Sound registry sets j.state) (type : String) :
    Ends (fun b j' => Sound registry sets j'.state ∧ Grows j.state j'.state ∧
        b.Holds j'.state.content (ObjectSet.objectsOf sets type) ∧ j'.state.cache = j.state.cache)
      (fun _ _ => False)
      (promoteAll .empty (j.state.objectsOf type) j : EStateM.Result ε _ _) := by
  rw [h.objectsOf_eq]
  refine (ends_promoteAll Bucket.holds_empty _).mono ?_ fun _ _ => id
  rintro b j' ⟨hj', hb⟩
  rw [List.nil_append] at hb
  refine ⟨?_, ?_, hb, ?_⟩
  · rw [hj']
    exact h.withInstances _
  · rw [hj']
    exact .withInstances _ _
  · rw [hj']
    rfl

/-- **The bucket of a query** holds the objects of the type. -/
theorem ends_bucket (h : Sound registry sets j.state) (type : String) :
    Ends (fun b j' => Sound registry sets j'.state ∧ Grows j.state j'.state ∧
        b.Holds j'.state.content (ObjectSet.objectsOf sets type)) (fun _ _ => False)
      (bucket type j : EStateM.Result ε _ _) := by
  cases hlookup : j.state.cache.lookup type with
  | some b =>
    rw [bucket_of_kept hlookup]
    exact ⟨h, .refl _, h.holds type b hlookup⟩
  | none =>
    unfold bucket
    rw [bind_state, hlookup]
    simp only
    rw [ends_bind]
    refine (h.ends_promoteType type).mono ?_ fun _ _ => id
    rintro b j' ⟨hsound, hgrows, hb, hcache⟩
    rw [ends_bind, ends_note]
    split
    · rw [← hcache] at hlookup
      exact ⟨hsound.store hb, hgrows.trans (.store hlookup b), hb⟩
    · exact ⟨hsound, hgrows, hb⟩

/-- A bucket for links is kept in any case. -/
theorem ends_keptBucket (h : Sound registry sets j.state) (type : String) :
    Ends (fun b j' => Sound registry sets j'.state ∧ Grows j.state j'.state ∧
        j'.state.cache.lookup type = some b) (fun _ _ => False)
      (keptBucket type j : EStateM.Result ε _ _) := by
  cases hlookup : j.state.cache.lookup type with
  | some b =>
    rw [keptBucket_of_kept hlookup]
    exact ⟨h, .refl _, hlookup⟩
  | none =>
    unfold keptBucket
    rw [bind_state, hlookup]
    simp only
    rw [ends_bind]
    refine (h.ends_promoteType type).mono ?_ fun _ _ => id
    rintro b j' ⟨hsound, hgrows, hb, hcache⟩
    rw [← hcache] at hlookup
    refine ⟨hsound.store hb, hgrows.trans (.store hlookup b), ?_⟩
    rw [lookup_store, if_pos rfl]

/-! ### More sets -/

theorem objectsOf_concat (sets : List ObjectSet) (s : ObjectSet) (t : String) :
    ObjectSet.objectsOf (sets ++ [s]) t =
      ObjectSet.objectsOf sets t ++ if s.type = t then s.objects else [] := by
  by_cases h : s.type = t
  · simp [ObjectSet.objectsOf, h]
  · simp [ObjectSet.objectsOf, h]

theorem objectsOf_concat_of_ne {s : ObjectSet} {t : String} (h : s.type ≠ t) :
    ObjectSet.objectsOf (sets ++ [s]) t = ObjectSet.objectsOf sets t := by
  rw [objectsOf_concat, if_neg h, List.append_nil]

/-- A set is declared where the buckets that are kept hold its objects, too. -/
theorem Sound.declare (h : Sound registry sets p) (s : ObjectSet) (cache : List (String × Bucket))
    (hcache : ∀ t b, cache.lookup t = some b →
      b.Holds p.content (ObjectSet.objectsOf (sets ++ [s]) t)) :
    Sound registry (sets ++ [s])
      { p with cache, declared := Pool.declare s.type s.objects p.declared } where
  registry_eq := h.registry_eq
  ordered := by
    rw [declare_eq_upsert]
    exact h.ordered.upsert
  mem_types t := by
    rw [types, declare_eq_upsert, Table.mem_keys_upsert]
    have hold := h.mem_types t
    rw [types] at hold
    rw [hold]
    constructor
    · rintro (rfl | ⟨s', hs', ht⟩)
      · exact ⟨s, by simp, rfl⟩
      · exact ⟨s', by simp [hs'], ht⟩
    · rintro ⟨s', hs', ht⟩
      rcases List.mem_append.1 hs' with hs' | hs'
      · exact .inr ⟨s', hs', ht⟩
      · cases List.mem_singleton.1 hs'
        exact .inl ht.symm
  objectsOf_eq t := by
    have hold := h.objectsOf_eq t
    rw [Pool.objectsOf] at hold ⊢
    rw [declare_eq_upsert, Table.lookup_upsert h.ordered, objectsOf_concat, ← hold]
    by_cases ht : t = s.type
    · simp [ht]
    · simp [ht, Ne.symm ht]
  holds := hcache
  labelled := h.labelled

theorem ends_addSet (h : Sound registry sets j.state) (s : ObjectSet) :
    Ends (fun _ j' => Sound registry (sets ++ [s]) j'.state) (fun _ _ => False)
      (addSet s j : EStateM.Result ε _ _) := by
  unfold addSet
  refine ends_noted fun noted hnoted => ?_
  rw [← hnoted] at h
  rw [bind_state]
  cases hlookup : noted.state.cache.lookup s.type with
  | some b =>
    simp only
    rw [ends_bind]
    refine (ends_promoteAll (h.holds s.type b hlookup) s.objects).mono ?_ fun _ _ => id
    rintro b' j' ⟨hj', hb'⟩
    have hsound : Sound registry sets j'.state := by
      rw [hj']
      exact h.withInstances s.objects
    refine hsound.declare s (store s.type b' j'.state.cache) fun t c hc => ?_
    rw [lookup_store] at hc
    split at hc
    · rename_i ht
      subst ht
      cases hc
      rw [objectsOf_concat, if_pos rfl]
      exact hb'
    · rename_i ht
      rw [objectsOf_concat_of_ne (Ne.symm ht)]
      exact hsound.holds t c hc
  | none =>
    refine h.declare s noted.state.cache fun t c hc => ?_
    have ht : s.type ≠ t := by
      rintro rfl
      rw [hlookup] at hc
      cases hc
    rw [objectsOf_concat_of_ne ht]
    exact h.holds t c hc

theorem addSets_cons (s : ObjectSet) (sets : List ObjectSet) :
    (addSets (s :: sets) : Logged ε Pool Unit) = addSet s >>= fun _ => addSets sets :=
  List.forM_cons

/-- **More sets** make a pool that is sound for them, too. -/
theorem ends_addSets (h : Sound registry sets j.state) (more : List ObjectSet) :
    Ends (fun _ j' => Sound registry (sets ++ more) j'.state) (fun _ _ => False)
      (addSets more j : EStateM.Result ε _ _) := by
  induction more generalizing sets j with
  | nil =>
    rw [List.append_nil]
    exact h
  | cons s more ih =>
    rw [addSets_cons, ends_bind]
    refine (ends_addSet h s).mono ?_ fun _ _ => id
    intro _ j' h'
    rw [List.append_cons]
    exact ih h'

theorem Sound.setCaching (h : Sound registry sets p) (on : Bool) :
    Sound registry sets (p.setCaching on) := by
  unfold Pool.setCaching
  cases on with
  | true => exact { h with }
  | false => exact { h with holds := fun t b hb => by simp at hb }

theorem Sound.hold (h : Sound registry sets p) (id : InstanceId) :
    Sound registry sets (p.hold id).2 := by
  unfold Pool.hold
  split
  · exact h
  · exact { h with }

theorem Sound.release (h : Sound registry sets p) (n : Nat) : Sound registry sets (p.release n) :=
  { h with }

end Pool

end WellLog
