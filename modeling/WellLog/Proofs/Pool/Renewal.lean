import WellLog.Proofs.Pool.History
/-!
# Which instances a pool goes on to keep

An instance belongs to the pool as long as it stands in a bucket that is kept.  A call may put a new
instance in its place, or give up all buckets; and it may promote more instances.  It never puts back
one that was given up, for the numbers of new instances are new.

* `Pool.Keeps` : the pool keeps an instance for a fingerprint.
* `Pool.Call.Drops` : a call gives up the instance of a fingerprint.
* `Pool.Renews` : some instances are given up, all others stay, and whatever comes is new.
* `Pool.Call.renews` : **a call gives up the instances that it says, and no others**.
* `Pool.renews_after` : so do calls one after the other.
-/

namespace WellLog

variable {ε : Type} {f : Fingerprint} {id : InstanceId}

/-! ### Buckets -/

namespace Bucket

variable {b b' : Bucket} {m : Fingerprint × InstanceId} {fs : List Fingerprint} {n : Nat}

theorem mem_put_iff (hnodup : (b.members.map (·.1)).Nodup) :
    m ∈ (b.put f id).members ↔ (m ∈ b.members ∧ m.1 ≠ f) ∨ m = (f, id) := by
  unfold put position?
  cases hi : b.members.findIdx? (·.1 == f) with
  | some i =>
    obtain ⟨hlt, hfound, -⟩ := List.findIdx?_eq_some_iff_getElem.1 hi
    simp only
    rw [set_eq_map hnodup hi, List.mem_map]
    constructor
    · rintro ⟨m', hm', rfl⟩
      split
      · exact .inr rfl
      · rename_i hne
        exact .inl ⟨hm', hne⟩
    · rintro (⟨hm, hne⟩ | rfl)
      · exact ⟨m, hm, if_neg hne⟩
      · exact ⟨b.members[i], List.getElem_mem hlt, if_pos (beq_iff_eq.1 hfound)⟩
  | none =>
    have hnew : m ∈ b.members → m.1 ≠ f := by
      intro hm heq
      have hno := List.findIdx?_eq_none_iff.1 hi m hm
      rw [heq, beq_self_eq_true] at hno
      cases hno
    simp only
    rw [List.mem_append, List.mem_singleton, and_iff_left_of_imp hnew]

theorem nodup_keys_put (hnodup : (b.members.map (·.1)).Nodup) :
    ((b.put f id).members.map (·.1)).Nodup := by
  unfold put position?
  cases hi : b.members.findIdx? (·.1 == f) with
  | some i =>
    simp only
    rw [set_eq_map hnodup hi, List.map_map]
    -- the new member has the fingerprint of the one whose place it takes
    have hkeys : ((·.1) ∘ fun m : Fingerprint × InstanceId => if m.1 = f then (f, id) else m) =
        (·.1) := by
      funext m
      rw [Function.comp_apply]
      split
      · rename_i heq
        exact heq.symm
      · rfl
    rw [hkeys]
    exact hnodup
  | none =>
    simp only
    rw [List.map_append, List.nodup_append]
    refine ⟨hnodup, List.nodup_singleton f, ?_⟩
    intro g hg g' hg' heq
    obtain ⟨m, hm, rfl⟩ := List.mem_map.1 hg
    have hno := List.findIdx?_eq_none_iff.1 hi m hm
    rw [heq, List.mem_singleton.1 hg', beq_self_eq_true] at hno
    cases hno

/-- Where objects have the types of their sets, the members of a bucket have its type. -/
theorem Holds.type_eq {content : InstanceId → Option RawObject} {sets : List ObjectSet}
    {type : String} (h : b.Holds content (ObjectSet.objectsOf sets type))
    (htyped : ∀ s ∈ sets, s.Typed) (hm : m ∈ b.members) : m.1.type = type := by
  obtain ⟨o, ho, -, hf⟩ := h.content_eq hm
  rw [hf]
  exact ObjectSet.type_of_mem_objectsOf htyped (RawObject.mem_of_mem_collapse ho)

/-- A bucket after objects with the fingerprints `fs` were put into it, each with an instance whose
number is `n` or more. -/
structure Renewed (b : Bucket) (fs : List Fingerprint) (n : Nat) (b' : Bucket) : Prop where
  /-- Members with other fingerprints stay. -/
  spared : ∀ m ∈ b.members, m.1 ∉ fs → m ∈ b'.members
  /-- A member that is not new is one of them. -/
  old : ∀ m ∈ b'.members, m.2 < n → m ∈ b.members ∧ m.1 ∉ fs

theorem Renewed.refl (b : Bucket) (n : Nat) : b.Renewed [] n b where
  spared _ hm _ := hm
  old _ hm _ := ⟨hm, List.not_mem_nil⟩

theorem Renewed.put (h : b.Renewed fs n b') (hnodup : (b'.members.map (·.1)).Nodup) (hid : n ≤ id) :
    b.Renewed (fs ++ [f]) n (b'.put f id) where
  spared m hm hnot := by
    rw [List.mem_append, List.mem_singleton, not_or] at hnot
    exact (mem_put_iff hnodup).2 (.inl ⟨h.spared m hm hnot.1, hnot.2⟩)
  old m hm hlt := by
    rcases (mem_put_iff hnodup).1 hm with ⟨hm, hne⟩ | rfl
    · obtain ⟨hmem, hnot⟩ := h.old m hm hlt
      rw [List.mem_append, List.mem_singleton, not_or]
      exact ⟨hmem, hnot, hne⟩
    · exact absurd hlt (Nat.not_lt.2 hid)

end Bucket

namespace Pool

variable {registry : Registry} {sets : List ObjectSet} {p p' p'' : Pool} {b : Bucket}
  {raw : RawObject} {objects : List RawObject} {type : String} {drops drops' : Fingerprint → Prop}
  {j : Journalled Pool}

theorem size_withInstances (p : Pool) (objects : List RawObject) :
    (p.withInstances objects).promoted.size = p.promoted.size + objects.length := by
  simp [withInstances]

/-- **Promoting objects** puts new instances into a bucket. -/
theorem ends_promoteAll_renewed (hnodup : (b.members.map (·.1)).Nodup) (objects : List RawObject)
    (j : Journalled Pool) :
    Ends (fun b' j' => j'.state = j.state.withInstances objects ∧
        b.Renewed (objects.map (·.fingerprint)) j.state.promoted.size b')
      (fun _ _ => False) (promoteAll b objects j : EStateM.Result ε _ _) := by
  unfold promoteAll
  refine (ends_foldlM (I := fun done (b' : Bucket) (j' : Journalled Pool) =>
    j'.state = j.state.withInstances done ∧ (b'.members.map (·.1)).Nodup ∧
      b.Renewed (done.map (·.fingerprint)) j.state.promoted.size b') ?_ ?_).mono
    (fun _ _ h => ⟨h.1, h.2.2⟩) fun _ _ => id
  · rintro done raw - b' j' ⟨hj', hkeys, hb'⟩
    refine (ends_promote b' raw j').mono ?_ fun _ _ => id
    rintro b'' j'' ⟨rfl, hj''⟩
    rw [hj'', hj', withInstances_concat, List.map_append]
    refine ⟨rfl, Bucket.nodup_keys_put hkeys, hb'.put hkeys ?_⟩
    rw [size_withInstances]
    exact Nat.le_add_right _ _
  · rw [withInstances_nil]
    exact ⟨rfl, hnodup, .refl b _⟩

/-! ### What a pool keeps -/

/-- The pool keeps an instance for a fingerprint, in the bucket of its type. -/
def Keeps (p : Pool) (f : Fingerprint) (id : InstanceId) : Prop :=
  ∃ b, p.cache.lookup f.type = some b ∧ (f, id) ∈ b.members

/-- The object of an instance has the fingerprint. -/
def Is (p : Pool) (id : InstanceId) (f : Fingerprint) : Prop :=
  (p.content id).map (·.fingerprint) = some f

theorem lt_of_is (h : p.Is id f) : id < p.promoted.size := by
  obtain ⟨o, ho, -⟩ := Option.map_eq_some_iff.1 h
  obtain ⟨i, hi, -⟩ := exists_instance?_of_content ho
  exact (Array.getElem?_eq_some_iff.1 hi).1

theorem Is.unique {g : Fingerprint} (h : p.Is id f) (h' : p.Is id g) : f = g :=
  Option.some.inj (h.symm.trans h')

theorem Grows.is (h : Grows p p') (hid : p.Is id f) : p'.Is id f := by
  obtain ⟨o, ho, rfl⟩ := Option.map_eq_some_iff.1 hid
  rw [Is, h.content ho]
  rfl

theorem Grows.keeps (h : Grows p p') (hid : p.Keeps f id) : p'.Keeps f id := by
  obtain ⟨b, hb, hm⟩ := hid
  exact ⟨b, h.kept f.type b hb, hm⟩

/-- A member of a bucket is an instance of an object with its fingerprint. -/
theorem is_of_mem (hb : b.Holds p.content objects) {m : Fingerprint × InstanceId}
    (hm : m ∈ b.members) : p.Is m.2 m.1 := by
  obtain ⟨o, -, ho, hf⟩ := hb.content_eq hm
  rw [Is, ho, hf]
  rfl

namespace Sound

/-- What is kept for a fingerprint is an instance of an object with it. -/
theorem is_of_keeps (h : Sound registry sets p) (hid : p.Keeps f id) : p.Is id f := by
  obtain ⟨b, hb, hm⟩ := hid
  exact is_of_mem (h.holds f.type b hb) hm

/-- One instance is kept for a fingerprint. -/
theorem keeps_unique (h : Sound registry sets p) {id' : InstanceId} (hid : p.Keeps f id)
    (hid' : p.Keeps f id') : id' = id := by
  obtain ⟨b, hb, hm⟩ := hid
  obtain ⟨b', hb', hm'⟩ := hid'
  rw [hb, Option.some.injEq] at hb'
  subst hb'
  exact (Prod.mk.inj (List.inj_on_of_nodup_map (h.holds f.type b hb).nodup_keys hm' hm rfl)).2

end Sound

/-! ### What a call makes of it -/

/-- The instances for the fingerprints `drops` are given up. -/
structure Renews (drops : Fingerprint → Prop) (p p' : Pool) : Prop where
  /-- No number is used again. -/
  size_le : p.promoted.size ≤ p'.promoted.size
  /-- Every instance is one of the same object as before. -/
  content : ∀ id o, p.content id = some o → p'.content id = some o
  /-- All other instances stay. -/
  spared : ∀ f id, p.Keeps f id → ¬ drops f → p'.Keeps f id
  /-- An instance that is kept and is not new was kept before, and it was not given up. -/
  old : ∀ f id, p'.Keeps f id → id < p.promoted.size → p.Keeps f id ∧ ¬ drops f

namespace Renews

/-- Nothing is given up where the same buckets are kept. -/
theorem of_cache_eq (hcache : p'.cache = p.cache) (hsize : p'.promoted.size = p.promoted.size)
    (hcontent : p'.content = p.content) : Renews (fun _ => False) p p' where
  size_le := Nat.le_of_eq hsize.symm
  content id o hid := by rwa [hcontent]
  spared f id := by
    rw [Keeps, Keeps, hcache]
    exact fun hid _ => hid
  old f id := by
    rw [Keeps, Keeps, hcache]
    exact fun hid _ => ⟨hid, not_false⟩

theorem refl (p : Pool) : Renews (fun _ => False) p p := .of_cache_eq rfl rfl rfl

theorem trans (h : Renews drops p p') (h' : Renews drops' p' p'') :
    Renews (fun f => drops f ∨ drops' f) p p'' where
  size_le := Nat.le_trans h.size_le h'.size_le
  content id o hid := h'.content id o (h.content id o hid)
  spared f id hid hnot := by
    rw [not_or] at hnot
    exact h'.spared f id (h.spared f id hid hnot.1) hnot.2
  old f id hid hlt := by
    obtain ⟨hid', hnot'⟩ := h'.old f id hid (Nat.lt_of_lt_of_le hlt h.size_le)
    obtain ⟨hid, hnot⟩ := h.old f id hid' hlt
    exact ⟨hid, not_or.2 ⟨hnot, hnot'⟩⟩

theorem congr (h : Renews drops p p') (hdrops : ∀ f, drops f ↔ drops' f) : Renews drops' p p' := by
  obtain rfl : drops = drops' := funext fun f => propext (hdrops f)
  exact h

/-- **An instance that was given up is kept no more**, for no fingerprint. -/
theorem not_keeps (h : Renews drops p p') (hsound : Sound registry sets p) (hid : p.Keeps f id)
    (hdrops : drops f) (g : Fingerprint) : ¬ p'.Keeps g id := by
  intro hid'
  have his := hsound.is_of_keeps hid
  obtain ⟨hold, hnot⟩ := h.old g id hid' (lt_of_is his)
  -- the instance is of one object, so it was kept for one fingerprint
  obtain rfl : f = g := his.unique (hsound.is_of_keeps hold)
  exact hnot hdrops

end Renews

/-! ### Queries -/

/-- A query promotes new instances, keeps buckets of them, and changes nothing that is there. -/
structure Asked (p p' : Pool) : Prop extends Grows p p' where
  /-- Whether instances are kept is as before. -/
  caching : p'.caching = p.caching
  /-- Nothing is given up, and nothing is put back. -/
  renews : Renews (fun _ => False) p p'

namespace Asked

theorem refl (p : Pool) : Asked p p := ⟨.refl p, rfl, .refl p⟩

theorem trans (h : Asked p p') (h' : Asked p' p'') : Asked p p'' where
  toGrows := h.toGrows.trans h'.toGrows
  caching := h'.caching.trans h.caching
  renews := (h.renews.trans h'.renews).congr fun _ => or_self_iff

theorem withInstances (p : Pool) (objects : List RawObject) : Asked p (p.withInstances objects) where
  toGrows := .withInstances p objects
  caching := rfl
  renews := {
    size_le := by
      rw [size_withInstances]
      exact Nat.le_add_right _ _
    content := fun _ _ => (Grows.withInstances p objects).content
    spared := fun _ _ hid _ => hid
    old := fun _ _ hid _ => ⟨hid, not_false⟩ }

/-- A bucket of new instances is kept. -/
theorem store (h : Asked p p') (hnone : p'.cache.lookup type = none)
    (hnew : ∀ m ∈ b.members, p.promoted.size ≤ m.2) :
    Asked p { p' with cache := Pool.store type b p'.cache } where
  toGrows := h.toGrows.trans (.store hnone b)
  caching := h.caching
  renews := {
    size_le := h.renews.size_le
    content := h.renews.content
    spared := fun _ _ hid _ => (h.toGrows.trans (.store hnone b)).keeps hid
    old := by
      rintro f id ⟨c, hc, hm⟩ hlt
      rw [lookup_store] at hc
      split at hc
      · cases hc
        exact absurd hlt (Nat.not_lt.2 (hnew _ hm))
      · exact h.renews.old f id ⟨c, hc, hm⟩ hlt }

end Asked

/-- Where a type is not kept, its objects are promoted anew. -/
theorem ends_promoteType_new (objects : List RawObject) (j : Journalled Pool) :
    Ends (fun b j' => Asked j.state j'.state ∧ j'.state.cache = j.state.cache ∧
        ∀ m ∈ b.members, j.state.promoted.size ≤ m.2)
      (fun _ _ => False) (promoteAll .empty objects j : EStateM.Result ε _ _) := by
  refine (ends_promoteAll_renewed (b := .empty) List.nodup_nil objects j).mono ?_ fun _ _ => id
  rintro b j' ⟨hj', hb⟩
  rw [hj']
  refine ⟨.withInstances _ _, rfl, fun m hm => Nat.not_lt.1 fun hlt => ?_⟩
  exact List.not_mem_nil (hb.old m hm hlt).1

/-- The bucket `b` of a type, as a query sees it, from a pool that is left as `p'`. -/
structure Opened (p p' : Pool) (type : String) (b : Bucket) : Prop where
  /-- A member that is not new was kept before. -/
  old : ∀ m ∈ b.members, m.2 < p.promoted.size → ∃ c, p.cache.lookup type = some c ∧ m ∈ c.members
  /-- It is kept if caching is on, and if it was kept before. -/
  kept : p.caching = true ∨ (∃ c, p.cache.lookup type = some c) → p'.cache.lookup type = some b

theorem ends_bucket_opened (type : String) (j : Journalled Pool) :
    Ends (fun b j' => Asked j.state j'.state ∧ Opened j.state j'.state type b) (fun _ _ => False)
      (bucket type j : EStateM.Result ε _ _) := by
  cases hlookup : j.state.cache.lookup type with
  | some b =>
    rw [bucket_of_kept hlookup]
    exact ⟨.refl _, fun m hm _ => ⟨b, hlookup, hm⟩, fun _ => hlookup⟩
  | none =>
    unfold bucket
    rw [bind_state, hlookup]
    simp only
    rw [ends_bind]
    refine (ends_promoteType_new _ j).mono ?_ fun _ _ => id
    rintro b j' ⟨hasked, hcache, hnew⟩
    have hold : ∀ m ∈ b.members, m.2 < j.state.promoted.size →
        ∃ c, j.state.cache.lookup type = some c ∧ m ∈ c.members :=
      fun m hm hlt => absurd hlt (Nat.not_lt.2 (hnew m hm))
    rw [ends_bind, ends_note]
    split
    · rw [← hcache] at hlookup
      refine ⟨hasked.store hlookup hnew, hold, fun _ => ?_⟩
      rw [lookup_store, if_pos rfl]
    · rename_i hoff
      refine ⟨hasked, hold, ?_⟩
      rintro (hon | ⟨c, hc⟩)
      · exact absurd hon hoff
      · rw [hlookup] at hc
        cases hc

theorem ends_keptBucket_asked (type : String) (j : Journalled Pool) :
    Ends (fun _ j' => Asked j.state j'.state) (fun _ _ => False)
      (keptBucket type j : EStateM.Result ε _ _) := by
  cases hlookup : j.state.cache.lookup type with
  | some b =>
    rw [keptBucket_of_kept hlookup]
    exact .refl _
  | none =>
    unfold keptBucket
    rw [bind_state, hlookup]
    simp only
    rw [ends_bind]
    refine (ends_promoteType_new _ j).mono ?_ fun _ _ => id
    rintro b j' ⟨hasked, hcache, hnew⟩
    rw [← hcache] at hlookup
    exact hasked.store hlookup hnew

/-- An instance for a fingerprint comes from a pool `p`, which is left as `p'`. -/
structure Hands (p p' : Pool) (f : Fingerprint) (id : InstanceId) : Prop where
  /-- The object has the fingerprint. -/
  is : p'.Is id f
  /-- An instance that is not new was kept before. -/
  old : id < p.promoted.size → p.Keeps f id
  /-- The instance is kept if caching is on, and if the type was kept before. -/
  kept : p.caching = true ∨ (∃ b, p.cache.lookup f.type = some b) → p'.Keeps f id

namespace Hands

/-- Other types are looked into before. -/
theorem of_asked (h : Asked p p') (hid : Hands p' p'' f id) : Hands p p'' f id where
  is := hid.is
  old hlt := (h.renews.old f id (hid.old (Nat.lt_of_lt_of_le hlt h.renews.size_le)) hlt).1
  kept hkept := by
    refine hid.kept (hkept.imp (fun hon => h.caching.trans hon) ?_)
    rintro ⟨b, hb⟩
    exact ⟨b, h.kept f.type b hb⟩

/-- Other types are looked into behind. -/
theorem grows (hid : Hands p p' f id) (h : Grows p' p'') : Hands p p'' f id :=
  ⟨h.is hid.is, hid.old, fun hkept => h.keeps (hid.kept hkept)⟩

end Hands

theorem Opened.hands (h : Opened p p' type b) (htyped : ∀ s ∈ sets, s.Typed)
    (hb : b.Holds p'.content (ObjectSet.objectsOf sets type))
    {m : Fingerprint × InstanceId} (hm : m ∈ b.members) : Hands p p' m.1 m.2 := by
  obtain rfl : m.1.type = type := hb.type_eq htyped hm
  exact ⟨is_of_mem hb hm, h.old m hm, fun hkept => ⟨b, h.kept hkept, hm⟩⟩

section Queries

variable (h : Sound registry sets j.state) (htyped : ∀ s ∈ sets, s.Typed)
include h htyped

/-- **What a query finds** is kept by the pool: before, if it is not new, and behind, if caching is
on. -/
theorem ends_find_hands (type : String) (name : Option String) (matcher : Matcher) :
    Ends (fun ids j' => Asked j.state j'.state ∧ ∀ id ∈ ids, ∃ f, Hands j.state j'.state f id)
      (fun _ j' => j' = j) (find type name matcher j) := by
  rw [find_eq]
  cases hname : name.mapM matcher.compile? with
  | none => exact rfl
  | some name =>
    cases htype : matcher.compile? type with
    | none => exact rfl
    | some type =>
      simp only
      rw [map_eq_pure_bind, ends_bind]
      -- what one bucket hands out is kept while the others are looked into
      refine (ends_mapM (I := fun j' => Sound registry sets j'.state ∧ Asked j.state j'.state)
        (R := fun _ ids j' => ∀ id ∈ ids, ∃ f, Hands j.state j'.state f id) ?_ ⟨h, .refl _⟩).mono ?_
        fun _ _ => False.elim
      · rintro t - j' ⟨hsound, hasked⟩
        rw [map_eq_pure_bind, ends_bind]
        refine ((ends_bucket hsound t).and (ends_bucket_opened t j')).mono ?_ fun _ _ h => h.1
        rintro b j'' ⟨⟨hsound', hgrows, hb⟩, hasked', hopened⟩
        refine ⟨⟨hsound', hasked.trans hasked'⟩, fun id hid => ?_, fun _ ids hids id hid => ?_⟩
        · rw [hb.select_eq] at hid
          obtain ⟨m, hm, rfl⟩ := List.mem_map.1 hid
          exact ⟨m.1, (hopened.hands htyped hb (List.mem_filter.1 hm).1).of_asked hasked⟩
        · obtain ⟨f, hf⟩ := hids id hid
          exact ⟨f, hf.grows hgrows⟩
      · rintro found j' ⟨⟨-, hasked⟩, hfound, -⟩
        refine ⟨hasked, fun id hid => ?_⟩
        obtain ⟨ids, hids, hid⟩ := List.mem_flatten.1 hid
        exact forall_mem_of_forall₂ hfound ids hids id hid

/-- **What a query for one object returns** is kept likewise. -/
theorem ends_object_hands (type name : String) (origin : Option Nat) (copy : Option UInt8) :
    Ends (fun id j' => Asked j.state j'.state ∧ ∃ f, Hands j.state j'.state f id)
      (fun _ j' => Asked j.state j'.state) (object type name origin copy j) := by
  rw [object_eq, ends_bind]
  refine (ends_find_hands h htyped type (some name) .exact).mono ?_ ?_
  · rintro found j' ⟨hasked, hfound⟩
    rw [bind_state]
    refine (ends_pick type name _ j').mono ?_ ?_
    · rintro id j'' ⟨hstate, c, hc, rfl, -⟩
      rw [hstate]
      exact ⟨hasked, hfound c.1 (mem_withContent (List.mem_filter.1 hc).1).1⟩
    · rintro e j'' ⟨rfl, -⟩
      exact hasked
  · rintro e j' rfl
    exact .refl _

end Queries

/-! ### Calls -/

theorem size_relinkAll {all : List (Fingerprint × InstanceId)} {ids : List InstanceId} :
    (relinkAll all p ids).promoted.size = p.promoted.size := by
  induction ids generalizing p with
  | nil => rfl
  | cons id ids ih => rw [relinkAll_cons, ih, relink, Array.size_modify]

theorem ends_link_renews (j : Journalled Pool) :
    Ends (fun _ j' => Renews (fun _ => False) j.state j'.state) (fun _ _ => False)
      (link j : EStateM.Result ε _ _) := by
  have hkeep : Ends (fun _ j' => Asked j.state j'.state) (fun _ _ => False)
      (j.state.types.mapM keptBucket j : EStateM.Result ε _ _) := by
    refine (ends_mapM (I := fun j' => Asked j.state j'.state) (R := fun _ _ _ => True) ?_
      (.refl _)).mono (fun _ _ h => h.1) fun _ _ => id
    intro t _ j' hasked
    exact (ends_keptBucket_asked t j').mono (fun _ _ h => ⟨hasked.trans h, trivial, fun _ _ => id⟩)
      fun _ _ => id
  refine (ends_link_steps hkeep).mono ?_ fun _ _ => id
  rintro report j' ⟨buckets, kept, hasked, -, hj'⟩
  -- the instances that are linked stay in their buckets
  have hlinked : Renews (fun _ => False) kept.state j'.state := by
    rw [hj']
    exact .of_cache_eq cache_relinkAll size_relinkAll content_relinkAll
  exact (hasked.renews.trans hlinked).congr fun _ => or_self_iff

/-- New instances are put into the bucket of a type. -/
theorem renews_store {b' : Bucket} {fs : List Fingerprint} (objects : List RawObject)
    (hlookup : p.cache.lookup type = some b) (hb' : b.Renewed fs p.promoted.size b')
    (hother : ∀ f : Fingerprint, f.type ≠ type → f ∉ fs) :
    Renews (· ∈ fs) p { p.withInstances objects with cache := store type b' p.cache } where
  size_le := (Asked.withInstances p objects).renews.size_le
  content := (Asked.withInstances p objects).renews.content
  spared f id hid hnot := by
    obtain ⟨c, hc, hm⟩ := hid
    by_cases ht : f.type = type
    · rw [ht, hlookup, Option.some.injEq] at hc
      subst hc
      refine ⟨b', ?_, hb'.spared (f, id) hm hnot⟩
      rw [lookup_store, if_pos ht]
    · refine ⟨c, ?_, hm⟩
      rw [lookup_store, if_neg ht]
      exact hc
  old f id hid hlt := by
    obtain ⟨c, hc, hm⟩ := hid
    rw [lookup_store] at hc
    split at hc
    · rename_i ht
      cases hc
      obtain ⟨hmem, hnot⟩ := hb'.old (f, id) hm hlt
      exact ⟨⟨b, ht ▸ hlookup, hmem⟩, hnot⟩
    · rename_i ht
      exact ⟨⟨c, hc, hm⟩, hother f ht⟩

/-- A set gives up the instances of the objects that it declares. -/
theorem ends_addSet_renews (h : Sound registry sets j.state) (s : ObjectSet) (htyped : s.Typed) :
    Ends (fun _ j' => Renews (· ∈ s.objects.map (·.fingerprint)) j.state j'.state)
      (fun _ _ => False) (addSet s j : EStateM.Result ε _ _) := by
  -- a fingerprint of another type is not one of the set
  have hother : ∀ f : Fingerprint, f.type ≠ s.type → f ∉ s.objects.map (·.fingerprint) := by
    intro f hne hf
    obtain ⟨o, ho, rfl⟩ := List.mem_map.1 hf
    exact hne (htyped o ho)
  unfold addSet
  refine ends_noted fun noted hnoted => ?_
  rw [← hnoted] at h ⊢
  rw [bind_state]
  cases hlookup : noted.state.cache.lookup s.type with
  | some b =>
    simp only
    rw [ends_bind]
    refine (ends_promoteAll_renewed (h.holds s.type b hlookup).nodup_keys s.objects noted).mono ?_
      fun _ _ => id
    rintro b' ⟨_, notes⟩ ⟨rfl, hb'⟩
    -- what is declared has no part in it
    have hstore := renews_store s.objects hlookup hb' hother
    exact ⟨hstore.size_le, hstore.content, hstore.spared, hstore.old⟩
  | none =>
    refine ⟨Nat.le_refl _, fun _ _ => id, fun f id hid _ => hid, ?_⟩
    rintro f id ⟨c, hc, hm⟩ -
    have hc' : noted.state.cache.lookup f.type = some c := hc
    refine ⟨⟨c, hc', hm⟩, hother f ?_⟩
    intro ht
    rw [ht, hlookup] at hc'
    cases hc'

theorem ends_addSets_renews (h : Sound registry sets j.state) (more : List ObjectSet)
    (htyped : ∀ s ∈ more, s.Typed) :
    Ends (fun _ j' =>
        Renews (fun f => ∃ s ∈ more, f ∈ s.objects.map (·.fingerprint)) j.state j'.state)
      (fun _ _ => False) (addSets more j : EStateM.Result ε _ _) := by
  induction more generalizing sets j with
  | nil => exact (Renews.refl _).congr fun f => by simp
  | cons s more ih =>
    rw [List.forall_mem_cons] at htyped
    rw [addSets_cons, ends_bind]
    refine ((ends_addSet h s).and (ends_addSet_renews h s htyped.1)).mono ?_ fun _ _ h => h.1
    rintro _ j' ⟨hsound, hrenews⟩
    refine (ih hsound htyped.2).mono ?_ fun _ _ => id
    intro _ j'' hrenews'
    exact (hrenews.trans hrenews').congr fun f => by simp

/-- A call gives up the instance of a fingerprint: it adds an object with it, or turns caching
off. -/
def Call.Drops : Call → Fingerprint → Prop
  | addSets more, f => ∃ s ∈ more, f ∈ s.objects.map (·.fingerprint)
  | setCaching on, _ => on = false
  | find _ _ _, _ | object _ _ _ _, _ | link, _ | hold _, _ | release _, _ => False

instance (c : Call) (f : Fingerprint) : Decidable (c.Drops f) :=
  match c with
  | .addSets more => inferInstanceAs (Decidable (∃ s ∈ more, f ∈ s.objects.map (·.fingerprint)))
  | .setCaching on => inferInstanceAs (Decidable (on = false))
  | .find _ _ _ | .object _ _ _ _ | .link | .hold _ | .release _ =>
    inferInstanceAs (Decidable False)

/-- **A call gives up the instances that it says, and no others.** -/
theorem Call.renews (h : Sound registry sets j.state) (c : Call)
    (htyped : ∀ s ∈ sets ++ c.adds, s.Typed) : Renews c.Drops j.state (c.after j).state := by
  rw [List.forall_mem_append] at htyped
  refine Call.after_of_ends (P := fun j' => Renews c.Drops j.state j'.state) ?_
  cases c with
  | addSets more =>
    exact (ends_addSets_renews h more htyped.2).mono (fun _ _ => id) fun _ _ => False.elim
  | find type name matcher =>
    rw [run, ends_bind]
    refine (ends_find_hands h htyped.1 type name matcher).mono (fun _ _ h => h.1.renews) ?_
    rintro _ j' rfl
    exact .refl _
  | object type name origin copy =>
    rw [run, ends_bind]
    exact (ends_object_hands h htyped.1 type name origin copy).mono (fun _ _ h => h.1.renews)
      fun _ _ h => h.renews
  | link =>
    rw [run, ends_bind]
    exact (ends_link_renews j).mono (fun _ _ => id) fun _ _ => False.elim
  | setCaching on =>
    cases on with
    | true => exact ⟨Nat.le_refl _, fun _ _ => id, fun _ _ hid _ => hid,
        fun _ _ hid _ => ⟨hid, Bool.noConfusion⟩⟩
    | false =>
      refine ⟨Nat.le_refl _, fun _ _ => id, fun _ _ _ hnot => absurd rfl hnot, ?_⟩
      rintro f id ⟨b, hb, -⟩
      cases hb
  | hold id =>
    show Renews _ j.state (j.state.hold id).2
    unfold Pool.hold
    split
    · exact .refl _
    · exact .of_cache_eq rfl rfl rfl
  | release n => exact .of_cache_eq rfl rfl rfl

/-- **Calls one after the other** give up the instances that one of them gives up. -/
theorem renews_after (registry : Registry) (notes : Array Note) (history later : List Call)
    (htyped : ∀ s ∈ added (history ++ later), s.Typed) :
    Renews (fun f => ∃ c ∈ later, c.Drops f) (after registry notes history).state
      (after registry notes (history ++ later)).state := by
  induction later using List.reverseRecOn with
  | nil =>
    rw [List.append_nil]
    exact (Renews.refl _).congr fun f => by simp
  | append_singleton later c ih =>
    rw [← List.append_assoc] at htyped ⊢
    have hadded : added ((history ++ later) ++ [c]) = added (history ++ later) ++ c.adds := by
      rw [added, List.flatMap_append, List.flatMap_singleton]
      rfl
    rw [hadded] at htyped
    have hbefore := ih fun s hs => htyped s (List.mem_append_left _ hs)
    have hcall := Call.renews (sound_after registry notes (history ++ later)) c htyped
    rw [after_concat]
    exact (hbefore.trans hcall).congr fun f => by
      simp [List.mem_append, or_and_right, exists_or]

end Pool

end WellLog
