import WellLog.Proofs.Pool.Declared
/-!
# Buckets hold what is declared

A bucket is built and looked into by three indices: its members in order, the position of a
fingerprint, and the positions of a name.

* `Bucket.Holds` : the members of a bucket are the objects of a list, collapsed, and its positions
  are those of the names.
* `Bucket.Holds.put` : **one more object**, with an instance of its own.
* `Bucket.Holds.select` : **a bucket is looked into as the list of its members is**.
-/

namespace WellLog

namespace Bucket

variable {b : Bucket} {content content' : InstanceId → Option RawObject} {objects : List RawObject}
  {raw : RawObject} {f : Fingerprint} {id : InstanceId}

/-- A bucket holds the objects of a list, where `content` says which object an instance is. -/
structure Holds (b : Bucket) (content : InstanceId → Option RawObject) (objects : List RawObject) :
    Prop where
  /-- There is a member for each fingerprint, at the place of the first object with it, and its
  instance is the last one. -/
  members : b.members.map (fun m => (m.1, content m.2)) =
    (RawObject.collapse objects).map fun o => (o.fingerprint, some o)
  /-- The positions of a name are those of the members with it. -/
  positions : ∀ name, b.positions name = (b.members.map (·.1.name)).idxsOf name

theorem holds_empty : empty.Holds content [] := ⟨rfl, fun _ => rfl⟩

namespace Holds

theorem keys (h : b.Holds content objects) :
    b.members.map (·.1) = (RawObject.collapse objects).map (·.fingerprint) := by
  have hkeys := congrArg (List.map Prod.fst) h.members
  simpa only [List.map_map, Function.comp_def] using hkeys

theorem nodup_keys (h : b.Holds content objects) : (b.members.map (·.1)).Nodup := by
  rw [h.keys]
  exact RawObject.nodup_fingerprints_collapse objects

theorem mem_keys (h : b.Holds content objects) :
    f ∈ b.members.map (·.1) ↔ f ∈ objects.map (·.fingerprint) := by
  rw [h.keys, RawObject.mem_fingerprints_collapse]

/-- The object of a member has the fingerprint of the member. -/
theorem content_eq (h : b.Holds content objects) {m : Fingerprint × InstanceId}
    (hm : m ∈ b.members) :
    ∃ o ∈ RawObject.collapse objects, content m.2 = some o ∧ m.1 = o.fingerprint := by
  have hpair : (m.1, content m.2) ∈ (RawObject.collapse objects).map fun o => (o.fingerprint, some o) :=
    h.members ▸ List.mem_map_of_mem hm
  obtain ⟨o, ho, heq⟩ := List.mem_map.1 hpair
  exact ⟨o, ho, (Prod.mk.inj heq).2.symm, (Prod.mk.inj heq).1.symm⟩

/-- A bucket depends on the objects of its own instances only. -/
theorem congr (h : b.Holds content objects)
    (hcontent : ∀ id o, content id = some o → content' id = some o) :
    b.Holds content' objects := by
  refine ⟨?_, h.positions⟩
  rw [← h.members]
  refine List.map_congr_left fun m hm => ?_
  obtain ⟨o, -, ho, -⟩ := h.content_eq hm
  rw [ho, hcontent m.2 o ho]

end Holds

/-! ### One more object -/

theorem lookup_addName (name n : String) (i : Nat) (index : List (String × List Nat)) :
    ((addName n i index).lookup name).getD [] =
      (index.lookup name).getD [] ++ if n = name then [i] else [] := by
  induction index with
  | nil =>
    by_cases h : n = name
    · simp [addName, h]
    · have hbeq : (name == n) = false := beq_eq_false_iff_ne.2 (Ne.symm h)
      simp [addName, List.lookup_cons, h, hbeq]
  | cons entry index ih =>
    obtain ⟨m, ps⟩ := entry
    rw [addName]
    split
    · rename_i hm
      subst hm
      by_cases h : m = name
      · simp [h]
      · have hbeq : (name == m) = false := beq_eq_false_iff_ne.2 (Ne.symm h)
        simp [List.lookup_cons, h, hbeq]
    · rename_i hm
      by_cases h : m = name
      · subst h
        simp [Ne.symm hm]
      · have hbeq : (name == m) = false := beq_eq_false_iff_ne.2 (Ne.symm h)
        simp [List.lookup_cons, hbeq, ih]

/-- Where no two members share a fingerprint, the place of one is the only place with it. -/
theorem set_eq_map {members : List (Fingerprint × InstanceId)} {i : Nat}
    (hnodup : (members.map (·.1)).Nodup) (hi : members.findIdx? (·.1 == f) = some i) :
    members.set i (f, id) = members.map fun m => if m.1 = f then (f, id) else m := by
  obtain ⟨hlt, hfound, -⟩ := List.findIdx?_eq_some_iff_getElem.1 hi
  refine List.ext_getElem (by simp) fun k hk hk' => ?_
  rw [List.length_map] at hk'
  rw [List.getElem_set, List.getElem_map]
  by_cases hik : i = k
  · subst hik
    simp [beq_iff_eq.1 hfound]
  · have hne : members[k].1 ≠ f := by
      intro heq
      have hkeys : (members.map (·.1))[i]? = (members.map (·.1))[k]? := by
        rw [List.getElem?_map, List.getElem?_map, List.getElem?_eq_getElem hlt,
          List.getElem?_eq_getElem hk', Option.map_some, Option.map_some, heq, beq_iff_eq.1 hfound]
      exact hik ((List.getElem?_inj (by simpa using hlt) hnodup).1 hkeys)
    rw [if_neg hik, if_neg hne]

section

variable (h : b.Holds content objects)
  (hcontent : ∀ id o, content id = some o → content' id = some o) (hid : content' id = some raw)

include h hcontent hid

/-- An object takes the place of the one with the same fingerprint. -/
theorem Holds.set {i : Nat} (hi : b.members.findIdx? (·.1 == raw.fingerprint) = some i) :
    Holds { b with members := b.members.set i (raw.fingerprint, id) } content' (objects ++ [raw]) := by
  obtain ⟨hlt, hfound, -⟩ := List.findIdx?_eq_some_iff_getElem.1 hi
  have hmem : raw.fingerprint ∈ objects.map (·.fingerprint) := by
    rw [← h.mem_keys, ← beq_iff_eq.1 hfound]
    exact List.mem_map_of_mem (List.getElem_mem hlt)
  rw [set_eq_map h.nodup_keys hi]
  constructor
  · rw [RawObject.collapse_concat_of_mem hmem, List.map_map, List.map_map]
    -- the same change on both sides of what the bucket held before
    have hchange := congrArg
      (List.map fun p => if p.1 = raw.fingerprint then (raw.fingerprint, some raw) else p)
      (h.congr hcontent).members
    rw [List.map_map, List.map_map] at hchange
    refine Eq.trans (List.map_congr_left fun m _ => ?_)
      (hchange.trans (List.map_congr_left fun o _ => ?_))
    · by_cases hm : m.1 = raw.fingerprint
      · simp [hm, hid]
      · simp [hm]
    · by_cases ho : o.fingerprint = raw.fingerprint
      · simp [ho]
      · simp [ho]
  · intro name
    have hnames : (b.members.map fun m => if m.1 = raw.fingerprint then (raw.fingerprint, id) else m).map
        (·.1.name) = b.members.map (·.1.name) := by
      rw [List.map_map]
      refine List.map_congr_left fun m _ => ?_
      simp only [Function.comp_apply]
      split <;> simp [*]
    rw [hnames]
    exact h.positions name

/-- An object with a new fingerprint comes last, and its position is one more for its name. -/
theorem Holds.concat (hi : b.members.findIdx? (·.1 == raw.fingerprint) = none) :
    Holds ⟨b.members ++ [(raw.fingerprint, id)],
      addName raw.fingerprint.name b.members.length b.byName⟩ content' (objects ++ [raw]) := by
  have hnot : raw.fingerprint ∉ objects.map (·.fingerprint) := by
    rw [← h.mem_keys]
    intro hmem
    obtain ⟨m, hm, heq⟩ := List.mem_map.1 hmem
    have hno := List.findIdx?_eq_none_iff.1 hi m hm
    simp [heq] at hno
  constructor
  · rw [List.map_append, (h.congr hcontent).members, RawObject.collapse_concat_of_notMem hnot,
      List.map_append]
    simp [hid]
  · intro name
    have hname := h.positions name
    rw [Bucket.positions] at hname ⊢
    rw [lookup_addName, hname, List.map_append, List.idxsOf_append]
    simp [List.idxsOf_cons]

/-- **One more object**, with an instance of its own. -/
theorem Holds.put : (b.put raw.fingerprint id).Holds content' (objects ++ [raw]) := by
  unfold Bucket.put Bucket.position?
  cases hi : b.members.findIdx? (·.1 == raw.fingerprint) with
  | some i => exact h.set hcontent hid hi
  | none => exact h.concat hcontent hid hi

end

/-! ### Looking into a bucket -/

/-- **The indices agree**: whichever of them a query uses, it has the members with the names that it
asks for. -/
theorem Holds.select_eq (h : b.Holds content objects) (name : Option Needle) :
    b.select name = (b.members.filter fun m => name.all (·.accepts m.1.name)).map (·.2) := by
  cases name with
  | none =>
    have hall : (b.members.filter fun _ => true) = b.members := List.filter_eq_self.2 fun _ _ => rfl
    rw [Bucket.select, Bucket.instances]
    exact congrArg (List.map (·.2)) hall.symm
  | some needle =>
    cases needle with
    | exact text =>
      rw [Bucket.select, h.positions, ← List.map_filterMap, filterMap_idxsOf]
      congr 1
      refine List.filter_congr fun m _ => ?_
      exact BEq.comm
    | pattern regex => rfl

/-- **A bucket is looked into as the list of its objects is.** -/
theorem Holds.map_select (h : b.Holds content objects) (name : Option Needle) :
    (b.select name).map content =
      ((RawObject.collapse objects).filter fun o =>
        name.all (·.accepts o.fingerprint.name)).map some := by
  -- both sides are the pairs of fingerprint and object that the bucket holds, filtered by the former
  have hpairs := congrArg
    (fun pairs => (pairs.filter fun p => name.all (·.accepts p.1.name)).map Prod.snd) h.members
  simp only [List.filter_map, List.map_map, Function.comp_def] at hpairs
  rw [h.select_eq, List.map_map]
  exact hpairs

end Bucket

end WellLog
