import WellLog.Pool
import WellLog.Proofs.Lists
import WellLog.Proofs.Text.Order
/-!
# What sets declare

What a pool answers can be said without it, from the sets that were added to it.  Among the objects
of a type, those with the same fingerprint count as one: it stands where the first of them stands
and is the last of them.

* `RawObject.collapse_concat_of_mem`, `RawObject.collapse_concat_of_notMem` : one more object, with a
  fingerprint that is there already or with a new one.
* `ObjectSet.eq_typesOf` : the types of sets are the one list of them that is in order.
* `ObjectSet.nodup_fingerprints_contents` : no two of the objects that count share a fingerprint.
* `ObjectSet.answer`, `ObjectSet.single` : what a query finds, and what a query for one object does.
-/

namespace WellLog

namespace RawObject

/-- One object for each fingerprint: it stands where the first of them stands, and is the last of
them. -/
def collapse (objects : List RawObject) : List RawObject :=
  (objects.map (·.fingerprint)).eraseDups.filterMap fun f =>
    (objects.filter (·.fingerprint == f)).getLast?

/-- The object has this origin and this copy, as far as they are given. -/
def isOf (origin : Option Nat) (copy : Option UInt8) (o : RawObject) : Bool :=
  origin.all (· == o.fingerprint.origin) && copy.all (· == o.fingerprint.copy)

/-- The one object among those of a type and a name; several that do not differ count as one. -/
def pick (type name : String) (candidates : List RawObject) : Except QueryError RawObject :=
  match candidates with
  | [] => .error (.notFound type name)
  | [only] => .ok only
  | first :: others =>
    if others.all (·.sameContent first) then .ok first
    else .error (.ambiguous type name
      (candidates.map fun o => (o.fingerprint.origin, o.fingerprint.copy)))

end RawObject

namespace ObjectSet

/-- The types of sets, in the order of their bytes. -/
def typesOf (sets : List ObjectSet) : List String :=
  (sets.map (·.type)).eraseDups.mergeSort fun s t => Utf8.encode s ≤ Utf8.encode t

/-- The objects that the sets of a type declare, in order. -/
def objectsOf (sets : List ObjectSet) (type : String) : List RawObject :=
  (sets.filter (·.type == type)).flatMap (·.objects)

/-- The objects of some sets, by type. -/
def contents (sets : List ObjectSet) : List RawObject :=
  (typesOf sets).flatMap fun type => RawObject.collapse (objectsOf sets type)

/-- What a query finds among the objects of some sets. -/
def answer (sets : List ObjectSet) (type : String) (name : Option String) (matcher : Matcher) :
    Except QueryError (List RawObject) :=
  match name.mapM matcher.compile?, matcher.compile? type with
  | some name, some type =>
    .ok (((typesOf sets).filter type.accepts).flatMap fun t =>
      (RawObject.collapse (objectsOf sets t)).filter fun o =>
        name.all (·.accepts o.fingerprint.name))
  | _, _ => .error .badPattern

/-- What a query for the one object of a type with a name finds, where origin and copy may be given,
too. -/
def single (sets : List ObjectSet) (type name : String) (origin : Option Nat)
    (copy : Option UInt8) : Except QueryError RawObject := do
  let found ← answer sets type (some name) .exact
  RawObject.pick type name (found.filter (·.isOf origin copy))

end ObjectSet

/-! ### Objects with the same fingerprint -/

namespace RawObject

variable {objects : List RawObject} {f : Fingerprint} {raw : RawObject}

/-- The last object with a fingerprint. -/
theorem exists_getLast?_filter (h : f ∈ objects.map (·.fingerprint)) :
    ∃ o ∈ objects, (objects.filter (·.fingerprint == f)).getLast? = some o ∧ o.fingerprint = f := by
  obtain ⟨o, ho, hof⟩ := List.mem_map.1 h
  have hne : objects.filter (·.fingerprint == f) ≠ [] :=
    List.ne_nil_of_mem (List.mem_filter.2 ⟨ho, beq_iff_eq.2 hof⟩)
  obtain ⟨last, hlast⟩ := Option.ne_none_iff_exists'.1 (mt List.getLast?_eq_none_iff.1 hne)
  obtain ⟨hmem, hfp⟩ := List.mem_filter.1 (List.mem_of_getLast? hlast)
  exact ⟨last, hmem, hlast, beq_iff_eq.1 hfp⟩

theorem fingerprints_collapse (objects : List RawObject) :
    (collapse objects).map (·.fingerprint) = (objects.map (·.fingerprint)).eraseDups := by
  rw [collapse, List.map_filterMap]
  conv => rhs; rw [← List.filterMap_some (l := (objects.map (·.fingerprint)).eraseDups)]
  refine List.filterMap_congr fun f hf => ?_
  obtain ⟨o, -, hlast, hof⟩ := exists_getLast?_filter (List.mem_eraseDups.1 hf)
  rw [hlast, Option.map_some, hof]

theorem nodup_fingerprints_collapse (objects : List RawObject) :
    ((collapse objects).map (·.fingerprint)).Nodup := by
  rw [fingerprints_collapse]
  exact nodup_eraseDups _

theorem mem_of_mem_collapse (h : raw ∈ collapse objects) : raw ∈ objects := by
  obtain ⟨f, -, hlast⟩ := List.mem_filterMap.1 h
  exact (List.mem_filter.1 (List.mem_of_getLast? hlast)).1

theorem mem_fingerprints_collapse :
    f ∈ (collapse objects).map (·.fingerprint) ↔ f ∈ objects.map (·.fingerprint) := by
  rw [fingerprints_collapse, List.mem_eraseDups]

/-- One more object with a fingerprint that is there already takes the place of the one before. -/
theorem collapse_concat_of_mem (h : raw.fingerprint ∈ objects.map (·.fingerprint)) :
    collapse (objects ++ [raw]) =
      (collapse objects).map fun o => if o.fingerprint = raw.fingerprint then raw else o := by
  have hkeys : ((objects ++ [raw]).map (·.fingerprint)).eraseDups =
      (objects.map (·.fingerprint)).eraseDups := by
    have hold : [raw.fingerprint].removeAll (objects.map (·.fingerprint)) = [] := by
      rw [List.removeAll, List.filter_eq_nil_iff]
      simpa using h
    rw [List.map_append, List.eraseDups_append, List.map_singleton, hold]
    exact List.append_nil _
  rw [collapse, hkeys, collapse, List.map_filterMap]
  refine List.filterMap_congr fun f hf => ?_
  obtain ⟨o, -, hlast, hof⟩ := exists_getLast?_filter (List.mem_eraseDups.1 hf)
  rw [hlast, Option.map_some, List.filter_append, hof]
  by_cases hraw : f = raw.fingerprint
  · simp [hraw]
  · simp [Ne.symm hraw, hraw, hlast]

/-- One more object with a new fingerprint comes last. -/
theorem collapse_concat_of_notMem (h : raw.fingerprint ∉ objects.map (·.fingerprint)) :
    collapse (objects ++ [raw]) = collapse objects ++ [raw] := by
  have hkeys : ((objects ++ [raw]).map (·.fingerprint)).eraseDups =
      (objects.map (·.fingerprint)).eraseDups ++ [raw.fingerprint] := by
    have hnew : [raw.fingerprint].removeAll (objects.map (·.fingerprint)) = [raw.fingerprint] := by
      rw [List.removeAll, List.filter_eq_self]
      simpa using h
    rw [List.map_append, List.eraseDups_append, List.map_singleton, hnew, List.eraseDups_cons]
    rfl
  rw [collapse, hkeys, List.filterMap_append]
  congr 1
  · refine List.filterMap_congr fun f hf => ?_
    have hne : raw.fingerprint ≠ f := fun heq => h (heq ▸ List.mem_eraseDups.1 hf)
    simp [List.filter_append, hne]
  · simp [List.filter_append]

end RawObject

/-! ### Types in order -/

/-- Of a list of types, a query for one type accepts what is equal to it. -/
theorem Needle.filter_exact (t : String) (types : List String) :
    types.filter (Needle.exact t).accepts = List.replicate (types.count t) t := by
  rw [← List.filter_beq]
  exact List.filter_congr fun _ _ => BEq.comm

namespace ObjectSet

/-- **The types of sets are the one list of them that is in order.** -/
theorem eq_typesOf {sets : List ObjectSet} {types : List String} (hsorted : types.Pairwise (· < ·))
    (hmem : ∀ t, t ∈ types ↔ ∃ s ∈ sets, s.type = t) : types = typesOf sets := by
  have hle : ∀ {s t : String}, Utf8.encode s ≤ Utf8.encode t ↔ ¬ t < s := by
    intro s t
    rw [← Utf8.encode_lt_encode_iff, List.not_lt]
  have hperm : types.Perm (typesOf sets) := by
    refine List.Perm.trans ?_ (List.mergeSort_perm _ _).symm
    refine (List.perm_ext_iff_of_nodup ?_ (nodup_eraseDups _)).2 fun t => ?_
    · exact hsorted.imp fun hlt heq => absurd (heq ▸ hlt) (Std.lt_irrefl)
    · rw [hmem, List.mem_eraseDups, List.mem_map]
  have hsorted' : types.Pairwise fun s t => Utf8.encode s ≤ Utf8.encode t :=
    hsorted.imp fun hlt => hle.2 (String.lt_asymm hlt)
  have htypesOf : (typesOf sets).Pairwise fun s t => Utf8.encode s ≤ Utf8.encode t := by
    refine (List.pairwise_mergeSort ?_ ?_ _).imp fun h => of_decide_eq_true h
    · intro a b c hab hbc
      exact decide_eq_true (List.le_trans (of_decide_eq_true hab) (of_decide_eq_true hbc))
    · intro a b
      rcases List.le_total (Utf8.encode a) (Utf8.encode b) with hab | hba
      · simp [hab]
      · simp [hba]
  refine hperm.eq_of_pairwise ?_ hsorted' htypesOf
  intro s t _ _ hst hts
  rcases Std.lt_trichotomy s t with hlt | rfl | hgt
  · exact absurd hlt (hle.1 hts)
  · rfl
  · exact absurd hgt (hle.1 hst)

theorem mem_typesOf {sets : List ObjectSet} {t : String} :
    t ∈ typesOf sets ↔ ∃ s ∈ sets, s.type = t := by
  rw [typesOf, List.mem_mergeSort, List.mem_eraseDups, List.mem_map]

theorem nodup_typesOf (sets : List ObjectSet) : (typesOf sets).Nodup :=
  (List.mergeSort_perm _ _).nodup_iff.2 (nodup_eraseDups _)

theorem mem_objectsOf {sets : List ObjectSet} {t : String} {o : RawObject} :
    o ∈ objectsOf sets t ↔ ∃ s ∈ sets, s.type = t ∧ o ∈ s.objects := by
  simp [objectsOf, and_assoc]

/-- Only types of the sets have objects. -/
theorem mem_typesOf_of_mem_objectsOf {sets : List ObjectSet} {t : String} {o : RawObject}
    (h : o ∈ objectsOf sets t) : t ∈ typesOf sets := by
  obtain ⟨s, hs, hst, -⟩ := mem_objectsOf.1 h
  exact mem_typesOf.2 ⟨s, hs, hst⟩

/-- A query for one type only looks at its objects. -/
theorem answer_exact (sets : List ObjectSet) (t : String) (name : Option String) :
    answer sets t name .exact = .ok ((RawObject.collapse (objectsOf sets t)).filter fun o =>
      name.all (· == o.fingerprint.name)) := by
  have hname : name.mapM Matcher.exact.compile? = some (name.map Needle.exact) := by
    cases name <;> rfl
  rw [answer, hname]
  simp only [Matcher.compile?, Option.all_map]
  congr 1
  rw [Needle.filter_exact]
  by_cases ht : t ∈ typesOf sets
  · rw [List.count_eq_one_of_mem (nodup_typesOf sets) ht]
    exact List.append_nil _
  · have hnone : objectsOf sets t = [] := by
      rw [List.eq_nil_iff_forall_not_mem]
      exact fun o ho => ht (mem_typesOf_of_mem_objectsOf ho)
    rw [List.count_eq_zero_of_not_mem ht, hnone]
    rfl

/-! ### All objects -/

/-- The objects of a set have its type. -/
def Typed (s : ObjectSet) : Prop := ∀ o ∈ s.objects, o.fingerprint.type = s.type

/-- Where objects have the types of their sets, those of a type have it. -/
theorem type_of_mem_objectsOf {sets : List ObjectSet} {t : String} {o : RawObject}
    (htyped : ∀ s ∈ sets, s.Typed) (h : o ∈ objectsOf sets t) : o.fingerprint.type = t := by
  obtain ⟨s, hs, rfl, ho⟩ := mem_objectsOf.1 h
  exact htyped s hs o ho

theorem mem_contents {sets : List ObjectSet} {t : String} {o : RawObject}
    (h : o ∈ RawObject.collapse (objectsOf sets t)) : o ∈ contents sets :=
  List.mem_flatMap.2 ⟨t, mem_typesOf_of_mem_objectsOf (RawObject.mem_of_mem_collapse h), h⟩

/-- An object is among the contents of sets if one of them declares some with its fingerprint. -/
theorem mem_fingerprints_contents {sets : List ObjectSet} {f : Fingerprint} :
    f ∈ (contents sets).map (·.fingerprint) ↔ ∃ s ∈ sets, ∃ o ∈ s.objects, o.fingerprint = f := by
  rw [contents, List.map_flatMap, List.mem_flatMap]
  constructor
  · rintro ⟨t, -, hf⟩
    obtain ⟨o, ho, hof⟩ := List.mem_map.1 (RawObject.mem_fingerprints_collapse.1 hf)
    obtain ⟨s, hs, -, ho⟩ := mem_objectsOf.1 ho
    exact ⟨s, hs, o, ho, hof⟩
  · rintro ⟨s, hs, o, ho, hof⟩
    refine ⟨s.type, mem_typesOf.2 ⟨s, hs, rfl⟩, RawObject.mem_fingerprints_collapse.2 ?_⟩
    exact List.mem_map.2 ⟨o, mem_objectsOf.2 ⟨s, hs, rfl, ho⟩, hof⟩

/-- **Where objects have the types of their sets, no two of them share a fingerprint.** -/
theorem nodup_fingerprints_contents {sets : List ObjectSet} (h : ∀ s ∈ sets, s.Typed) :
    ((contents sets).map (·.fingerprint)).Nodup := by
  have htype : ∀ t, ∀ f ∈ (RawObject.collapse (objectsOf sets t)).map (·.fingerprint), f.type = t := by
    intro t f hf
    obtain ⟨o, ho, rfl⟩ := List.mem_map.1 (RawObject.mem_fingerprints_collapse.1 hf)
    exact type_of_mem_objectsOf h ho
  rw [contents, List.map_flatMap, List.nodup_flatMap]
  refine ⟨fun t _ => RawObject.nodup_fingerprints_collapse _, ?_⟩
  refine (nodup_typesOf sets).imp fun {t t'} hne => ?_
  intro f hf hf'
  exact hne ((htype t f hf).symm.trans (htype t' f hf'))

end ObjectSet

end WellLog
