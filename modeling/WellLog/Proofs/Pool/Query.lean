import WellLog.Proofs.Pool.Sound
/-!
# Queries of sound pools

A query promotes what was not promoted before, and looks into the buckets of the types that it asks
for.  Its result only depends on the sets that were added.

* `Pool.find_eq` : a query text that is no pattern is refused before anything else is done.
* `Pool.ends_find` : **a query of a sound pool finds what the sets say**.
* `Pool.ends_object` : a query for one object decides between the objects that are found.
-/

namespace WellLog.Pool

variable {registry : Registry} {sets : List ObjectSet} {p p' : Pool} {ids : List InstanceId}
  {objects : List RawObject} {type : String} {name : Option String} {matcher : Matcher}
  {j : Journalled Pool}

/-- What instances are does not change. -/
theorem Grows.map_content (h : Grows p p') (hids : ids.map p.content = objects.map some) :
    ids.map p'.content = objects.map some := by
  rw [← hids]
  refine List.map_congr_left fun id hid => ?_
  obtain ⟨o, -, ho⟩ := List.mem_map.1 (hids ▸ List.mem_map_of_mem hid)
  rw [← ho, h.content ho.symm]

/-- **A query** looks at its texts first, and then into one bucket after the other. -/
theorem find_eq (type : String) (name : Option String) (matcher : Matcher) (j : Journalled Pool) :
    find type name matcher j =
      match name.mapM matcher.compile?, matcher.compile? type with
      | some name, some type =>
        (List.flatten <$> (j.state.types.filter type.accepts).mapM fun t =>
          (·.select name) <$> bucket t : Logged QueryError Pool _) j
      | _, _ => .error .badPattern j := by
  unfold find
  cases name with
  | none =>
    cases htype : matcher.compile? type with
    | none => simp only [needle, htype]; rfl
    | some t => simp only [needle, htype]; rfl
  | some text =>
    cases htext : matcher.compile? text with
    | none => simp only [needle, htext, Option.mapM_some]; rfl
    | some n =>
      cases htype : matcher.compile? type with
      | none => simp only [needle, htext, htype, Option.mapM_some]; rfl
      | some t => simp only [needle, htext, htype, Option.mapM_some]; rfl

/-- **A query of a sound pool finds what the sets say**, and the pool stays sound. -/
theorem ends_find (h : Sound registry sets j.state) (type : String) (name : Option String)
    (matcher : Matcher) :
    Ends (fun ids j' => Sound registry sets j'.state ∧ Grows j.state j'.state ∧
        ∃ objects, ObjectSet.answer sets type name matcher = .ok objects ∧
          ids.map j'.state.content = objects.map some)
      (fun e j' => j' = j ∧ ObjectSet.answer sets type name matcher = .error e)
      (find type name matcher j) := by
  rw [find_eq, ObjectSet.answer]
  cases hname : name.mapM matcher.compile? with
  | none => exact ⟨rfl, rfl⟩
  | some name =>
    cases htype : matcher.compile? type with
    | none => exact ⟨rfl, rfl⟩
    | some type =>
      simp only
      rw [map_eq_pure_bind, ends_bind, h.types_eq]
      -- what one bucket gave stays what it is while the others are looked into
      refine (ends_mapM (I := fun j' => Sound registry sets j'.state ∧ Grows j.state j'.state)
        (R := fun t ids j' => ids.map j'.state.content =
          ((RawObject.collapse (ObjectSet.objectsOf sets t)).filter fun o =>
            name.all (·.accepts o.fingerprint.name)).map some) ?_ ⟨h, .refl _⟩).mono ?_
        fun _ _ => False.elim
      · rintro t - j' ⟨hsound, hgrows⟩
        rw [map_eq_pure_bind, ends_bind]
        refine (ends_bucket hsound t).mono ?_ fun _ _ => id
        rintro b j'' ⟨hsound', hgrows', hb⟩
        exact ⟨⟨hsound', hgrows.trans hgrows'⟩, hb.map_select name,
          fun _ _ hold => hgrows'.map_content hold⟩
      · rintro found j' ⟨⟨hsound, hgrows⟩, hfound, -⟩
        refine ⟨hsound, hgrows, _, rfl, ?_⟩
        rw [map_flatten_of_forall₂ hfound, List.map_flatMap]

/-! ### One object -/

/-- The instances that were found, with their objects. -/
def withContent (p : Pool) (ids : List InstanceId) : List (InstanceId × RawObject) :=
  ids.filterMap fun id => (p.instance? id).map fun i => (id, i.raw)

theorem mem_withContent {c : InstanceId × RawObject} (h : c ∈ p.withContent ids) :
    c.1 ∈ ids ∧ p.content c.1 = some c.2 := by
  obtain ⟨id, hid, hc⟩ := List.mem_filterMap.1 h
  obtain ⟨i, hi, rfl⟩ := Option.map_eq_some_iff.1 hc
  exact ⟨hid, content_eq_of_instance? hi⟩

theorem withContent_snd (h : ids.map p.content = objects.map some) :
    (p.withContent ids).map (·.2) = objects := by
  have hcontent : ∀ id, ((p.instance? id).map fun i => (id, i.raw)).map Prod.snd = p.content id := by
    intro id
    rw [Option.map_map]
    rfl
  rw [withContent, List.map_filterMap, List.filterMap_congr fun id _ => hcontent id]
  have hid : ids.filterMap p.content = (ids.map p.content).filterMap id := by
    rw [List.filterMap_map]
    rfl
  rw [hid, h, List.filterMap_map]
  exact List.filterMap_some

/-- The instance of the one object among candidates. -/
def pick (type name : String) (candidates : List (InstanceId × RawObject)) :
    Logged QueryError Pool InstanceId :=
  match candidates with
  | [] => throw (.notFound type name)
  | [only] => return only.1
  | first :: others =>
    if others.all fun c => c.2.sameContent first.2 then do
      Logged.note .debug
        s!"{candidates.length} copies of {type} {name} are identical, returning the first"
      return first.1
    else
      throw (.ambiguous type name
        (candidates.map fun c => (c.2.fingerprint.origin, c.2.fingerprint.copy)))

theorem object_eq (type name : String) (origin : Option Nat) (copy : Option UInt8) :
    object type name origin copy = (find type (some name) .exact >>= fun found => do
      let p ← Logged.state
      pick type name ((p.withContent found).filter fun c => c.2.isOf origin copy)) := rfl

theorem ends_pick (type name : String) (candidates : List (InstanceId × RawObject))
    (j : Journalled Pool) :
    Ends (fun id j' => j'.state = j.state ∧ ∃ c ∈ candidates, c.1 = id ∧
        RawObject.pick type name (candidates.map (·.2)) = .ok c.2)
      (fun e j' => j' = j ∧ RawObject.pick type name (candidates.map (·.2)) = .error e)
      (pick type name candidates j) := by
  match candidates with
  | [] => exact ⟨rfl, rfl⟩
  | [only] => exact ⟨rfl, only, List.mem_cons_self, rfl, rfl⟩
  | first :: second :: others =>
    have hall : ((second :: others).map (·.2)).all (·.sameContent first.2) =
        (second :: others).all fun c => c.2.sameContent first.2 := List.all_map
    by_cases hsame : (second :: others).all (fun c => c.2.sameContent first.2) = true
    · simp only [pick]
      rw [if_pos hsame]
      exact ⟨rfl, first, List.mem_cons_self, rfl, if_pos (hall.trans hsame)⟩
    · have hdiffer : RawObject.pick type name ((first :: second :: others).map (·.2)) =
          .error (.ambiguous type name (((first :: second :: others).map (·.2)).map
            fun o => (o.fingerprint.origin, o.fingerprint.copy))) := if_neg (hall ▸ hsame)
      simp only [pick]
      rw [if_neg hsame]
      rw [List.map_map] at hdiffer
      exact ⟨rfl, hdiffer⟩

/-- **A query for one object of a sound pool** decides between the objects that are found as the sets
say, and the pool stays sound. -/
theorem ends_object (h : Sound registry sets j.state) (type name : String) (origin : Option Nat)
    (copy : Option UInt8) :
    Ends (fun id j' => Sound registry sets j'.state ∧ Grows j.state j'.state ∧
        ∃ o, ObjectSet.single sets type name origin copy = .ok o ∧ j'.state.content id = some o)
      (fun e j' => Sound registry sets j'.state ∧ Grows j.state j'.state ∧
        ObjectSet.single sets type name origin copy = .error e)
      (object type name origin copy j) := by
  rw [object_eq, ends_bind, ObjectSet.single]
  refine (ends_find h type (some name) .exact).mono ?_ ?_
  · rintro found j' ⟨hsound, hgrows, objects, hanswer, hcontent⟩
    rw [bind_state, hanswer]
    -- the candidates are the objects asked for, each with its instance
    have hcandidates : ((j'.state.withContent found).filter fun c => c.2.isOf origin copy).map (·.2) =
        objects.filter (·.isOf origin copy) := by
      rw [← withContent_snd hcontent, List.filter_map]
      rfl
    refine (ends_pick type name _ j').mono ?_ ?_
    · rintro id j'' ⟨hstate, c, hc, rfl, hpick⟩
      rw [hcandidates] at hpick
      rw [hstate]
      exact ⟨hsound, hgrows, c.2, hpick, (mem_withContent (List.mem_filter.1 hc).1).2⟩
    · rintro e j'' ⟨rfl, hpick⟩
      rw [hcandidates] at hpick
      exact ⟨hsound, hgrows, hpick⟩
  · rintro e j' ⟨rfl, hanswer⟩
    rw [hanswer]
    exact ⟨h, .refl _, rfl⟩

end WellLog.Pool
