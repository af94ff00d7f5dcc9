import Mathlib
import WellLog.ObjectSet.Parser
import WellLog.Proofs.Pool.History
import WellLog.Proofs.Value.Numbers
/-!
# Deciding between copies of an object

A query for one object has to decide what to do with several candidates.  Copies of one object, which
have the very same attributes, are one object to the reader, and candidates that differ are to be told
apart by origin and copy.  The pool compares attributes as numbers.  So it misses copies that hold a
NaN, and takes candidates for copies that differ in the sign of a zero.  In all other cases it decides
as it should.

* `RawObject.verdict` : what the query is to answer.
* `ObjectSet.single_eq` : what it does answer.
* `RawObject.pick_eq_verdict_iff` : **it answers what it should exactly if comparing numbers is as
  good as comparing bits**.
* `RawObject.faithful_iff` : for objects of one type, that depends on NaN and on zeros alone.
* `Pool.settles_iff` : so it is for every pool.
-/

namespace WellLog

namespace RawObject

/-- Origin and copy. -/
def origination (o : RawObject) : Nat × UInt8 := (o.fingerprint.origin, o.fingerprint.copy)

/-- The objects have the very same attributes. -/
def Identical (objects : List RawObject) : Prop :=
  ∀ o ∈ objects, ∀ p ∈ objects, o.attributes = p.attributes

instance (objects : List RawObject) : Decidable (Identical objects) :=
  inferInstanceAs (Decidable (∀ o ∈ objects, ∀ p ∈ objects, o.attributes = p.attributes))

/-- The answer to a query for the one object of a type with a name, by the candidates: the first of
them, if they are identical, and otherwise the failure that lists them. -/
def verdict (type name : String) (candidates : List RawObject) : Except QueryError RawObject :=
  match candidates with
  | [] => .error (.notFound type name)
  | first :: others =>
    if Identical (first :: others) then .ok first
    else .error (.ambiguous type name ((first :: others).map (·.origination)))

/-- The objects have the same attributes, as far as numbers tell. -/
structure EqualAsNumbers (objects : List RawObject) : Prop where
  /-- A NaN is not equal to anything. -/
  hasNaN : ∀ o ∈ objects, o.hasNaN = false
  /-- Zeros are equal. -/
  attributes : ∀ o ∈ objects, ∀ p ∈ objects, o.withoutZeroSigns = p.withoutZeroSigns

/-- For these objects, comparing numbers is as good as comparing bits, and if they differ they can be
told apart. -/
structure Faithful (objects : List RawObject) : Prop where
  /-- Identical objects are those of one type that are equal as numbers. -/
  identical : Identical objects ↔ EqualAsNumbers objects ∧
    ∀ o ∈ objects, ∀ p ∈ objects, o.fingerprint.type = p.fingerprint.type
  /-- Objects that are not identical differ in origin or copy. -/
  nodup : ¬ Identical objects → (objects.map (·.origination)).Nodup

section

variable {type name : String} {first : RawObject} {others candidates : List RawObject}

/-- Several candidates are taken for copies of the first if they are of one type and equal as
numbers. -/
theorem all_sameContent_iff (hname : ∀ o ∈ first :: others, o.fingerprint.name = name)
    (hsome : others ≠ []) : others.all (·.sameContent first) = true ↔
      EqualAsNumbers (first :: others) ∧ ∀ o ∈ first :: others, ∀ p ∈ first :: others,
        o.fingerprint.type = p.fingerprint.type := by
  have hsame : others.all (·.sameContent first) = true ↔ ∀ o ∈ others,
      o.fingerprint.type = first.fingerprint.type ∧ o.hasNaN = false ∧ first.hasNaN = false ∧
        o.withoutZeroSigns = first.withoutZeroSigns := by
    rw [List.all_eq_true]
    refine forall₂_congr fun o ho => ?_
    have hnames : o.fingerprint.name = first.fingerprint.name :=
      (hname o (List.mem_cons_of_mem first ho)).trans (hname first List.mem_cons_self).symm
    simp only [sameContent, Bool.and_eq_true, beq_iff_eq, sameAttributes_iff, hnames, and_true]
  rw [hsame]
  constructor
  · intro h
    obtain ⟨o, ho⟩ := List.exists_mem_of_ne_nil others hsome
    -- each candidate is compared with the first one, and so with every other one
    have hfirst : ∀ o ∈ first :: others, o.fingerprint.type = first.fingerprint.type ∧
        o.hasNaN = false ∧ o.withoutZeroSigns = first.withoutZeroSigns :=
      List.forall_mem_cons.2 ⟨⟨rfl, (h o ho).2.2.1, rfl⟩,
        fun o ho => ⟨(h o ho).1, (h o ho).2.1, (h o ho).2.2.2⟩⟩
    exact ⟨⟨fun o ho => (hfirst o ho).2.1,
      fun o ho p hp => (hfirst o ho).2.2.trans (hfirst p hp).2.2.symm⟩,
      fun o ho p hp => (hfirst o ho).1.trans (hfirst p hp).1.symm⟩
  · rintro ⟨hequal, htype⟩ o ho
    have ho' : o ∈ first :: others := List.mem_cons_of_mem first ho
    have hmem : first ∈ first :: others := List.mem_cons_self
    exact ⟨htype o ho' first hmem, hequal.hasNaN o ho', hequal.hasNaN first hmem,
      hequal.attributes o ho' first hmem⟩

theorem identical_of_length_lt (h : candidates.length < 2) : Identical candidates := by
  match candidates, h with
  | [], _ => exact fun o ho => by cases ho
  | [only], _ =>
    intro o ho p hp
    rw [List.mem_singleton.1 ho, List.mem_singleton.1 hp]

/-- **A query answers what it should exactly if comparing numbers is as good as comparing bits**, or
there is nothing to compare. -/
theorem pick_eq_verdict_iff (hname : ∀ o ∈ candidates, o.fingerprint.name = name) :
    (pick type name candidates = verdict type name candidates ∧
        ((verdict type name candidates).isOk = false →
          (candidates.map (·.origination)).Nodup)) ↔
      (2 ≤ candidates.length → Faithful candidates) := by
  match candidates with
  | [] => exact iff_of_true ⟨rfl, fun _ => List.nodup_nil⟩ fun h => absurd h (Nat.not_succ_le_zero 1)
  | [only] =>
    have hidentical : Identical [only] := identical_of_length_lt (Nat.lt_succ_self 1)
    have hverdict : verdict type name [only] = .ok only := if_pos hidentical
    rw [hverdict]
    exact iff_of_true ⟨rfl, fun h => by cases h⟩ fun h => absurd h (Nat.not_succ_le_self 1)
  | first :: second :: others =>
    have hpick := all_sameContent_iff hname (List.cons_ne_nil second others)
    have hlength : 2 ≤ (first :: second :: others).length := Nat.le_add_left 2 others.length
    rw [pick.eq_3 _ _ _ _ (List.cons_ne_nil second others), verdict, forall_prop_of_true hlength]
    constructor
    · rintro ⟨hanswer, hnodup⟩
      refine ⟨?_, fun hdiffer => hnodup (by rw [if_neg hdiffer]; rfl)⟩
      rw [← hpick]
      split at hanswer
      · rename_i hall
        split at hanswer
        · exact iff_of_true ‹_› hall
        · cases hanswer
      · rename_i hall
        split at hanswer
        · cases hanswer
        · exact iff_of_false ‹_› hall
    · rintro ⟨hidentical, hnodup⟩
      rw [← hpick] at hidentical
      by_cases hall : Identical (first :: second :: others)
      · rw [if_pos hall, if_pos (hidentical.1 hall)]
        exact ⟨rfl, fun h => by cases h⟩
      · rw [if_neg hall, if_neg (mt hidentical.2 hall)]
        exact ⟨rfl, fun _ => hnodup hall⟩

/-- **For objects of one type that do not share a fingerprint, only NaN and zeros matter.** -/
theorem faithful_iff (hname : ∀ o ∈ candidates, o.fingerprint.name = name)
    (htype : ∀ o ∈ candidates, o.fingerprint.type = type)
    (hnodup : (candidates.map (·.fingerprint)).Nodup) :
    Faithful candidates ↔ (Identical candidates ↔ EqualAsNumbers candidates) := by
  have hsame : ∀ o ∈ candidates, ∀ p ∈ candidates, o.fingerprint.type = p.fingerprint.type :=
    fun o ho p hp => (htype o ho).trans (htype p hp).symm
  have horiginations : (candidates.map (·.origination)).Nodup := by
    have hfingerprints : candidates.map (·.fingerprint) =
        (candidates.map (·.origination)).map fun q => ⟨type, name, q.1, q.2⟩ := by
      rw [List.map_map]
      refine List.map_congr_left fun o ho => ?_
      rw [Function.comp_apply, origination, ← hname o ho, ← htype o ho]
    rw [hfingerprints] at hnodup
    exact hnodup.of_map _
  constructor
  · exact fun h => h.identical.trans (and_iff_left hsame)
  · exact fun h => ⟨h.trans (and_iff_left hsame).symm, fun _ => horiginations⟩

end

end RawObject

namespace ObjectSet

variable {sets : List ObjectSet} {type name : String} {origin : Option Nat} {copy : Option UInt8}
  {o : RawObject}

/-- The objects of a type with a name that count, of an origin and a copy if they are given, in the
order of declaration. -/
def candidates (sets : List ObjectSet) (type name : String) (origin : Option Nat)
    (copy : Option UInt8) : List RawObject :=
  (RawObject.collapse (objectsOf sets type)).filter fun o =>
    o.fingerprint.name == name && o.isOf origin copy

theorem single_eq (sets : List ObjectSet) (type name : String) (origin : Option Nat)
    (copy : Option UInt8) : single sets type name origin copy =
      RawObject.pick type name (candidates sets type name origin copy) := by
  have hfilter : ((RawObject.collapse (objectsOf sets type)).filter fun o =>
      (some name).all (· == o.fingerprint.name)).filter (·.isOf origin copy) =
      candidates sets type name origin copy := by
    rw [List.filter_filter, candidates]
    refine List.filter_congr fun o _ => ?_
    rw [Option.all_some, Bool.and_comm, BEq.comm]
  rw [single, answer_exact, ← hfilter]
  rfl

theorem mem_candidates (h : o ∈ candidates sets type name origin copy) :
    o ∈ objectsOf sets type ∧ o.fingerprint.name = name := by
  obtain ⟨hmem, hof⟩ := List.mem_filter.1 h
  exact ⟨RawObject.mem_of_mem_collapse hmem, beq_iff_eq.1 (Bool.and_eq_true_iff.1 hof).1⟩

theorem nodup_candidates (sets : List ObjectSet) (type name : String) (origin : Option Nat)
    (copy : Option UInt8) :
    ((candidates sets type name origin copy).map (·.fingerprint)).Nodup :=
  (RawObject.nodup_fingerprints_collapse _).sublist (List.filter_sublist.map _)

/-- Candidates have the type that is asked for, where objects have the types of their sets. -/
theorem type_of_mem_candidates (htyped : ∀ s ∈ sets, s.Typed)
    (h : o ∈ candidates sets type name origin copy) : o.fingerprint.type = type :=
  type_of_mem_objectsOf htyped (mem_candidates h).1

end ObjectSet

namespace Pool

/-- A query for one object has ended as the verdict on the candidates says, and its failure lists none
of them twice. -/
def Settles (type name : String) (candidates : List RawObject) :
    EStateM.Result QueryError (Journalled Pool) InstanceId → Prop :=
  Ends (fun id j => ∃ o, RawObject.verdict type name candidates = .ok o ∧ j.state.content id = some o)
    (fun e _ => RawObject.verdict type name candidates = .error e ∧
      (candidates.map (·.origination)).Nodup)

variable {registry : Registry} {sets : List ObjectSet} {j : Journalled Pool}

theorem settles_iff_of_sound (h : Sound registry sets j.state) (type name : String)
    (origin : Option Nat) (copy : Option UInt8) :
    Settles type name (ObjectSet.candidates sets type name origin copy)
        (object type name origin copy j) ↔
      (2 ≤ (ObjectSet.candidates sets type name origin copy).length →
        RawObject.Faithful (ObjectSet.candidates sets type name origin copy)) := by
  set candidates := ObjectSet.candidates sets type name origin copy with hcandidates
  have hname : ∀ o ∈ candidates, o.fingerprint.name = name :=
    fun o ho => (ObjectSet.mem_candidates ho).2
  rw [← @RawObject.pick_eq_verdict_iff type name candidates hname]
  have hrun := ends_object h type name origin copy
  rw [ObjectSet.single_eq, ← hcandidates] at hrun
  cases hobject : object type name origin copy j with
  | ok id j' =>
    rw [hobject] at hrun
    obtain ⟨-, -, o, hpick, hcontent⟩ := hrun
    rw [Settles, ends_ok, hpick, hcontent]
    constructor
    · rintro ⟨o', hverdict, ho'⟩
      obtain rfl : o = o' := Option.some.inj ho'
      rw [hverdict]
      exact ⟨rfl, fun h => by cases h⟩
    · rintro ⟨hverdict, -⟩
      exact ⟨o, hverdict.symm, rfl⟩
  | error e j' =>
    rw [hobject] at hrun
    obtain ⟨-, -, hpick⟩ := hrun
    rw [Settles, Ends, hpick]
    constructor
    · rintro ⟨hverdict, hnodup⟩
      exact ⟨hverdict.symm, fun _ => hnodup⟩
    · rintro ⟨hverdict, hnodup⟩
      rw [← hverdict] at hnodup ⊢
      exact ⟨rfl, hnodup rfl⟩

/-- **A query for one object is settled as it should exactly if there are no two candidates, or
comparing their numbers is as good as comparing their bits.**  Where objects have the types of their
sets, that is: identical candidates hold no NaN, and candidates that are equal as numbers do not
differ in the signs of zeros. -/
theorem settles_iff (registry : Registry) (notes : Array Note) (history : List Call)
    (type name : String) (origin : Option Nat) (copy : Option UInt8) :
    (Settles type name (ObjectSet.candidates (added history) type name origin copy)
        (object type name origin copy (after registry notes history)) ↔
      (2 ≤ (ObjectSet.candidates (added history) type name origin copy).length →
        RawObject.Faithful (ObjectSet.candidates (added history) type name origin copy))) ∧
    ((∀ s ∈ added history, s.Typed) →
      (RawObject.Faithful (ObjectSet.candidates (added history) type name origin copy) ↔
        (RawObject.Identical (ObjectSet.candidates (added history) type name origin copy) ↔
          RawObject.EqualAsNumbers
            (ObjectSet.candidates (added history) type name origin copy)))) := by
  refine ⟨settles_iff_of_sound (sound_after registry notes history) type name origin copy,
    fun htyped => ?_⟩
  exact RawObject.faithful_iff (fun o ho => (ObjectSet.mem_candidates ho).2)
    (fun o ho => ObjectSet.type_of_mem_candidates htyped ho)
    (ObjectSet.nodup_candidates (added history) type name origin copy)

/-- A set with two copies of an object, of two origins, and another object. -/
def copiedSet : ObjectSet :=
  ⟨"T", none, .plain, 3, [⟨⟨"T", "A", 2, 0⟩, [⟨"L", 1, 7, "", [.float ⟨0x3FF0000000000000⟩]⟩]⟩,
    ⟨⟨"T", "B", 1, 0⟩, [⟨"L", 1, 7, "", [.float ⟨0x7FF8000000000000⟩]⟩]⟩,
    ⟨⟨"T", "A", 1, 0⟩, [⟨"L", 1, 7, "", [.float ⟨0x3FF0000000000000⟩]⟩]⟩]⟩

theorem settles_copiedSet :
    (∀ s ∈ added [.addSets [copiedSet]], s.Typed) ∧
      Settles "T" "A" (ObjectSet.candidates (added [.addSets [copiedSet]]) "T" "A" none none)
        (object "T" "A" none none (after .empty #[] [.addSets [copiedSet]])) := by
  have htyped : ∀ s ∈ added [.addSets [copiedSet]], s.Typed := by
    intro s hs
    obtain rfl : s = copiedSet := List.mem_singleton.1 hs
    unfold ObjectSet.Typed
    decide
  obtain ⟨hsettles, hfaithful⟩ := settles_iff .empty #[] [.addSets [copiedSet]] "T" "A" none none
  have hcandidates : ObjectSet.candidates (added [.addSets [copiedSet]]) "T" "A" none none =
      [⟨⟨"T", "A", 2, 0⟩, [⟨"L", 1, 7, "", [.float ⟨0x3FF0000000000000⟩]⟩]⟩,
        ⟨⟨"T", "A", 1, 0⟩, [⟨"L", 1, 7, "", [.float ⟨0x3FF0000000000000⟩]⟩]⟩] := by cbv
  refine ⟨htyped, hsettles.2 fun _ => (hfaithful htyped).2 ?_⟩
  rw [hcandidates]
  exact iff_of_true (by decide) ⟨by decide, by decide⟩

/-- A set with an attribute that is a NaN, and two copies of an object, of two origins, which take it
from the template. -/
def nanBody : List UInt8 :=
  [0xF0, 1, 0x54] ++ [0x35, 1, 0x4C, 7, 0x7F, 0xF8, 0, 0, 0, 0, 0, 0] ++ [0x70, 1, 0, 1, 0x41] ++
    [0x70, 2, 0, 1, 0x41]

/-- The set as it is read. -/
def nanSet : ObjectSet :=
  ⟨"T", none, .plain, 3, [⟨⟨"T", "A", 1, 0⟩, [⟨"L", 1, 7, "", [.float ⟨0x7FF8000000000000⟩]⟩]⟩,
    ⟨⟨"T", "A", 2, 0⟩, [⟨"L", 1, 7, "", [.float ⟨0x7FF8000000000000⟩]⟩]⟩]⟩

/-- A set with two objects of a name.  The attribute of one is a zero, and that of the other is a
negative zero. -/
def zeroBody : List UInt8 :=
  [0xF0, 1, 0x54] ++ [0x35, 1, 0x4C, 7, 0, 0, 0, 0, 0, 0, 0, 0] ++ [0x70, 1, 0, 1, 0x41] ++
    [0x70, 2, 0, 1, 0x41, 0x21, 0x80, 0, 0, 0, 0, 0, 0, 0]

/-- The set as it is read. -/
def zeroSet : ObjectSet :=
  ⟨"T", none, .plain, 3, [⟨⟨"T", "A", 1, 0⟩, [⟨"L", 1, 7, "", [.float ⟨0⟩]⟩]⟩,
    ⟨⟨"T", "A", 2, 0⟩, [⟨"L", 1, 7, "", [.float ⟨0x8000000000000000⟩]⟩]⟩]⟩

/-- Identical copies that hold a NaN are taken for different objects, and objects that differ in the
sign of a zero for copies. -/
theorem object_nanSet_zeroSet :
    (ObjectSet.parse 3 nanBody = .ok nanSet ∧
      Ends (fun _ _ => False) (fun e _ => e = .ambiguous "T" "A" [(1, 0), (2, 0)])
        (object "T" "A" none none (after .empty #[] [.addSets [nanSet]])) ∧
      ¬ Settles "T" "A" (ObjectSet.candidates [nanSet] "T" "A" none none)
          (object "T" "A" none none (after .empty #[] [.addSets [nanSet]]))) ∧
    ObjectSet.parse 3 zeroBody = .ok zeroSet ∧
      Ends (fun id j => j.state.content id = zeroSet.objects.head?) (fun _ _ => False)
        (object "T" "A" none none (after .empty #[] [.addSets [zeroSet]])) ∧
      ¬ Settles "T" "A" (ObjectSet.candidates [zeroSet] "T" "A" none none)
          (object "T" "A" none none (after .empty #[] [.addSets [zeroSet]])) := by
  have hnan : ObjectSet.candidates [nanSet] "T" "A" none none = nanSet.objects := by cbv
  have hzero : ObjectSet.candidates [zeroSet] "T" "A" none none = zeroSet.objects := by cbv
  refine ⟨⟨by cbv, by cbv, ?_⟩, by cbv, by cbv, ?_⟩
  · have hsound : Sound .empty [nanSet] (after .empty #[] [.addSets [nanSet]]).state :=
      sound_after .empty #[] [.addSets [nanSet]]
    rw [settles_iff_of_sound hsound, hnan]
    intro hfaithful
    have hidentical : RawObject.Identical nanSet.objects := by decide
    have hnone := ((hfaithful (by decide)).identical.1 hidentical).1.hasNaN
    exact absurd (hnone _ List.mem_cons_self) (by decide)
  · have hsound : Sound .empty [zeroSet] (after .empty #[] [.addSets [zeroSet]]).state :=
      sound_after .empty #[] [.addSets [zeroSet]]
    rw [settles_iff_of_sound hsound, hzero]
    intro hfaithful
    have hequal : RawObject.EqualAsNumbers zeroSet.objects := ⟨by decide, by decide⟩
    have hdiffer : ¬ RawObject.Identical zeroSet.objects := by decide
    exact hdiffer ((hfaithful (by decide)).identical.2 ⟨hequal, by decide⟩)

end Pool

end WellLog
