import WellLog.Pool.Link
import WellLog.Proofs.Pool.Declared
/-!
# What linking reports

The report of linking is built reference by reference, and a dangling reference is only added if none
like it is there.  What comes out can be said without the order of work: the number of the references
that lead to an object, and the others, each object and target once.

* `ObjectSet.linkReport` : what linking reports about the objects of some sets.
* `LinkReport.foldl_count` : **references that are counted one by one give that report**.
* `ObjectSet.describes_linkReport` : **it is what there is to say**; what is dangling is reported, once
  and under the label where it stands first.
-/

namespace WellLog

/-- The references of an object, in the order of its attributes and their values.  They are written as
if they were dangling. -/
def Registry.citations (registry : Registry) (o : RawObject) : List Dangling :=
  o.attributes.flatMap fun a =>
    (a.values.filterMap (target (registry.namedType o a.label))).map fun t =>
      ⟨o.fingerprint, a.label, t⟩

/-- An attribute without references makes no difference. -/
theorem Registry.flatMap_references (registry : Registry) (o : RawObject) :
    (registry.references o).flatMap (fun r => r.2.map fun t => ⟨o.fingerprint, r.1, t⟩) =
      registry.citations o := by
  rw [references, citations]
  induction o.attributes with
  | nil => rfl
  | cons a attributes ih =>
    simp only [List.map_cons, List.flatMap_cons]
    rw [← ih]
    cases h : a.values.filterMap (target (registry.namedType o a.label)) with
    | nil => simp
    | cons t ts => simp

namespace Dangling

/-- The object with the reference, and its target. -/
def ends (d : Dangling) : Fingerprint × Fingerprint := (d.source, d.target)

/-- The same object refers to the same target. -/
def same (d e : Dangling) : Bool := d.ends == e.ends

theorem same_comm (d e : Dangling) : d.same e = e.same d := BEq.comm

end Dangling

/-! ### References one by one -/

namespace LinkReport

/-- A report with one more reference. -/
def count (isThere : Fingerprint → Bool) (report : LinkReport) (d : Dangling) : LinkReport :=
  if isThere d.target then { report with resolved := report.resolved + 1 }
  else Pool.addDangling d report

theorem addDangling_eq (d : Dangling) (report : LinkReport) :
    Pool.addDangling d report = if report.dangling.any (·.same d) then report
      else { report with dangling := report.dangling ++ [d] } := rfl

theorem resolved_addDangling (d : Dangling) (report : LinkReport) :
    (Pool.addDangling d report).resolved = report.resolved := by
  unfold Pool.addDangling
  split <;> rfl

/-- What is dangling, where some of it is reported already. -/
theorem foldl_addDangling (ds : List Dangling) (report : LinkReport) :
    ds.foldl (fun report d => Pool.addDangling d report) report =
      { report with dangling := report.dangling ++
          (ds.filter fun d => !report.dangling.any (·.same d)).eraseDupsBy Dangling.same } := by
  induction ds generalizing report with
  | nil => simp
  | cons d ds ih =>
    rw [List.foldl_cons, ih, addDangling_eq]
    by_cases hold : report.dangling.any (·.same d) = true
    · rw [if_pos hold, List.filter_cons_of_neg (by simp [hold])]
    · -- what is left is neither reported already nor the same as the new one
      have hrest : ∀ e : Dangling, (!(report.dangling ++ [d]).any (·.same e)) =
          (decide (e.same d = false) && !report.dangling.any (·.same e)) := by
        intro e
        simp [Dangling.same_comm d e, Bool.and_comm]
      rw [if_neg hold, List.filter_cons_of_pos (by simpa using hold), List.eraseDupsBy_cons,
        List.filter_filter]
      simp only [hrest, List.append_assoc, List.singleton_append]

/-- **References that are counted one by one.** -/
theorem foldl_count (isThere : Fingerprint → Bool) (ds : List Dangling) :
    ds.foldl (count isThere) ⟨0, []⟩ =
      ⟨ds.countP fun d => isThere d.target,
        (ds.filter fun d => !isThere d.target).eraseDupsBy Dangling.same⟩ := by
  -- the two kinds of references do not meet
  suffices h : ∀ report : LinkReport, ds.foldl (count isThere) report =
      { (ds.filter fun d => !isThere d.target).foldl (fun report d => Pool.addDangling d report)
          report with resolved := report.resolved + ds.countP fun d => isThere d.target } by
    rw [h, foldl_addDangling]
    simp
  intro report
  induction ds generalizing report with
  | nil => rfl
  | cons d ds ih =>
    rw [List.foldl_cons, ih, count]
    cases hthere : isThere d.target with
    | true => simp [hthere, foldl_addDangling, Nat.add_assoc, Nat.add_comm]
    | false => simp [hthere, resolved_addDangling]

end LinkReport

/-! ### The report about some objects -/

theorem Dangling.ends_eraseDupsBy_same (ds : List Dangling) :
    (ds.eraseDupsBy Dangling.same).map Dangling.ends = (ds.map Dangling.ends).eraseDups :=
  map_eraseDupsBy Dangling.ends ds

/-- A report says what there is to say about the references of some objects. -/
structure LinkReport.Describes (report : LinkReport) (registry : Registry)
    (objects : List RawObject) : Prop where
  /-- The references to one of the objects are counted. -/
  resolved_eq : report.resolved =
    (objects.flatMap registry.citations).countP fun d => objects.any (·.fingerprint == d.target)
  /-- The others are reported by object and target, and nothing else is. -/
  mem_iff : ∀ source target, (source, target) ∈ report.dangling.map Dangling.ends ↔
    (∃ d ∈ objects.flatMap registry.citations, d.source = source ∧ d.target = target) ∧
      ∀ o ∈ objects, o.fingerprint ≠ target
  /-- None of them is reported twice. -/
  nodup : (report.dangling.map Dangling.ends).Nodup
  /-- It is reported under the label where the object refers to the target first. -/
  first : ∀ d ∈ report.dangling, (objects.flatMap registry.citations).find? (d.same ·) = some d
  /-- They are in order. -/
  sublist : report.dangling.Sublist (objects.flatMap registry.citations)

/-- What linking reports about the objects of some sets. -/
def ObjectSet.linkReport (registry : Registry) (sets : List ObjectSet) : LinkReport :=
  let cited := (contents sets).flatMap registry.citations
  let isThere (d : Dangling) := (contents sets).any (·.fingerprint == d.target)
  ⟨cited.countP isThere, (cited.filter (!isThere ·)).eraseDupsBy Dangling.same⟩

/-- **The report says what there is to say.** -/
theorem ObjectSet.describes_linkReport (registry : Registry) (sets : List ObjectSet) :
    (linkReport registry sets).Describes registry (contents sets) where
  resolved_eq := rfl
  mem_iff source target := by
    rw [linkReport]
    simp only
    rw [Dangling.ends_eraseDupsBy_same, List.mem_eraseDups]
    simp only [List.mem_map, List.mem_filter, Dangling.ends, Prod.mk.injEq, Bool.not_eq_true',
      List.any_eq_false, beq_iff_eq]
    constructor
    · rintro ⟨d, ⟨hd, hnot⟩, rfl, rfl⟩
      exact ⟨⟨d, hd, rfl, rfl⟩, hnot⟩
    · rintro ⟨⟨d, hd, rfl, rfl⟩, hnot⟩
      exact ⟨d, ⟨hd, hnot⟩, rfl, rfl⟩
  nodup := by
    rw [linkReport]
    simp only
    rw [Dangling.ends_eraseDupsBy_same]
    exact nodup_eraseDups _
  first d hd := by
    have hnot := (List.mem_filter.1 ((eraseDupsBy_sublist Dangling.ends _).subset hd)).2
    rw [← find?_of_mem_eraseDupsBy Dangling.ends _ hd]
    refine (find?_filter_of_imp (fun e he => ?_) _).symm
    -- what has the same target is dangling, too
    have htarget : d.target = e.target := congrArg Prod.snd (beq_iff_eq.1 he)
    simp only [htarget] at hnot
    exact hnot
  sublist := (eraseDupsBy_sublist Dangling.ends _).trans List.filter_sublist

end WellLog
