import WellLog.Proofs.LogicalStream.Order
/-!
# Rules for a scan

A scan takes one step after the other until it stops.  What is known of every step is known of the
scan.

* `LogicalStream.ends_pass` : behind its first header, a record is passed over, or it opens another
  logical file.
* `LogicalStream.ends_collect_succ` : a scan takes a step, and then goes on or stops.
* `LogicalStream.ends_collect_keeps` : **what every step keeps is there where the scan stops**.
-/

namespace WellLog

namespace LogicalStream

variable {j : Journalled LogicalStream} {E : FormatError → Journalled LogicalStream → Prop}

/-! ### One step -/

/-- Behind its first header, a record is passed over, or it opens another logical file. -/
theorem ends_pass {Q : Found → Journalled LogicalStream → Prop} {s : LogicalStream}
    {header : SegmentHeader} {opens : Bool}
    (hvisible : opens = true → ∀ place atStart, s.visiblePosition = some (place, atStart) →
      if atStart then Q (.boundary place) j else E (.defect (.segment (.headerInside s.tell))) j)
    (hskip : Ends (fun _ j' => Q (.record s.tell header.flags.explicit) j') E
      (skipSegments s.tell s.extent header j)) :
    Ends Q E (pass s header opens j) := by
  have hrecord : Ends Q E ((skipSegments s.tell s.extent header >>= fun _ =>
      pure (.record s.tell header.flags.explicit) : Reading Found) j) := by
    rw [ends_bind]
    exact hskip
  unfold pass
  cases opens with
  | false => exact hrecord
  | true =>
    rw [if_pos rfl]
    cases hposition : s.visiblePosition with
    | none => exact hrecord
    | some p =>
      obtain ⟨place, atStart⟩ := p
      have hstop := hvisible rfl place atStart hposition
      cases atStart with
      | false => exact hstop
      | true => exact hstop

/-! ### Step after step -/

/-- The offsets of the records of a kind, with one more if it is that of such a record. -/
def pushIf (kind : Bool) (offset : Nat) (offsets : Array Nat) : Array Nat :=
  if kind then offsets.push offset else offsets

theorem toList_pushIf (kind : Bool) (offset : Nat) (offsets : Array Nat) :
    (pushIf kind offset offsets).toList = offsets.toList ++ if kind then [offset] else [] := by
  cases kind with
  | false => exact (List.append_nil _).symm
  | true => exact Array.toList_push

theorem mem_of_mem_pushIf {kind : Bool} {offset o : Nat} {offsets : Array Nat}
    (h : o ∈ (pushIf kind offset offsets).toList) : o ∈ offsets.toList ∨ o = offset := by
  rw [toList_pushIf, List.mem_append] at h
  cases kind with
  | false => exact h.imp_right nofun
  | true => exact h.imp_right List.mem_singleton.1

/-- Every record is of one kind. -/
theorem size_pushIf_add (explicit : Bool) (offset : Nat) (explicits implicits : Array Nat) :
    (pushIf explicit offset explicits).size + (pushIf (!explicit) offset implicits).size =
      explicits.size + implicits.size + 1 := by
  cases explicit with
  | false => exact congrArg _ (Array.size_push _)
  | true => exact (congrArg (· + _) (Array.size_push _)).trans (Nat.add_right_comm _ _ _)

/-- What a step comes to, behind the records at the offsets `explicits` and `implicits`.  `R` is said
of a scan that goes on, with the offset that is found, and `Q` of one that stops, whatever it notes
about it. -/
def Steps (Q : RecordIndex → Journalled LogicalStream → Prop)
    (R : Array Nat → Array Nat → Journalled LogicalStream → Prop) (explicits implicits : Array Nat)
    (found : Found) (j : Journalled LogicalStream) : Prop :=
  match found with
  | .record offset explicit =>
    R (pushIf explicit offset explicits) (pushIf (!explicit) offset implicits) j
  | .boundary place =>
    ∀ notes, Q ⟨explicits.toList, implicits.toList, .boundary, place⟩ ⟨j.state, notes⟩
  | .nothing =>
    Q ⟨explicits.toList, implicits.toList,
      if j.state.track.stop = some .fileMark then .fileMark else .mediumEnd, j.state.track.place⟩ j

/-- What a step fails with.  The scan stops at bytes that are no record, and fails otherwise. -/
def StepFails (Q : RecordIndex → Journalled LogicalStream → Prop)
    (E : FormatError → Journalled LogicalStream → Prop) (explicits implicits : Array Nat)
    (e : FormatError) (j : Journalled LogicalStream) : Prop :=
  if e.isStructural then
    ∀ notes, Q ⟨explicits.toList, implicits.toList, .broken, j.state.track.place⟩ ⟨j.state, notes⟩
  else E e j

variable {explicits implicits : Array Nat} {Q : RecordIndex → Journalled LogicalStream → Prop}
  {most : Nat}

/-- **A scan takes a step**, and then goes on or stops. -/
theorem ends_collect_succ
    (hstep : Ends
      (Steps Q (fun explicits implicits j => Ends Q E (collect most explicits implicits j))
        explicits implicits)
      (StepFails Q E explicits implicits)
      (nextRecord (explicits.size + implicits.size == 0) j)) :
    Ends Q E (collect (most + 1) explicits implicits j) := by
  rw [collect, ends_bind, ends_attempt]
  refine hstep.mono ?_ ?_
  · intro found j' hfound
    cases found with
    | record offset explicit =>
      cases explicit with
      | false => exact hfound
      | true => exact hfound
    | boundary place => exact hfound _
    | nothing => exact hfound
  · intro e j' he
    simp only [StepFails] at he ⊢
    split
    · rw [if_pos ‹_›] at he
      exact he _
    · rw [if_neg ‹_›] at he
      exact he

/-- **What every step keeps is there where the scan stops.**  `I` is kept from record to record, with
the offsets that are found. -/
theorem ends_collect_keeps {I : Array Nat → Array Nat → Journalled LogicalStream → Prop}
    (hspent : ∀ explicits implicits j, I explicits implicits j →
      Q ⟨explicits.toList, implicits.toList, .mediumEnd, j.state.track.place⟩ j)
    (hstep : ∀ explicits implicits j, I explicits implicits j →
      Ends (Steps Q I explicits implicits) (StepFails Q E explicits implicits)
        (nextRecord (explicits.size + implicits.size == 0) j))
    (h : I explicits implicits j) : Ends Q E (collect most explicits implicits j) := by
  induction most generalizing j explicits implicits with
  | zero => exact hspent _ _ _ h
  | succ most ih =>
    refine ends_collect_succ ((hstep _ _ _ h).mono ?_ fun _ _ => id)
    intro found j' hfound
    cases found with
    | record offset explicit => exact ih hfound
    | boundary place => exact hfound
    | nothing => exact hfound

end LogicalStream

end WellLog
