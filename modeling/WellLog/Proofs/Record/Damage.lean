import WellLog.FrameData
import WellLog.Proofs.Record.Chain
/-!
# Damaged records

On a medium without faults, whatever keeps a record from being read is in the bytes.  Such a failure
is structural, and those who collect records leave the record out and go on.  So they never fail, be
the bytes what they are.

* `LogicalStream.Anchored.ends_readRecord_spoilt` : **only the bytes keep a record from being read**,
  at any offset.
* `LogicalStream.Anchored.ends_extractRecords`, `LogicalStream.Anchored.ends_indexFrames` : **records
  and samples can always be collected**.
-/

namespace WellLog

namespace LogicalStream

variable {m : Medium} {framed : Bool} {F : Feed} {k : Nat} {j : Journalled LogicalStream}

section

variable (hfault : m.manner.fault = none)
include hfault

/-- The data of a segment is read, or the bytes are to blame. -/
theorem At.ends_readPayload (h : j.state.At m framed F k) (header : SegmentHeader) :
    Ends (fun _ j' => ∃ k', j'.state.At m framed F k') (Spoilt m framed F)
      (readPayload header j) := by
  unfold readPayload
  rw [ends_bind, ends_liftRead]
  by_cases hlen : k + header.bodyLength ≤ F.contents.bytes.length
  · obtain ⟨s', hg, hat⟩ := h.gather_of_le hlen
    have hfull : ¬ ((F.contents.bytes.drop k).take header.bodyLength).length < header.bodyLength := by
      rw [List.length_take, List.length_drop]
      omega
    rw [hg, ends_ok, if_neg hfull]
    exact ends_accept hat.toAnchored fun _ _ => ⟨_, hat⟩
  · -- the data is cut short, whether the visible records end or the medium does
    have hle := h.le_length
    refine (h.ends_gather_of_lt (Nat.lt_of_not_le hlen)).mono ?_ ?_
    · rintro got s' ⟨rfl, hend⟩
      rw [if_pos (by rw [List.length_drop]; omega)]
      exact ⟨rfl, hend.toAnchored⟩
    · exact fun e s' he => ⟨he.short.isStructural hfault, he.toAnchored⟩

/-- The segments behind the first one are read, or the bytes are to blame. -/
theorem At.ends_readSuccessors (h : j.state.At m framed F k) (offset : Nat) (type : UInt8)
    (most : Nat) (header : SegmentHeader) :
    Ends (fun _ j' => j'.state.Anchored m framed F) (Spoilt m framed F)
      (readSuccessors offset type most header j) := by
  induction most generalizing k j header with
  | zero => exact h.toAnchored
  | succ most ih =>
    rw [readSuccessors]
    split
    · exact h.toAnchored
    · rw [ends_bind]
      refine (h.ends_requireHeader hfault offset).mono ?_ fun _ _ => id
      rintro next j₁ ⟨-, -, h₁⟩
      have hrest : ∀ j₁ : Journalled LogicalStream,
          j₁.state.At m framed F (k + SegmentHeader.size) →
          Ends (fun _ j' => j'.state.Anchored m framed F) (Spoilt m framed F)
            ((readPayload next >>= fun data => readSuccessors offset type most next >>= fun more =>
              pure (data ++ more) : Reading (List UInt8)) j₁) := by
        intro j₁ h₁
        rw [ends_bind]
        refine (h₁.ends_readPayload hfault next).mono ?_ fun _ _ => id
        rintro data j₂ ⟨k', h₂⟩
        rw [ends_bind]
        exact (ih h₂ next).mono (fun _ _ => id) fun _ _ => id
      -- a segment of another type is worth a note and no more
      split
      · rw [ends_bind, ends_note]
        exact hrest _ h₁
      · exact hrest _ h₁

/-- **Only the bytes keep a record from being read**, wherever one reads. -/
theorem Anchored.ends_readRecord_spoilt (h : j.state.Anchored m framed F) (hF : F.Opens)
    (offset : Nat) :
    Ends (fun _ j' => j'.state.Anchored m framed F) (Spoilt m framed F) (readRecord offset j) := by
  unfold readRecord
  rw [ends_bind, ends_lift]
  by_cases hlen : offset ≤ F.contents.bytes.length
  · obtain ⟨s', hseek, hat⟩ := h.seek_of_le hF hlen
    rw [hseek, ends_ok, ends_bind]
    refine (At.ends_requireHeader hfault (j := ⟨s', j.notes⟩) hat offset).mono ?_ fun _ _ => id
    rintro first j₁ ⟨-, -, h₁⟩
    rw [ends_bind]
    refine (h₁.ends_readPayload hfault first).mono ?_ fun _ _ => id
    rintro data j₂ ⟨k', h₂⟩
    rw [ends_bind, ends_state, ends_bind]
    exact (h₂.ends_readSuccessors hfault offset _ _ first).mono (fun _ _ => id) fun _ _ => id
  · refine (h.ends_seek_of_lt hF (Nat.lt_of_not_le hlen)).mono (fun _ _ => False.elim) ?_
    rintro e s' ⟨x, rfl, hshort⟩
    exact ⟨hshort.isStructural hfault, hshort.toAnchored⟩

/-- A record that cannot be read is left out. -/
theorem Anchored.ends_readIntact (h : j.state.Anchored m framed F) (hF : F.Opens) (offset : Nat)
    (what : String) :
    Ends (fun _ j' => j'.state.Anchored m framed F) (fun _ _ => False)
      (readIntact offset what j) := by
  unfold readIntact
  rw [ends_bind, ends_attempt]
  refine (h.ends_readRecord_spoilt hfault hF offset).mono (fun _ _ => id) ?_
  rintro e j' ⟨hstructural, hj'⟩
  simp only [hstructural, if_true]
  exact hj'

/-- **Records can always be collected.** -/
theorem Anchored.ends_extractRecords (h : j.state.Anchored m framed F) (hF : F.Opens)
    (offsets : List Nat) :
    Ends (fun _ j' => j'.state.Anchored m framed F) (fun _ _ => False)
      (extractRecords offsets j) := by
  unfold extractRecords
  rw [ends_bind]
  refine (ends_filterMapM_keeps (I := fun j => j.state.Anchored m framed F) ?_ h).mono
    (fun _ _ => id) fun _ _ => id
  exact fun offset _ j' hj' => hj'.ends_readIntact hfault hF offset _

/-- **Samples can always be collected.** -/
theorem Anchored.ends_indexFrames (h : j.state.Anchored m framed F) (hF : F.Opens)
    (offsets : List Nat) :
    Ends (fun _ j' => j'.state.Anchored m framed F) (fun _ _ => False) (indexFrames offsets j) := by
  unfold indexFrames
  rw [ends_bind]
  refine (ends_filterMapM_keeps (I := fun j => j.state.Anchored m framed F) ?_ h).mono
    (fun _ _ => id) fun _ _ => id
  intro offset _ j' hj'
  unfold frameAt
  rw [ends_bind, ends_bind]
  refine (hj'.ends_readIntact hfault hF offset _).mono ?_ fun _ _ => id
  rintro found j'' hj''
  cases found with
  | none => exact hj''
  | some record =>
    simp only
    split
    · exact hj''
    · cases record.frame with
      | ok frame => exact hj''
      | error d => exact hj''

end

end LogicalStream

end WellLog
