import WellLog.FrameData
import WellLog.Proofs.LogicalStream.Beside
import WellLog.Record.Scan
/-!
# Records of streams beside each other

Two logical streams at the same place of the same image: the one on the left is read in any pieces
and may fail where `H` says, and the one on the right delivers one byte at a time and never fails.
Finding and reading records makes damaged data a result and not a failure.  A failure of the medium
stays one as long as it is not structural, which is the hypothesis of all that follows here.

* `LogicalStream.mirrors_findRecords` : **the same records are found**, or the medium refuses.
* `LogicalStream.mirrors_readRecord`, `LogicalStream.mirrors_extractRecords`,
  `LogicalStream.mirrors_indexFrames` : **the same records are read**, or the medium refuses.
-/

namespace WellLog

namespace LogicalStream

variable {H : IoError → Prop} {α : Type}

theorem mirrors_accept (r : Except Defect α) :
    Mirrors (FormatError.Of H) (Noted (Beside H)) Eq (accept r) (accept r) := by
  cases r with
  | ok a => exact .pure rfl
  | error d => exact .throw _

theorem mirrors_readHeader :
    Mirrors H (Beside H) Eq SegmentHeader.read SegmentHeader.read := by
  refine .bind_eq (mirrors_gather _) fun bytes => ?_
  split
  · exact .pure rfl
  · exact .pure rfl
  · exact .throw _

theorem mirrors_requireHeader (offset : Nat) :
    Mirrors (FormatError.Of H) (Noted (Beside H)) Eq (requireHeader offset) (requireHeader offset) := by
  refine .bind_eq (.liftRead mirrors_readHeader) fun found => ?_
  cases found with
  | none => exact .throw _
  | some header => exact .bind_eq (mirrors_accept _) fun _ => .pure rfl

theorem mirrors_readPayload (header : SegmentHeader) :
    Mirrors (FormatError.Of H) (Noted (Beside H)) Eq (readPayload header) (readPayload header) := by
  refine .bind_eq (.liftRead (mirrors_gather _)) fun body => ?_
  split
  · exact .throw_bind _
  · exact mirrors_accept _

theorem mirrors_readSuccessors (offset : Nat) (type : UInt8) (most : Nat) (header : SegmentHeader) :
    Mirrors (FormatError.Of H) (Noted (Beside H)) Eq (readSuccessors offset type most header)
      (readSuccessors offset type most header) := by
  induction most generalizing header with
  | zero => exact .pure rfl
  | succ most ih =>
    unfold readSuccessors
    split
    · exact .pure rfl
    · refine .bind_eq (mirrors_requireHeader offset) fun next => ?_
      -- the types may differ, which is worth a note and no more
      split
      · refine .bind_note (.bind_eq (mirrors_readPayload next) fun data => ?_)
        exact .bind_eq (ih next) fun _ => .pure rfl
      · refine .bind_eq (mirrors_readPayload next) fun data => ?_
        exact .bind_eq (ih next) fun _ => .pure rfl

/-- **The same record is read.** -/
theorem mirrors_readRecord (offset : Nat) :
    Mirrors (FormatError.Of H) (Noted (Beside H)) Eq (readRecord offset) (readRecord offset) := by
  refine .bind_eq (.lift (mirrors_seek offset)) fun _ => ?_
  refine .bind_eq (mirrors_requireHeader offset) fun first => ?_
  refine .bind_eq (mirrors_readPayload first) fun data => .bind_state fun s s' hs => ?_
  rw [hs.extent]
  exact .bind_eq (mirrors_readSuccessors _ _ _ _) fun _ => .pure rfl

section

variable (hH : ∀ e, H e → (FormatError.io e).isStructural = false)
include hH

/-- A refusal is none of the failures that say that the data is unusable. -/
theorem isStructural_of_refused {e : FormatError} (h : e.Of H) : e.isStructural = false := by
  cases e with
  | defect d => exact h.elim
  | io e => exact hH e h

theorem mirrors_readIntact (offset : Nat) (what : String) :
    Mirrors (FormatError.Of H) (Noted (Beside H)) Eq (readIntact offset what)
      (readIntact offset what) := by
  refine .attempt_bind (mirrors_readRecord offset) ?_ ?_ ?_
  · rintro record _ rfl
    exact .pure rfl
  · intro e
    simp only
    split
    · exact .bind_note (.pure rfl)
    · exact .throw e
  · intro e s he
    simp only [isStructural_of_refused hH he]
    exact he

/-- **The same records are read**, and the same ones are left out. -/
theorem mirrors_extractRecords (offsets : List Nat) :
    Mirrors (FormatError.Of H) (Noted (Beside H)) Eq (extractRecords offsets)
      (extractRecords offsets) :=
  .bind_eq (.filterMapM (fun offset => mirrors_readIntact hH offset "record") offsets)
    fun _ => .bind_note (.pure rfl)

theorem mirrors_frameAt (offset : Nat) :
    Mirrors (FormatError.Of H) (Noted (Beside H)) Eq (frameAt offset) (frameAt offset) := by
  refine .bind_eq (mirrors_readIntact hH offset _) fun found => ?_
  cases found with
  | none => exact .pure rfl
  | some record =>
    simp only
    split
    · exact .pure rfl
    · split
      · exact .pure rfl
      · exact .bind_note (.pure rfl)

/-- **The sample records are the same**, frame by frame. -/
theorem mirrors_indexFrames (offsets : List Nat) :
    Mirrors (FormatError.Of H) (Noted (Beside H)) Eq (indexFrames offsets) (indexFrames offsets) :=
  .bind_eq (.filterMapM (fun offset => .bind_eq (mirrors_frameAt hH offset) fun _ => .pure rfl) _)
    fun _ => .bind_note (.pure rfl)

end

/-! ### The scan -/

theorem mirrors_skipSegments (offset most : Nat) (header : SegmentHeader) :
    Mirrors (FormatError.Of H) (Noted (Beside H)) Eq (skipSegments offset most header)
      (skipSegments offset most header) := by
  induction most generalizing header with
  | zero => exact .pure rfl
  | succ most ih =>
    unfold skipSegments
    refine .bind_eq (.liftRead (mirrors_skip _)) fun _ => ?_
    split
    · refine .bind_eq (mirrors_requireHeader offset) fun next => ?_
      split
      · exact .throw_bind _
      · exact ih next
    · exact .pure rfl

/-- **The scan meets the same on both sides.** -/
theorem mirrors_nextRecord (first : Bool) :
    Mirrors (FormatError.Of H) (Noted (Beside H)) Eq (nextRecord first) (nextRecord first) := by
  unfold nextRecord
  refine .bind_eq (.liftRead mirrors_fill) fun more => ?_
  split
  · exact .pure rfl
  refine .bind_state fun s s' hs => ?_
  have hextent := hs.extent
  obtain ⟨t', -, rfl⟩ := hs
  have hposition : ({ s with track := t' } : LogicalStream).visiblePosition = s.visiblePosition := rfl
  rw [hextent, hposition]
  refine .bind_eq (.liftRead mirrors_readHeader) fun found => ?_
  cases found with
  | none => exact .pure rfl
  | some header =>
    refine .bind_eq (mirrors_accept _) fun _ => ?_
    split
    · exact .throw_bind _
    simp only
    split
    · split
      · exact .pure rfl
      · exact .throw _
    · exact .bind_eq (mirrors_skipSegments _ _ _) fun _ => .pure rfl

/-- What a scan does with what it meets.  At the end the tracks have stopped for the same reason. -/
theorem mirrors_collect (hH : ∀ e, H e → (FormatError.io e).isStructural = false) (most : Nat)
    (explicits implicits : Array Nat) :
    Mirrors (FormatError.Of H) (Noted (Beside H)) Eq (collect most explicits implicits)
      (collect most explicits implicits) := by
  induction most generalizing explicits implicits with
  | zero =>
    refine .bind_state ?_
    rintro s _ ⟨t', ht, rfl⟩
    exact .pure (by rw [ht.place])
  | succ most ih =>
    unfold collect
    refine .attempt_bind (mirrors_nextRecord _) ?_ ?_ ?_
    · rintro found _ rfl
      cases found with
      | record offset explicit =>
        simp only
        split
        · exact ih _ _
        · exact ih _ _
      | boundary place => exact .bind_note (.pure rfl)
      | nothing =>
        refine .bind_state ?_
        rintro s _ ⟨t', ht, rfl⟩
        exact .pure (by rw [ht.stop, ht.place])
    · intro e
      simp only
      split
      · refine .bind_state ?_
        rintro s _ ⟨t', ht, rfl⟩
        exact .bind_note (.pure (by rw [ht.place]))
      · exact .throw e
    · intro e s he
      simp only [isStructural_of_refused hH he]
      exact he

/-- **The same records are found.** -/
theorem mirrors_findRecords (hH : ∀ e, H e → (FormatError.io e).isStructural = false) :
    Mirrors (FormatError.Of H) (Noted (Beside H)) Eq findRecords findRecords := by
  refine .bind_state fun s s' hs => ?_
  rw [hs.extent]
  exact mirrors_collect hH _ _ _

end LogicalStream

end WellLog
