import WellLog.FrameData
import WellLog.Proofs.LogicalStream.Twins
import WellLog.Proofs.Record.Bounds
/-!
# Records of streams with the same contents

What the scan finds and what is read at an offset depends on the contents of a stream only.  For two
streams with the same contents:

* `LogicalStream.Tied.agree_readRecord` : **the same records are read**, or reading fails in the same
  way.
* `LogicalStream.Twins.agree_findRecords` : **the scan finds the same**, and stops for the same
  reason at places that lead to the same.
* `LogicalStream.Tied.agree_extractRecords`, `LogicalStream.Tied.agree_indexFrames` : so do the
  passes over the records that were found.
-/

namespace WellLog

/-- Failures of the same kind.  They may name places of the medium, which are not the same. -/
inductive FormatError.Alike : FormatError → FormatError → Prop where
  /-- Failed reads of the same kind. -/
  | io {e e' : IoError} (kind : e.kind = e'.kind) : Alike (.io e) (.io e')
  /-- The same defect. -/
  | defect (d : Defect) : Alike (.defect d) (.defect d)
  /-- No visible record within so many bytes, from two places of the media. -/
  | noVisibleRecord (offset offset' searched : Nat) :
    Alike (.defect (.noVisibleRecord offset searched)) (.defect (.noVisibleRecord offset' searched))

theorem FormatError.Alike.isStructural {e e' : FormatError} (h : e.Alike e') :
    e'.isStructural = e.isStructural := by
  cases h with
  | io kind => simp only [FormatError.isStructural, kind]
  | defect d => rfl
  | noVisibleRecord _ _ _ => rfl

/-- Indexes with the same records, which end for the same reason.  Where a scan stops at another
logical file, or at the end of the contents, the places lead to the same. -/
structure RecordIndex.Alike (O O' : Origin) (index index' : RecordIndex) : Prop where
  /-- The explicit records. -/
  explicits : index'.explicits = index.explicits
  /-- The implicit records. -/
  implicits : index'.implicits = index.implicits
  /-- Why the scan stopped. -/
  ending : index'.ending = index.ending
  /-- Another logical file begins with a visible record. -/
  boundary : index.ending = .boundary →
    ∃ bytes, O.medium.feedAt O.framed index.resume = .ok ⟨bytes, O.feed.ending⟩ ∧
      O'.medium.feedAt O'.framed index'.resume = .ok ⟨bytes, O'.feed.ending⟩ ∧
      ∃ header rest, HeaderAt bytes header rest
  /-- At the end of the contents the tracks have stopped. -/
  stopped : index.ending = .fileMark ∨ index.ending = .mediumEnd →
    ∃ stop, O.feed.ending = .stopped stop index.resume ∧
      O'.feed.ending = .stopped stop index'.resume ∧ (index.ending = .fileMark ↔ stop = .fileMark)

/-- What two scans find behind `k` bytes, with the streams behind it. -/
inductive Found.Alike (O O' : Origin) (k : Nat) :
    Found → LogicalStream → Found → LogicalStream → Prop where
  /-- The same record. -/
  | record {n : Nat} {s s' : LogicalStream} (offset : Nat) (explicit : Bool)
    (twins : LogicalStream.Twins O O' n s s') :
    Alike O O' k (.record offset explicit) s (.record offset explicit) s'
  /-- A visible record with the header of another logical file. -/
  | boundary {place place' : Place} {s s' : LogicalStream} {bytes : List UInt8}
    (left : O.medium.feedAt O.framed place = .ok ⟨bytes, O.feed.ending⟩)
    (right : O'.medium.feedAt O'.framed place' = .ok ⟨bytes, O'.feed.ending⟩)
    (header : ∃ header rest, HeaderAt bytes header rest) (tied : LogicalStream.Tied O O' s s') :
    Alike O O' k (.boundary place) s (.boundary place') s'
  /-- The end. -/
  | nothing {s s' : LogicalStream} (ended : LogicalStream.Over O O' k s s') :
    Alike O O' k .nothing s .nothing s'

namespace LogicalStream

variable {O O' : Origin} {k : Nat} {j j' : Journalled LogicalStream}

/-- Two failures that are alike. -/
def FailAlike (O O' : Origin) (e : FormatError) (j : Journalled LogicalStream) (e' : FormatError)
    (j' : Journalled LogicalStream) : Prop := e.Alike e' ∧ Tied O O' j.state j'.state

theorem agree_accept {α : Type} {r : Except Defect α} {A : α → _ → α → _ → Prop}
    (h : Tied O O' j.state j'.state) (hA : ∀ a, r = .ok a → A a j a j') :
    Agree A (FailAlike O O') (accept r j) (accept r j') := by
  cases r with
  | ok a => exact hA a rfl
  | error d => exact ⟨.defect d, h⟩

section

variable (hF : O.feed.Alike O'.feed)
include hF

theorem Twins.agree_requireHeader (h : Twins O O' k j.state j'.state) (offset : Nat) :
    Agree (fun header t header' t' => header' = header ∧
        Twins O O' (k + SegmentHeader.size) t.state t'.state)
      (FailAlike O O') (requireHeader offset j) (requireHeader offset j') := by
  unfold requireHeader
  refine agree_bind (agree_liftRead ((h.agree_readHeader hF).mono ?_ ?_))
  · rintro found s found' s' ⟨rfl, hfound⟩
    cases found' with
    | none => exact ⟨.io rfl, hfound.tied⟩
    | some header =>
      exact agree_bind (agree_accept hfound.tied fun _ _ => ⟨rfl, hfound⟩)
  · rintro e s e' s' ⟨hkind, htied⟩
    exact ⟨.io hkind, htied⟩

theorem Twins.agree_readPayload (h : Twins O O' k j.state j'.state) (header : SegmentHeader) :
    Agree (fun data t data' t' => data' = data ∧
        Twins O O' (k + header.bodyLength) t.state t'.state)
      (FailAlike O O') (readPayload header j) (readPayload header j') := by
  unfold readPayload
  refine agree_bind (agree_liftRead ((h.agree_gather hF header.bodyLength).mono ?_ ?_))
  · rintro got s got' s' ⟨rfl, hgot⟩
    obtain ⟨hlen, htwins⟩ | ⟨hlt, htied⟩ := hgot
    · rw [if_neg (by omega)]
      exact agree_accept htwins.tied fun _ _ => ⟨rfl, htwins⟩
    · rw [if_pos hlt]
      exact ⟨.io rfl, htied⟩
  · rintro e s e' s' ⟨hkind, htied⟩
    exact ⟨.io hkind, htied⟩

theorem Twins.agree_readSuccessors (h : Twins O O' k j.state j'.state) (offset : Nat)
    (type : UInt8) (most : Nat) (header : SegmentHeader) :
    Agree (fun data t data' t' => data' = data ∧ Tied O O' t.state t'.state)
      (FailAlike O O') (readSuccessors offset type most header j)
      (readSuccessors offset type most header j') := by
  induction most generalizing k j j' header with
  | zero => exact ⟨rfl, h.tied⟩
  | succ most ih =>
    rw [readSuccessors]
    split
    · exact ⟨rfl, h.tied⟩
    · refine agree_bind ((h.agree_requireHeader hF offset).mono ?_ fun _ _ _ _ => id)
      rintro next j₁ next' j₁' ⟨rfl, h₁⟩
      have hrest : ∀ {j₁ j₁' : Journalled LogicalStream},
          Twins O O' (k + SegmentHeader.size) j₁.state j₁'.state →
          Agree (fun data t data' t' => data' = data ∧ Tied O O' t.state t'.state) (FailAlike O O')
            ((readPayload next' >>= fun data => readSuccessors offset type most next' >>= fun more =>
              pure (data ++ more)) j₁)
            ((readPayload next' >>= fun data => readSuccessors offset type most next' >>= fun more =>
              pure (data ++ more)) j₁') := by
        intro j₁ j₁' h₁
        refine agree_bind ((h₁.agree_readPayload hF next').mono ?_ fun _ _ _ _ => id)
        rintro data j₂ data' j₂' ⟨rfl, h₂⟩
        refine agree_bind ((ih h₂ next').mono ?_ fun _ _ _ _ => id)
        rintro more j₃ more' j₃' ⟨rfl, h₃⟩
        exact ⟨rfl, h₃⟩
      split
      · exact agree_bind (hrest h₁)
      · exact hrest h₁

/-- No bound on the number of segments is reached, so the bounds need not be the same. -/
theorem Twins.agree_readSuccessors_of_lt (h : Twins O O' k j.state j'.state) {offset : Nat}
    {type : UInt8} {most most' : Nat} {header : SegmentHeader} (hm : j.state.room < most)
    (hm' : j'.state.room < most') :
    Agree (fun data t data' t' => data' = data ∧ Tied O O' t.state t'.state)
      (FailAlike O O') (readSuccessors offset type most header j)
      (readSuccessors offset type most' header j') := by
  have hmax : j.state.room < max most most' := Nat.lt_of_lt_of_le hm (Nat.le_max_left _ _)
  have hmax' : j'.state.room < max most most' := Nat.lt_of_lt_of_le hm' (Nat.le_max_right _ _)
  rw [readSuccessors_eq_of_lt hm hmax, readSuccessors_eq_of_lt hm' hmax']
  exact h.agree_readSuccessors hF offset type _ header

/-- **The same record is read** at an offset, or reading fails in the same way. -/
theorem Tied.agree_readRecord (h : Tied O O' j.state j'.state) (hopens : O.feed.Opens)
    (offset : Nat) :
    Agree (fun record t record' t' => record' = record ∧ Tied O O' t.state t'.state)
      (FailAlike O O') (readRecord offset j) (readRecord offset j') := by
  unfold readRecord
  refine agree_bind (agree_lift ((h.agree_seek hF hopens offset).mono ?_ ?_))
  · intro _ s _ s' hs
    replace hs : Twins O O' offset (Journalled.mk s j.notes).state (Journalled.mk s' j'.notes).state := hs
    refine agree_bind (((hs.agree_requireHeader hF offset).and_ends (proceeds_requireHeader offset _)
      (proceeds_requireHeader offset _)).mono ?_ fun _ _ _ _ h => h.1)
    rintro first j₁ first' j₁' ⟨⟨rfl, h₁⟩, ⟨-, hb⟩, ⟨-, hb'⟩⟩
    refine agree_bind (((h₁.agree_readPayload hF first').and_ends (proceeds_readPayload first' _)
      (proceeds_readPayload first' _)).mono ?_ fun _ _ _ _ h => h.1)
    rintro data j₂ data' j₂' ⟨⟨rfl, h₂⟩, ⟨ha, -⟩, ⟨ha', -⟩⟩
    have hroom := room_lt_extent (hb trivial) ha
    have hroom' := room_lt_extent (hb' trivial) ha'
    refine agree_bind (agree_state.2 ?_)
    refine agree_bind ((h₂.agree_readSuccessors_of_lt hF hroom hroom').mono ?_ fun _ _ _ _ => id)
    rintro more j₃ more' j₃' ⟨rfl, h₃⟩
    exact ⟨rfl, h₃⟩
  · rintro e s e' s' ⟨x, x', rfl, rfl, hkind, htied⟩
    exact ⟨.io hkind, htied⟩

theorem Tied.agree_readIntact (h : Tied O O' j.state j'.state) (hopens : O.feed.Opens)
    (offset : Nat) (what : String) :
    Agree (fun record t record' t' => record' = record ∧ Tied O O' t.state t'.state)
      (FailAlike O O') (readIntact offset what j) (readIntact offset what j') := by
  unfold readIntact
  refine agree_bind (agree_attempt ((h.agree_readRecord hF hopens offset).mono ?_ ?_))
  · rintro record t record' t' ⟨rfl, ht⟩
    exact ⟨rfl, ht⟩
  · rintro e t e' t' ⟨hkind, ht⟩
    simp only [hkind.isStructural]
    split
    · exact agree_bind (agree_note.2 ⟨rfl, ht⟩)
    · exact ⟨hkind, ht⟩

/-- **The same records are extracted.** -/
theorem Tied.agree_extractRecords (h : Tied O O' j.state j'.state) (hopens : O.feed.Opens)
    (offsets : List Nat) :
    Agree (fun records t records' t' => records' = records ∧ Tied O O' t.state t'.state)
      (FailAlike O O') (extractRecords offsets j) (extractRecords offsets j') := by
  unfold extractRecords
  have hreads := agree_filterMapM (I := fun (t t' : Journalled LogicalStream) => Tied O O' t.state t'.state) (l := offsets) h
    fun offset _ t t' ht => ht.agree_readIntact hF hopens offset "record"
  refine agree_bind (hreads.mono ?_ fun _ _ _ _ => id)
  rintro records t records' t' ⟨rfl, ht⟩
  exact agree_bind (agree_note.2 ⟨rfl, ht⟩)

theorem Tied.agree_frameAt (h : Tied O O' j.state j'.state) (hopens : O.feed.Opens) (offset : Nat) :
    Agree (fun frame t frame' t' => frame' = frame ∧ Tied O O' t.state t'.state)
      (FailAlike O O') (frameAt offset j) (frameAt offset j') := by
  unfold frameAt
  refine agree_bind ((h.agree_readIntact hF hopens offset _).mono ?_ fun _ _ _ _ => id)
  rintro record t record' t' ⟨rfl, ht⟩
  cases record' with
  | none => exact ⟨rfl, ht⟩
  | some record =>
    simp only
    split
    · exact ⟨rfl, ht⟩
    · cases record.frame with
      | ok frame => exact ⟨rfl, ht⟩
      | error d => exact agree_bind (agree_note.2 ⟨rfl, ht⟩)

/-- **The same samples are indexed.** -/
theorem Tied.agree_indexFrames (h : Tied O O' j.state j'.state) (hopens : O.feed.Opens)
    (offsets : List Nat) :
    Agree (fun frames t frames' t' => frames' = frames ∧ Tied O O' t.state t'.state)
      (FailAlike O O') (indexFrames offsets j) (indexFrames offsets j') := by
  unfold indexFrames
  refine agree_bind ((agree_filterMapM
    (I := fun (t t' : Journalled LogicalStream) => Tied O O' t.state t'.state) h ?_).mono ?_
    fun _ _ _ _ => id)
  · intro offset _ t t' ht
    refine agree_bind ((ht.agree_frameAt hF hopens offset).mono ?_ fun _ _ _ _ => id)
    rintro frame u frame' u' ⟨rfl, hu⟩
    exact ⟨rfl, hu⟩
  · rintro found t found' t' ⟨rfl, ht⟩
    exact agree_bind (agree_note.2 ⟨rfl, ht⟩)

/-! ### The scan -/

theorem Twins.agree_skipSegments (h : Twins O O' k j.state j'.state) (offset most : Nat)
    (header : SegmentHeader) :
    Agree (fun _ t _ t' => ∃ k, Twins O O' k t.state t'.state)
      (FailAlike O O') (skipSegments offset most header j) (skipSegments offset most header j') := by
  induction most generalizing k j j' header with
  | zero => exact ⟨k, h⟩
  | succ most ih =>
    rw [skipSegments]
    refine agree_bind (agree_liftRead ((h.agree_skip hF header.bodyLength).mono ?_ ?_))
    · intro _ s _ s' hs
      split
      · replace hs : Twins O O' (k + header.bodyLength) (Journalled.mk s j.notes).state
          (Journalled.mk s' j'.notes).state := hs
        refine agree_bind ((hs.agree_requireHeader hF offset).mono ?_ fun _ _ _ _ => id)
        rintro next j₁ next' j₁' ⟨rfl, h₁⟩
        split
        · exact agree_bind (agree_throw.2 ⟨.defect _, h₁.tied⟩)
        · exact ih h₁ next'
      · exact ⟨_, hs⟩
    · rintro e s e' s' ⟨hkind, htied⟩
      exact ⟨.io hkind, htied⟩

/-- No bound on the number of segments is reached, so the bounds need not be the same. -/
theorem Twins.agree_skipSegments_of_lt (h : Twins O O' k j.state j'.state) {offset : Nat}
    {most most' : Nat} {header : SegmentHeader} (hm : j.state.room < most)
    (hm' : j'.state.room < most') :
    Agree (fun _ t _ t' => ∃ k, Twins O O' k t.state t'.state)
      (FailAlike O O') (skipSegments offset most header j) (skipSegments offset most' header j') := by
  have hmax : j.state.room < max most most' := Nat.lt_of_lt_of_le hm (Nat.le_max_left _ _)
  have hmax' : j'.state.room < max most most' := Nat.lt_of_lt_of_le hm' (Nat.le_max_right _ _)
  rw [skipSegments_eq_of_lt hm hmax, skipSegments_eq_of_lt hm' hmax']
  exact h.agree_skipSegments hF offset _ header

/-- Behind the header of a record, both scans pass over it, or find that it opens another logical
file. -/
theorem Twins.agree_pass {s s' : LogicalStream} {k' : Nat} (hs : Twins O O' k s s')
    (hrem : s.remaining ≠ 0) (hrem' : s'.remaining ≠ 0) (h : Twins O O' k' j.state j'.state)
    (hm : j.state.room < s.extent) (hm' : j'.state.room < s'.extent) (header : SegmentHeader)
    (opens : Bool) :
    Agree (fun found t found' t' => found.Alike O O' k t.state found' t'.state) (FailAlike O O')
      (pass s header opens j) (pass s' header opens j') := by
  unfold pass
  rw [hs.left.tell, hs.right.tell]
  cases opens with
  | false =>
    refine agree_bind ((h.agree_skipSegments_of_lt hF hm hm').mono ?_ fun _ _ _ _ => id)
    rintro _ t _ t' ⟨_, ht⟩
    exact .record _ _ ht
  | true =>
    obtain ⟨p, p', start, hp, hp', hplace⟩ := hs.visiblePosition hF hrem hrem'
    rw [if_pos rfl, if_pos rfl, hp, hp']
    cases start with
    | false => exact agree_throw.2 ⟨.defect _, h.tied⟩
    | true =>
      obtain ⟨bytes, hleft, hright, hheader⟩ := hplace rfl
      exact .boundary hleft hright hheader h.tied

/-- **Both scans find the same next record**, or the same end. -/
theorem Twins.agree_nextRecord (h : Twins O O' k j.state j'.state) (first : Bool) :
    Agree (fun found t found' t' => found.Alike O O' k t.state found' t'.state) (FailAlike O O')
      (nextRecord first j) (nextRecord first j') := by
  unfold nextRecord
  refine agree_bind (agree_liftRead ((h.agree_fill hF).mono ?_ ?_))
  · rintro b s b' s' (⟨rfl, rfl, hs, hrem, hrem'⟩ | ⟨rfl, rfl, hover⟩)
    · rw [if_neg (by decide)]
      refine agree_bind (agree_state.2 (agree_bind (agree_liftRead
        (((hs.agree_readHeader hF).and_ends (proceeds_readHeader _) (proceeds_readHeader _)).mono
          ?_ ?_))))
      · rintro found t found' t' ⟨⟨rfl, ht⟩, ⟨-, hon⟩, ⟨-, hon'⟩⟩
        cases found' with
        | none => exact .nothing ht
        | some header =>
          have hm : t.room < s.extent :=
            Nat.lt_of_lt_of_le (hon rfl).room_lt (Nat.sub_le _ _)
          have hm' : t'.room < s'.extent :=
            Nat.lt_of_lt_of_le (hon' rfl).room_lt (Nat.sub_le _ _)
          replace ht : Twins O O' (k + SegmentHeader.size) (Journalled.mk t j.notes).state
            (Journalled.mk t' j'.notes).state := ht
          refine agree_bind (agree_accept ht.tied fun _ _ => ?_)
          split
          · have htell : s'.tell = s.tell := hs.right.tell.trans hs.left.tell.symm
            refine agree_bind (agree_throw.2 ⟨?_, ht.tied⟩)
            simp only [htell]
            exact .defect _
          · exact hs.agree_pass hF hrem hrem' ht hm hm' header _
      · rintro e t e' t' ⟨⟨hkind, htied⟩, -, -⟩
        exact ⟨.io hkind, htied⟩
    · exact .nothing hover
  · rintro e s e' s' ⟨hkind, htied⟩
    exact ⟨.io hkind, htied⟩

/-- Where the contents end, the tracks have stopped for the same reason. -/
theorem Over.stopped {s s' : LogicalStream} (h : Over O O' k s s') :
    ∃ stop, s.track.stop = some stop ∧ s'.track.stop = some stop ∧
      O.feed.ending = .stopped stop s.track.place ∧
      O'.feed.ending = .stopped stop s'.track.place := by
  obtain ⟨stop, hstop, hending⟩ := h.left.stopped
  obtain ⟨stop', hstop', hending'⟩ := h.right.stopped
  have halike := hF.contents.2
  rw [hending, hending'] at halike
  cases halike
  exact ⟨stop, hstop, hstop', ending_of_unwrap hending, ending_of_unwrap hending'⟩

theorem Twins.agree_collect {most : Nat} {explicits implicits : Array Nat}
    (h : Twins O O' k j.state j'.state) (hm : j.state.room < most) (hm' : j'.state.room < most) :
    Agree (fun index t index' t' => index.Alike O O' index' ∧ Tied O O' t.state t'.state)
      (FailAlike O O') (collect most explicits implicits j)
      (collect most explicits implicits j') := by
  induction most generalizing k j j' explicits implicits with
  | zero => exact absurd hm (Nat.not_lt_zero _)
  | succ most ih =>
    rw [collect]
    set first := explicits.size + implicits.size == 0
    have hgo := proceeds_nextRecord first
    refine agree_bind (agree_attempt (((h.agree_nextRecord hF first).and_ends (hgo j)
      (hgo j')).mono ?_ ?_))
    · rintro found t found' t' ⟨hfound, ⟨-, hon⟩, ⟨-, hon'⟩⟩
      generalize hs : t.state = s at hfound
      generalize hs' : t'.state = s' at hfound
      cases hfound with
      | record offset explicit twins =>
        subst hs hs'
        have hlt := room_lt_of_beyond (hon trivial)
        have hlt' := room_lt_of_beyond (hon' trivial)
        simp only
        split
        · exact ih twins (by omega) (by omega)
        · exact ih twins (by omega) (by omega)
      | boundary left right header tied =>
        subst hs hs'
        refine agree_bind (agree_note.2 ⟨⟨rfl, rfl, rfl, fun _ => ⟨_, left, right, header⟩, ?_⟩,
          tied⟩)
        rintro (hending | hending) <;> cases hending
      | nothing ended =>
        subst hs hs'
        obtain ⟨stop, hstop, hstop', hending, hending'⟩ := ended.stopped hF
        refine agree_bind (agree_state.2 ⟨⟨rfl, rfl, ?_, ?_, fun _ => ?_⟩, ended.tied⟩)
        · rw [hstop, hstop']
        · rw [hstop]
          intro hboundary
          split at hboundary <;> cases hboundary
        · refine ⟨stop, hending, hending', ?_⟩
          rw [hstop]
          cases stop <;> simp
    · rintro e t e' t' ⟨⟨hkind, htied⟩, -, -⟩
      simp only [hkind.isStructural]
      split
      · refine agree_bind (agree_state.2 (agree_bind (agree_note.2 ⟨⟨rfl, rfl, rfl, ?_, ?_⟩,
          htied⟩)))
        · rintro ⟨⟩
        · rintro (hending | hending) <;> cases hending
      · exact ⟨hkind, htied⟩

/-- **Both scans find the same**, and stop for the same reason. -/
theorem Twins.agree_findRecords (h : Twins O O' k j.state j'.state) :
    Agree (fun index t index' t' => index.Alike O O' index' ∧ Tied O O' t.state t'.state)
      (FailAlike O O') (findRecords j) (findRecords j') := by
  unfold findRecords
  refine agree_bind (agree_state.2 ?_)
  have hm : j.state.room < j.state.extent + 1 := Nat.lt_succ_of_le (Nat.sub_le _ _)
  have hm' : j'.state.room < j'.state.extent + 1 := Nat.lt_succ_of_le (Nat.sub_le _ _)
  have hmax := Nat.lt_of_lt_of_le hm (Nat.le_max_left _ (j'.state.extent + 1))
  have hmax' := Nat.lt_of_lt_of_le hm' (Nat.le_max_right (j.state.extent + 1) _)
  rw [collect_eq_of_lt hm hmax, collect_eq_of_lt hm' hmax']
  exact h.agree_collect hF hmax hmax'

end

end LogicalStream

end WellLog
