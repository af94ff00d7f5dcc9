import WellLog.Proofs.Track.Order
import WellLog.Record.Scan
/-!
# Logical streams go forward

Only `LogicalStream.seek` goes back.  Everything else that reads from a logical stream goes forward
on the track, whatever the bytes are, and remembers only visible records that it has met on the way.

* `LogicalStream.proceeds_read`, `LogicalStream.proceeds_readHeader` : what delivers something goes
  on.
* `LogicalStream.proceeds_nextRecord` : so does the scan, with every record that it finds.
-/

namespace WellLog

/-- The scan has found a record. -/
def Found.IsRecord : Found → Prop
  | .record _ _ => True
  | _ => False

namespace LogicalStream

/-- `s'` is not before `s`.  Its visible record is that of `s`, or begins behind. -/
structure Forward (s s' : LogicalStream) : Prop where
  /-- The track is not before that of `s`. -/
  track : s.track.Forward s'.track
  /-- The stream is the same. -/
  origin : s'.origin = s.origin
  /-- The visible record. -/
  current : ∀ v, s'.current = some v → s.current = some v ∧ s'.remaining ≤ s.remaining ∨
    s.track.place.Reaches v.place ∧ s'.remaining ≤ v.length

/-- `s'` is behind `s`.  Its visible record begins behind `s`, or some of it is read. -/
structure Onward (s s' : LogicalStream) : Prop where
  /-- The track is behind that of `s`. -/
  track : s.track.Onward s'.track
  /-- The stream is the same. -/
  origin : s'.origin = s.origin
  /-- The visible record. -/
  current : ∀ v, s'.current = some v → s.current = some v ∧ s'.remaining < s.remaining ∨
    s.track.place.Reaches v.place ∧ s'.remaining < v.length ∨
    s.track.place.Passes v.place ∧ s'.remaining ≤ v.length

theorem Onward.forward {s s' : LogicalStream} (h : s.Onward s') : s.Forward s' where
  track := Track.advance.weaken h.track
  origin := h.origin
  current v hv := by
    rcases h.current v hv with ⟨hs, hlt⟩ | ⟨hr, hlt⟩ | ⟨hp, hle⟩
    · exact .inl ⟨hs, Nat.le_of_lt hlt⟩
    · exact .inr ⟨hr, Nat.le_of_lt hlt⟩
    · exact .inr ⟨hp.reaches, hle⟩

theorem advance : Advance Forward Onward where
  refl _ := ⟨Track.advance.refl _, rfl, fun _ hv => .inl ⟨hv, Nat.le_refl _⟩⟩
  trans h h' := by
    refine ⟨Track.advance.trans h.track h'.track, h'.origin.trans h.origin, fun v hv => ?_⟩
    rcases h'.current v hv with ⟨hb, hle⟩ | ⟨hr, hle⟩
    · rcases h.current v hb with ⟨ha, hle'⟩ | ⟨hr, hle'⟩
      · exact .inl ⟨ha, Nat.le_trans hle hle'⟩
      · exact .inr ⟨hr, Nat.le_trans hle hle'⟩
    · exact .inr ⟨h.track.place.trans hr, hle⟩
  weaken h := h.forward
  left h h' := by
    refine ⟨Track.advance.left h.track h'.track, h'.origin.trans h.origin, fun v hv => ?_⟩
    rcases h'.current v hv with ⟨hb, hle⟩ | ⟨hr, hle⟩
    · rcases h.current v hb with ⟨ha, hlt⟩ | ⟨hr, hlt⟩ | ⟨hp, hle'⟩
      · exact .inl ⟨ha, Nat.lt_of_le_of_lt hle hlt⟩
      · exact .inr (.inl ⟨hr, Nat.lt_of_le_of_lt hle hlt⟩)
      · exact .inr (.inr ⟨hp, Nat.le_trans hle hle'⟩)
    · exact .inr (.inr ⟨h.track.place.trans_reaches hr, hle⟩)
  right h h' := by
    refine ⟨Track.advance.right h.track h'.track, h'.origin.trans h.origin, fun v hv => ?_⟩
    rcases h'.current v hv with ⟨hb, hlt⟩ | ⟨hr, hlt⟩ | ⟨hp, hle⟩
    · rcases h.current v hb with ⟨ha, hle⟩ | ⟨hr, hle⟩
      · exact .inl ⟨ha, Nat.lt_of_lt_of_le hlt hle⟩
      · exact .inr (.inl ⟨hr, Nat.lt_of_lt_of_le hlt hle⟩)
    · exact .inr (.inl ⟨h.track.place.trans hr, hlt⟩)
    · exact .inr (.inr ⟨h.track.place.trans_passes hp, hle⟩)

/-- A visible record that is reached in front of its first byte begins behind. -/
theorem Onward.passes_of_visiblePosition {s s' : LogicalStream} (h : s.Onward s')
    (hcurrent : s.current = none) {place : Place}
    (hplace : s'.visiblePosition = some (place, true)) : s.track.place.Passes place := by
  unfold visiblePosition at hplace
  obtain ⟨v, hv, heq⟩ := Option.map_eq_some_iff.1 hplace
  rw [Prod.mk.injEq, beq_iff_eq] at heq
  obtain ⟨rfl, hrem⟩ := heq
  rcases h.current v hv with ⟨hs, -⟩ | ⟨-, hlt⟩ | ⟨hp, -⟩
  · rw [hcurrent] at hs
    cases hs
  · omega
  · exact hp

variable {s : LogicalStream}

/-- A step of the track. -/
theorem forward_onTrack {t : Track} (h : s.track.Forward t) : s.Forward { s with track := t } :=
  ⟨h, rfl, fun _ hv => .inl ⟨hv, Nat.le_refl _⟩⟩

theorem proceeds_nextVisible (s : LogicalStream) :
    Ends (fun b s' => s.Forward s' ∧ (b = true → s.track.Onward s'.track))
      (fun _ s' => s.Forward s') (nextVisible s) := by
  unfold nextVisible
  rw [ends_bind, ends_get, ends_bind]
  have hgather := Proceeds.gather Track.advance (fun n _ => Track.proceeds_read n)
    VisibleHeader.size s.track
  simp only [onTrack]
  cases hrun : WellLog.gather Track.read VisibleHeader.size s.track with
  | error e t =>
    rw [hrun] at hgather
    exact forward_onTrack hgather
  | ok got t =>
    obtain ⟨hforward, honward⟩ := hrun ▸ hgather
    rw [ends_ok]
    split
    · exact ⟨forward_onTrack hforward, nofun⟩
    · split
      · rw [ends_bind, ends_modify, ends_pure]
        refine ⟨⟨hforward, rfl, ?_⟩, fun _ => honward (by simp)⟩
        rintro v ⟨⟩
        exact .inr ⟨.refl _, Nat.le_refl _⟩
      · exact forward_onTrack hforward
    · exact forward_onTrack hforward

theorem proceeds_fill : Proceeds Forward Onward (fun _ : Bool => False) fill := by
  intro s
  unfold fill
  rw [ends_bind, ends_get]
  split
  · exact (proceeds_nextVisible s).mono (fun _ _ h => ⟨h.1, False.elim⟩) fun _ _ => id
  · exact ⟨advance.refl s, False.elim⟩

/-- No read goes back, and every read that delivers something goes on. -/
theorem proceeds_read {n : Nat} (hn : 0 < n) : Proceeds Forward Onward (· ≠ []) (read n) := by
  unfold read
  rw [if_neg (by omega)]
  refine .bind advance proceeds_fill fun b => ?_
  cases b with
  | false => exact .pure advance (by simp)
  | true =>
    intro s
    rw [if_neg (by decide), ends_bind, ends_get, ends_bind]
    have hread := Track.proceeds_read (min n s.remaining) s.track
    simp only [onTrack]
    cases hrun : Track.read (min n s.remaining) s.track with
    | error e t =>
      rw [hrun] at hread
      exact forward_onTrack hread
    | ok got t =>
      obtain ⟨hforward, honward⟩ := hrun ▸ hread
      rw [ends_ok]
      by_cases hgot : got = []
      · subst hgot
        exact forward_onTrack hforward
      · have hpos := List.length_pos_iff.2 hgot
        have hrem : s.remaining ≠ 0 := by
          intro hz
          rw [hz, Nat.min_zero, Track.read_zero] at hrun
          cases hrun
          exact hgot rfl
        have hon : s.Onward { s with
            track := t
            tell := s.tell + got.length
            remaining := s.remaining - got.length } :=
          ⟨honward hgot, rfl, fun v hv => .inl ⟨hv, by simp only; omega⟩⟩
        rw [if_neg (by simpa using hgot), ends_bind, ends_modify, ends_pure]
        exact ⟨hon.forward, fun _ => hon⟩

theorem proceeds_skip (n : Nat) : Proceeds Forward Onward (fun _ : Unit => False) (skip n) := by
  unfold skip
  refine .bind advance (.gather advance (fun n hn => proceeds_read hn) n) fun got => ?_
  split
  · exact .throw advance
  · exact .pure advance id

/-- A header that is read is behind. -/
theorem proceeds_readHeader : Proceeds Forward Onward (·.isSome) SegmentHeader.read := by
  refine .bind_left advance (.gather advance (fun n hn => proceeds_read hn) _) ?_ ?_
  · intro got _
    split
    · exact .pure advance id
    · exact .pure advance id
    · exact .throw advance
  · intro got hgot
    obtain rfl : got = [] := by simpa using hgot
    exact .pure advance (by simp)

/-! ### Records -/

/-- The state of a computation with a journal goes forward. -/
abbrev Ahead : Journalled LogicalStream → Journalled LogicalStream → Prop :=
  InvImage Forward Journalled.state

/-- The state of a computation with a journal goes on. -/
abbrev Beyond : Journalled LogicalStream → Journalled LogicalStream → Prop :=
  InvImage Onward Journalled.state

theorem advance_reading : Advance Ahead Beyond := advance.journalled

theorem proceeds_refuse {α : Type} {P : α → Prop} (d : Defect) :
    Proceeds Ahead Beyond P (refuse d) := .throw advance_reading

theorem proceeds_accept {α : Type} (r : Except Defect α) :
    Proceeds Ahead Beyond (fun _ => False) (accept r) := by
  cases r with
  | ok a => exact .pure advance_reading id
  | error d => exact .throw advance_reading

/-- A header that has to be there is behind. -/
theorem proceeds_requireHeader (offset : Nat) :
    Proceeds Ahead Beyond (fun _ => True) (requireHeader offset) := by
  unfold requireHeader
  refine .bind_left advance_reading proceeds_readHeader.liftRead ?_ ?_
  · intro found _
    cases found with
    | none => exact .throw advance_reading
    | some header =>
      exact .bind advance_reading (proceeds_accept _) fun _ => .pure advance_reading id
  · intro found hfound
    cases found with
    | none => exact .throw advance_reading
    | some header => exact absurd rfl hfound

theorem proceeds_readPayload (header : SegmentHeader) :
    Proceeds Ahead Beyond (fun _ => False) (readPayload header) := by
  unfold readPayload
  refine .bind advance_reading
    (Proceeds.gather advance (fun n hn => proceeds_read hn) _).liftRead fun body => ?_
  split
  · exact .bind advance_reading (.throw (P := fun _ => False) advance_reading) fun _ =>
      proceeds_accept _
  · exact proceeds_accept _

theorem proceeds_readSuccessors (offset : Nat) (type : UInt8) (most : Nat) (header : SegmentHeader) :
    Proceeds Ahead Beyond (fun _ => False) (readSuccessors offset type most header) := by
  induction most generalizing header with
  | zero => exact .pure advance_reading id
  | succ most ih =>
    rw [readSuccessors]
    split
    · exact .pure advance_reading id
    · refine .bind advance_reading (proceeds_requireHeader offset) fun next => ?_
      have hrest : Proceeds Ahead Beyond (fun _ => False) (readPayload next >>= fun data =>
          readSuccessors offset type most next >>= fun more => pure (data ++ more)) :=
        .bind advance_reading (proceeds_readPayload next) fun _ =>
          .bind advance_reading (ih next) fun _ => .pure advance_reading id
      split
      · exact .bind advance_reading (.note advance) fun _ => hrest
      · exact hrest

theorem proceeds_skipSegments (offset most : Nat) (header : SegmentHeader) :
    Proceeds Ahead Beyond (fun _ => False) (skipSegments offset most header) := by
  induction most generalizing header with
  | zero => exact .pure advance_reading id
  | succ most ih =>
    rw [skipSegments]
    refine .bind advance_reading (proceeds_skip _).liftRead fun _ => ?_
    split
    · refine .bind advance_reading (proceeds_requireHeader offset) fun next => ?_
      split
      · exact .bind advance_reading (proceeds_refuse (P := fun _ => False) _) fun _ => ih next
      · exact ih next
    · exact .pure advance_reading id

/-- How the scan goes on behind the header of the next record: `opens` says that it is the header of
another logical file. -/
def pass (s : LogicalStream) (header : SegmentHeader) (opens : Bool) : Reading Found :=
  match if opens then s.visiblePosition else none with
  | some (place, atStart) =>
    if atStart then return .boundary place else refuse (.segment (.headerInside s.tell))
  | none => do
    skipSegments s.tell s.extent header
    return .record s.tell header.flags.explicit

/-- **The scan never goes back**, and it goes on with every record. -/
theorem proceeds_nextRecord (first : Bool) :
    Proceeds Ahead Beyond Found.IsRecord (nextRecord first) := by
  unfold nextRecord
  refine .bind advance_reading proceeds_fill.liftRead fun b => ?_
  split
  · exact .pure advance_reading id
  · refine .bind advance_reading (.state advance) fun s => ?_
    refine .bind_left advance_reading proceeds_readHeader.liftRead ?_ ?_
    · intro found _
      cases found with
      | none => exact .pure advance_reading id
      | some header =>
        refine .bind advance_reading (proceeds_accept _) fun _ => ?_
        have hpass : Proceeds Ahead Beyond (fun _ => False) (pass s header
            (header.flags.explicit && header.recordType == Record.fileHeader && !first)) := by
          unfold pass
          split
          · split
            · exact .pure advance_reading id
            · exact proceeds_refuse _
          · exact .bind advance_reading (proceeds_skipSegments _ _ _) fun _ =>
              .pure advance_reading id
        split
        · exact .bind advance_reading (proceeds_refuse (P := fun _ => False) _) fun _ => hpass
        · exact hpass
    · intro found hfound
      cases found with
      | none => exact .pure advance_reading id
      | some header => exact absurd rfl hfound

end LogicalStream

end WellLog
