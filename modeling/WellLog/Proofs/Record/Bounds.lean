import WellLog.Proofs.Record.Scan
/-!
# The bounds of loops over a stream

The loops over a stream are bounded by the number of bytes of its medium.  No run reaches these
bounds: every round of a loop reads a header, and so there are fewer rounds than bytes.  Hence a run
is the same with every larger bound.

* `LogicalStream.collect_eq_of_lt`, `LogicalStream.skipSegments_eq_of_lt`,
  `LogicalStream.readSuccessors_eq_of_lt` : any two bounds that exceed the room ahead give the same
  run.
* `LogicalStream.loopsEnd` : **every loop over a stream ends by itself**.
-/

namespace WellLog

namespace LogicalStream

/-- The number of bytes ahead on the medium. -/
def room (s : LogicalStream) : Nat := s.extent - s.track.reader.position

theorem Forward.extent_eq {s s' : LogicalStream} (h : s.Forward s') : s'.extent = s.extent := by
  rw [extent, h.track.reader.medium, extent]

theorem Forward.room_le {s s' : LogicalStream} (h : s.Forward s') : s'.room ≤ s.room := by
  have := h.track.reader.position
  rw [room, room, h.extent_eq]
  omega

theorem Onward.room_lt {s s' : LogicalStream} (h : s.Onward s') : s'.room < s.room := by
  have hposition := h.track.reader.position
  have hbound := h.track.reader.bound
  rw [room, room, h.forward.extent_eq, extent]
  omega

variable {j : Journalled LogicalStream}

theorem room_le_of_ahead {j' : Journalled LogicalStream} (h : Ahead j j') :
    j'.state.room ≤ j.state.room := Forward.room_le h

theorem room_lt_of_beyond {j' : Journalled LogicalStream} (h : Beyond j j') :
    j'.state.room < j.state.room := Onward.room_lt h

/-- Who has gone on has less room than the medium has bytes. -/
theorem room_lt_extent {j' j'' : Journalled LogicalStream} (h : Beyond j j') (h' : Ahead j' j'') :
    j''.state.room < j''.state.extent := by
  have hlt := room_lt_of_beyond h
  have hle := room_le_of_ahead h'
  have heq : j'.state.extent = j.state.extent := Forward.extent_eq (Onward.forward h)
  have heq' : j''.state.extent = j'.state.extent := Forward.extent_eq h'
  have hroom : j.state.room ≤ j.state.extent := Nat.sub_le _ _
  omega

/-- No run reaches the bound on the number of segments that are passed over. -/
theorem skipSegments_eq_of_lt {offset most most' : Nat} {header : SegmentHeader}
    (h : j.state.room < most) (h' : j.state.room < most') :
    skipSegments offset most header j = skipSegments offset most' header j := by
  induction most generalizing most' j header with
  | zero => exact absurd h (Nat.not_lt_zero _)
  | succ most ih =>
    obtain ⟨most', rfl⟩ := Nat.exists_eq_add_one_of_ne_zero (Nat.ne_zero_of_lt h')
    rw [skipSegments, skipSegments]
    refine bind_eq_of_ends (((proceeds_skip _).liftRead j).mono ?_ fun _ _ _ => trivial)
    rintro - j₁ ⟨h₁, -⟩
    split
    · refine bind_eq_of_ends ((proceeds_requireHeader offset j₁).mono ?_ fun _ _ _ => trivial)
      rintro next j₂ ⟨-, h₂⟩
      have hlt := room_lt_of_beyond (h₂ trivial)
      have hle := room_le_of_ahead h₁
      split
      · rfl
      · exact ih (by omega) (by omega)
    · rfl

/-- No run reaches the bound on the number of segments that are read. -/
theorem readSuccessors_eq_of_lt {offset most most' : Nat} {type : UInt8} {header : SegmentHeader}
    (h : j.state.room < most) (h' : j.state.room < most') :
    readSuccessors offset type most header j = readSuccessors offset type most' header j := by
  induction most generalizing most' j header with
  | zero => exact absurd h (Nat.not_lt_zero _)
  | succ most ih =>
    obtain ⟨most', rfl⟩ := Nat.exists_eq_add_one_of_ne_zero (Nat.ne_zero_of_lt h')
    rw [readSuccessors, readSuccessors]
    split
    · rfl
    · refine bind_eq_of_ends ((proceeds_requireHeader offset j).mono ?_ fun _ _ _ => trivial)
      rintro next j₁ ⟨-, h₁⟩
      have hlt := room_lt_of_beyond (h₁ trivial)
      have hrest : ∀ j₁ : Journalled LogicalStream, j₁.state.room < j.state.room →
          (readPayload next >>= fun data => readSuccessors offset type most next >>= fun more =>
            pure (data ++ more)) j₁ =
          (readPayload next >>= fun data => readSuccessors offset type most' next >>= fun more =>
            pure (data ++ more)) j₁ := by
        intro j₁ hlt
        refine bind_eq_of_ends ((proceeds_readPayload next j₁).mono ?_ fun _ _ _ => trivial)
        rintro data j₂ ⟨h₂, -⟩
        have hle := room_le_of_ahead h₂
        have hmore : readSuccessors offset type most next j₂ =
            readSuccessors offset type most' next j₂ := ih (by omega) (by omega)
        simp only [bind, EStateM.bind, hmore]
      split
      · exact hrest _ hlt
      · exact hrest _ hlt

/-- No run reaches the bound on the number of records. -/
theorem collect_eq_of_lt {most most' : Nat} {explicits implicits : Array Nat}
    (h : j.state.room < most) (h' : j.state.room < most') :
    collect most explicits implicits j = collect most' explicits implicits j := by
  induction most generalizing most' j explicits implicits with
  | zero => exact absurd h (Nat.not_lt_zero _)
  | succ most ih =>
    obtain ⟨most', rfl⟩ := Nat.exists_eq_add_one_of_ne_zero (Nat.ne_zero_of_lt h')
    rw [collect, collect]
    refine bind_eq_of_ends (((proceeds_nextRecord _).attempt j).mono ?_ fun _ _ _ => trivial)
    rintro found j₁ ⟨-, h₁⟩
    cases found with
    | error e => rfl
    | ok found =>
      cases found with
      | record offset explicit =>
        have hlt := room_lt_of_beyond (h₁ ⟨_, rfl, trivial⟩)
        simp only
        split
        · exact ih (by omega) (by omega)
        · exact ih (by omega) (by omega)
      | boundary place => rfl
      | nothing => rfl

/-- The bounds of the loops over a stream play no part: every larger bound gives the same run. -/
structure LoopsEnd (j : Journalled LogicalStream) : Prop where
  /-- The scan ends by itself. -/
  scan : ∀ most, j.state.extent < most → collect most #[] #[] j = findRecords j
  /-- So does the loop over the segments that are passed over, wherever some bytes are read. -/
  skip : ∀ offset header most most', j.state.room < most → j.state.room < most' →
    skipSegments offset most header j = skipSegments offset most' header j
  /-- And the loop over the segments that are read. -/
  read : ∀ offset type header most most', j.state.room < most → j.state.room < most' →
    readSuccessors offset type most header j = readSuccessors offset type most' header j

/-- **Every loop over a stream ends by itself.** -/
theorem loopsEnd (j : Journalled LogicalStream) : LoopsEnd j where
  scan most h := by
    have hroom : j.state.room ≤ j.state.extent := Nat.sub_le _ _
    unfold findRecords
    rw [bind_state]
    exact collect_eq_of_lt (Nat.lt_of_le_of_lt hroom h) (Nat.lt_succ_of_le hroom)
  skip _ _ _ _ := skipSegments_eq_of_lt
  read _ _ _ _ _ := readSuccessors_eq_of_lt

end LogicalStream

end WellLog
