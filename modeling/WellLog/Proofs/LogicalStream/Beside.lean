import WellLog.Proofs.LogicalStream.Position
import WellLog.Proofs.Track.Beside
/-!
# Logical streams beside each other

Two logical streams over tracks that are beside each other: the one on the left is read in any pieces
and may fail where `H` says, and the one on the right delivers one byte at a time and never fails.

* `LogicalStream.mirrors_fill` : **both streams enter the same visible record**, if there is one.
* `LogicalStream.spelled_read` : **the stream on the right can catch up with every read.**
* `LogicalStream.mirrors_seek` : every offset is reached on both sides, or on neither one.
-/

namespace WellLog

namespace LogicalStream

/-- The streams are at the same place of the same image. -/
def Beside (H : IoError → Prop) (s s' : LogicalStream) : Prop :=
  ∃ t', s.track.Beside H t' ∧ s' = { s with track := t' }

/-- One byte at a time, and no failure. -/
def Bytewise (s : LogicalStream) : Prop := s.track.Bytewise

variable {H : IoError → Prop} {s s' : LogicalStream} {α : Type}

theorem Beside.bytewise (h : s.Beside H s') : s'.Bytewise := by
  obtain ⟨t', ht, rfl⟩ := h
  exact ht.bytewise

theorem Bytewise.beside (h : s.Bytewise) : Beside (fun _ => False) s s :=
  ⟨s.track, ⟨s.track.reader, Reader.Bytewise.beside h, rfl⟩, rfl⟩

theorem Beside.extent (h : s.Beside H s') : s'.extent = s.extent := by
  obtain ⟨_, ⟨r', hr, rfl⟩, rfl⟩ := h
  exact congrArg Array.size hr.bytes

/-- A step of the tracks below. -/
theorem mirrors_onTrack {ε : Type} {K : ε → Prop} {α' : Type} {V : α → α' → Prop}
    {x : EStateM ε Track α} {x' : EStateM ε Track α'} (h : Mirrors K (Track.Beside H) V x x') :
    Mirrors K (Beside H) V (onTrack x) (onTrack x') := by
  rintro s _ ⟨t', ht, rfl⟩
  have hembed : ∀ (β : Type) (y : EStateM ε Track β) (t : Track),
      onTrack y { s with track := t } =
        embed (fun a _ => a) (fun t => { s with track := t }) (y t) := by
    intro β y t
    simp only [onTrack]
    cases y t <;> rfl
  rw [← show ({ s with track := s.track } : LogicalStream) = s from rfl, hembed α x s.track,
    hembed α' x' t']
  exact (h s.track t' ht).embed (fun _ _ _ _ ha => ⟨ha.1, _, ha.2, rfl⟩) fun _ _ ht => ⟨_, ht, rfl⟩

/-! ### Entering visible records -/

theorem mirrors_nextVisible : Mirrors H (Beside H) Eq nextVisible nextVisible := by
  unfold nextVisible
  refine .bind_get ?_
  rintro s _ ⟨t', ht, rfl⟩
  simp only [ht.place]
  refine .bind_eq (mirrors_onTrack (Track.mirrors_gather _)) fun bytes => ?_
  split
  · exact .pure rfl
  · split
    · refine .bind_eq (.modify ?_) fun _ => .pure rfl
      rintro s _ ⟨t', ht, rfl⟩
      exact ⟨t', ht, rfl⟩
    · exact .throw _
  · exact .throw _

/-- **Both streams enter the next visible record**, or there is none. -/
theorem mirrors_fill : Mirrors H (Beside H) Eq fill fill := by
  unfold fill
  refine .bind_get ?_
  rintro s _ ⟨t', ht, rfl⟩
  simp only
  split
  · exact mirrors_nextVisible
  · exact .pure rfl

/-- With an answer of yes, a byte is left in the visible record. -/
theorem ends_fill_remaining (s : LogicalStream) :
    Ends (fun more s' => more = true → s'.remaining ≠ 0) (fun _ _ => True) (fill s) := by
  unfold fill
  rw [ends_bind, ends_get]
  split
  · unfold nextVisible
    rw [ends_bind, ends_get, ends_bind]
    refine (Ends.trivial _).mono ?_ fun _ _ _ => trivial
    intro bytes u _
    split
    · exact nofun
    · simp only
      split
      · rename_i hvalid
        rw [ends_bind, ends_modify, ends_pure]
        intro _
        have hmin := hvalid.2.2
        simp only [VisibleHeader.bodyLength, VisibleHeader.minLength, VisibleHeader.size] at hmin ⊢
        omega
      · trivial
    · trivial
  · exact fun _ => ‹_›

theorem fill_of_remaining (h : s.remaining ≠ 0) : fill s = .ok true s := by
  unfold fill
  rw [bind_get, if_neg h]
  rfl

/-! ### Reading -/

/-- A read enters a visible record first. -/
theorem read_eq {n : Nat} (hn : 0 < n) (s : LogicalStream) : read n s =
    match fill s with
    | .error e u => .error e u
    | .ok false u => .ok [] u
    | .ok true u =>
      match u.track.read (min n u.remaining) with
      | .error e t => .error e { u with track := t }
      | .ok got t =>
        if got = [] then .error (.recordCut u.remaining) { u with track := t }
        else .ok got { u with
          track := t
          tell := u.tell + got.length
          remaining := u.remaining - got.length } := by
  unfold read
  rw [if_neg (Nat.pos_iff_ne_zero.1 hn)]
  simp only [bind, EStateM.bind]
  cases fill s with
  | error e u => rfl
  | ok more u =>
    cases more with
    | false => rfl
    | true =>
      have hget : (get : EStateM IoError LogicalStream LogicalStream) u = .ok u u := rfl
      simp only [Bool.not_true, Bool.false_eq_true, if_false, EStateM.bind, hget, onTrack]
      cases u.track.read (min n u.remaining) with
      | error e t => rfl
      | ok got t =>
        cases got <;> rfl

/-- Behind the header of the visible record, the next byte is in the record. -/
theorem read_of_fill {n : Nat} (hn : 0 < n) {u : LogicalStream} (h : fill s = .ok true u)
    (hu : u.remaining ≠ 0) : read n s = read n u := by
  rw [read_eq hn s, read_eq hn u, h, fill_of_remaining hu]

/-- A stream of single bytes stays one when it enters a visible record. -/
theorem ends_fill_of_bytewise (h : s.Bytewise) :
    Ends (fun more u => u.Bytewise ∧ (more = true → u.remaining ≠ 0)) (fun _ _ => True) (fill s) :=
  ((mirrors_fill s s h.beside).ends_self.and (ends_fill_remaining s)).mono
    (fun _ _ ha => ⟨ha.1.2.bytewise, ha.2⟩) fun _ _ _ => trivial

theorem single_read : Single Bytewise read where
  read_eq n s hs hn := by
    have hfill := ends_fill_of_bytewise hs
    rw [LogicalStream.read_eq hn, LogicalStream.read_eq Nat.one_pos]
    cases hrun : fill s with
    | error e u => rfl
    | ok more u =>
      rw [hrun, ends_ok] at hfill
      cases more with
      | false => rfl
      | true =>
        have hrem := hfill.2 rfl
        simp only
        rw [Track.single_read.read_eq (min n u.remaining) u.track hfill.1 (by omega),
          Track.single_read.read_eq (min 1 u.remaining) u.track hfill.1 (by omega)]
  ends_read s hs := by
    have hfill := ends_fill_of_bytewise hs
    rw [LogicalStream.read_eq Nat.one_pos]
    cases hrun : fill s with
    | error e u => trivial
    | ok more u =>
      rw [hrun, ends_ok] at hfill
      cases more with
      | false => exact ⟨Nat.zero_le 1, hfill.1⟩
      | true =>
        have hrem := hfill.2 rfl
        have hread := Track.single_read.ends_read u.track hfill.1
        simp only
        rw [Track.single_read.read_eq (min 1 u.remaining) u.track hfill.1 (by omega)]
        cases hone : u.track.read 1 with
        | error e t => trivial
        | ok got t =>
          rw [hone, ends_ok] at hread
          simp only
          split
          · trivial
          · exact hread

/-- What is read in a visible record on the left is caught up with on the right. -/
theorem spelled_read_in_record {t' : Track} (ht : s.track.Beside H t') (hrem : s.remaining ≠ 0)
    {n : Nat} (hn : 0 < n) :
    Ends
      (fun got u => ∃ u', Beside H u u' ∧
        (got = [] ∧ read 1 { s with track := t' } = .ok [] u' ∨
          got ≠ [] ∧ got.length ≤ n ∧ gather read got.length { s with track := t' } = .ok got u'))
      (fun e u => H e ∨ ∃ u', Beside H u u' ∧ read 1 { s with track := t' } = .error e u')
      (read n s) := by
  have hread := Track.spelled_read (min n s.remaining) s.track t' ht (by omega)
  have hone : min 1 s.remaining = 1 := by omega
  have hright : fill { s with track := t' } = .ok true { s with track := t' } :=
    fill_of_remaining hrem
  rw [read_eq hn, read_eq Nat.one_pos, fill_of_remaining hrem, hright]
  simp only [hone]
  cases hleft : s.track.read (min n s.remaining) with
  | error e t =>
    rw [hleft] at hread
    refine hread.imp id ?_
    rintro ⟨u', hu, hr⟩
    rw [hr]
    exact ⟨_, ⟨u', hu, rfl⟩, rfl⟩
  | ok got t =>
    rw [hleft, ends_ok] at hread
    simp only
    obtain ⟨u', hu, ⟨rfl, hr⟩ | ⟨hgot, hle, hr⟩⟩ := hread
    · rw [hr]
      exact .inr ⟨_, ⟨u', hu, rfl⟩, rfl⟩
    · rw [if_neg hgot]
      refine ⟨_, ⟨u', hu, rfl⟩, .inr ⟨hgot, by omega, ?_⟩⟩
      have hwrap : ∀ n k t b u, 0 < n → k < s.remaining → t.Bytewise → Track.read 1 t = .ok [b] u →
          read n { s with track := t, tell := s.tell + k, remaining := s.remaining - k } =
            .ok [b] { s with
              track := u
              tell := s.tell + (k + 1)
              remaining := s.remaining - (k + 1) } := by
        intro n k t b u hn hk ht hone
        have hleft : s.remaining - k ≠ 0 := by omega
        rw [read_eq hn, fill_of_remaining hleft]
        simp only
        rw [Track.single_read.read_eq _ t ht (by omega), hone]
        rfl
      have hgather := Track.single_read.gather_wrapped hwrap (k := 0) ht.bytewise (by omega) hr rfl
      rwa [Nat.zero_add] at hgather

/-- **A stream of single bytes catches up with every read.** -/
theorem spelled_read : Spelled H (Beside H) read read := by
  intro n s s' hs hn
  cases hleft : fill s with
  | error e u =>
    rw [read_eq hn, read_eq Nat.one_pos, hleft]
    refine (mirrors_fill.of_error hs hleft).imp id ?_
    rintro ⟨u', hright, hu⟩
    rw [hright]
    exact ⟨u', hu, rfl⟩
  | ok more u =>
    obtain ⟨_, u', hright, rfl, hu⟩ := mirrors_fill.of_ok hs hleft
    cases more with
    | false =>
      rw [read_eq hn, read_eq Nat.one_pos, hleft, hright]
      exact ⟨u', hu, .inl ⟨rfl, rfl⟩⟩
    | true =>
      have hrem : u.remaining ≠ 0 := by
        have hfill := ends_fill_remaining s
        rw [hleft, ends_ok] at hfill
        exact hfill rfl
      obtain ⟨t', ht, rfl⟩ := hu
      rw [read_of_fill hn hleft hrem, read_of_fill Nat.one_pos hright hrem]
      refine (spelled_read_in_record ht hrem hn).mono ?_ fun _ _ => id
      rintro got v ⟨v', hv, hnil | ⟨hgot, hle, hgather⟩⟩
      · exact ⟨v', hv, .inl hnil⟩
      · refine ⟨v', hv, .inr ⟨hgot, hle, ?_⟩⟩
        rw [← hgather]
        exact gather_congr (fun n hn => read_of_fill hn hright hrem) (List.length_pos_iff.2 hgot)

theorem mirrors_gather (n : Nat) : Mirrors H (Beside H) Eq (gather read n) (gather read n) :=
  spelled_read.gather single_read (fun _ _ h => h.bytewise) n

theorem mirrors_skip (n : Nat) : Mirrors H (Beside H) Eq (skip n) (skip n) := by
  unfold skip
  refine .bind_eq (mirrors_gather n) fun got => ?_
  split
  · exact .throw _
  · exact .pure rfl

/-! ### Going to an offset -/

/-- **Both streams move to the offset**, or neither does. -/
theorem mirrors_seek (offset : Nat) :
    Mirrors (FormatError.Of H) (Beside H) Eq (seek offset) (seek offset) := by
  rintro s _ ⟨t', ht, rfl⟩
  -- both streams have passed the same visible records
  have hbase : ({ s with track := t' } : LogicalStream).base offset = s.base offset := rfl
  rw [seek_eq, seek_eq, hbase]
  have hrun : Mirrors (FormatError.Of H) (Beside H) Eq
      (do
        onTrack (Track.moveTo (s.base offset).1)
        modify fun s' => { s' with tell := (s.base offset).2, remaining := 0, current := none }
        let _ ← (fill : EStateM IoError LogicalStream Bool)
        skip (offset - (s.base offset).2) : EStateM FormatError LogicalStream Unit)
      (do
        onTrack (Track.moveTo (s.base offset).1)
        modify fun s' => { s' with tell := (s.base offset).2, remaining := 0, current := none }
        let _ ← (fill : EStateM IoError LogicalStream Bool)
        skip (offset - (s.base offset).2) : EStateM FormatError LogicalStream Unit) := by
    refine .bind_eq (mirrors_onTrack (Track.mirrors_moveTo _)) fun _ => ?_
    refine .bind_eq (.modify ?_) fun _ => .bind_eq mirrors_fill.liftIo fun _ => (mirrors_skip _).liftIo
    rintro s _ ⟨t', ht, rfl⟩
    exact ⟨t', ht, rfl⟩
  exact hrun s _ ⟨t', ht, rfl⟩

theorem matches_openAt {t t' : Track} (h : t.Beside H t') (p : Place) :
    Matches (FormatError.Of H) (Beside H) (openAt t p) (openAt t' p) := by
  unfold openAt
  cases hleft : t.moveTo p with
  | error e u =>
    obtain hrefused | ⟨u', hright, -⟩ := (Track.mirrors_moveTo p).of_error h hleft
    · exact .refused _ hrefused
    · simp only [hright]
      exact .error e
  | ok _ u =>
    obtain ⟨_, u', hright, -, hu⟩ := (Track.mirrors_moveTo p).of_ok h hleft
    simp only [hright]
    exact .ok ⟨u', hu, rfl⟩

end LogicalStream

end WellLog
