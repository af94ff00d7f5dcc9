import WellLog.Proofs.LogicalStream.Truncation
import WellLog.Proofs.LogicalStream.Twins
/-!
# What ends a logical stream

Behind the last byte of its contents a logical stream stops with its track, or it fails.  Which
failure that is depends on the feed alone: on the bytes behind the last complete visible record,
and on how the track ends.  So a seek that fails does so in the same way from everywhere.

The offset that is named with a header cut short is a place of the track, and not of the feed;
`IoError.unplaced` leaves it out.

* `Feed.fault?` : the failure of a read behind the last byte.
* `Anchored.ends_seek_iff` : the offsets that a seek reaches, and its failure at the others.
* `Anchored.agree_seek` : **what a seek leads to does not depend on the calls before it**.
-/

namespace WellLog

/-- The failure of a read where no byte of a visible record follows, if the stream does not end
there. -/
def Outlook.fault? (ending : Ending) (o : Outlook) : Option IoError :=
  if o.remaining = 0 then headerFault? ending o.bytes
  else some (ending.fault (.recordCut o.remaining))

/-- The failure of a read behind the last byte of the contents, if the stream does not end there. -/
def Feed.fault? (F : Feed) : Option IoError :=
  (F.outlook F.contents.bytes.length).fault? F.ending

/-- A seek reaches the offset: the contents have so many bytes, and begin with a visible record, or
are nothing at all. -/
def Feed.Reaches (F : Feed) (offset : Nat) : Prop :=
  offset ≤ F.contents.bytes.length ∧ (F.Opens ∨ F.fault? = none)

/-- The failure of a seek to an offset that is not reached. -/
def Feed.seekFault (F : Feed) (offset : Nat) : IoError :=
  F.fault?.getD (.skipCut (offset - F.contents.bytes.length))

namespace Outlook

variable {ending : Ending}

/-- Passing a header does not change the failure. -/
theorem fault?_enter {bytes rest : List UInt8} {header : VisibleHeader}
    (h : HeaderAt bytes header rest) :
    fault? ending ⟨header.bodyLength, rest⟩ = fault? ending ⟨0, bytes⟩ := by
  have hpos := h.bodyLength_pos
  obtain ⟨a, b, c, d, rfl, rfl, hvalid⟩ := h
  rw [fault?, if_neg (Nat.ne_of_gt hpos), fault?, if_pos rfl, headerFault?, if_pos hvalid]

variable {o : Outlook} {stop : Stop} {place : Place}

/-- A visible record that is cut short is no end. -/
theorem remaining_of_ended (h : o.contents ending = ⟨[], .ended stop place⟩) :
    o.remaining = 0 := by
  by_contra hrem
  by_cases hb : o.bytes = []
  · rw [contents_of_bytes_eq_nil hb hrem, Contents.mk.injEq] at h
    cases ending <;> cases h.2
  · exact hrem (remaining_eq_zero (congrArg Contents.bytes h) hb)

/-- Where the contents end, a read does not fail. -/
theorem fault?_of_ended (h : o.contents ending = ⟨[], .ended stop place⟩) :
    o.fault? ending = none := by
  have hrem := remaining_of_ended h
  rw [fault?, if_pos hrem]
  obtain ⟨remaining, bytes⟩ := o
  simp only at hrem
  subst hrem
  by_cases hlen : VisibleHeader.size ≤ bytes.length
  · obtain ⟨a, b, c, d, rest, rfl⟩ := exists_four hlen
    by_cases hvalid : (VisibleHeader.ofBytes a b c d).IsValid
    · have hheader : HeaderAt (a :: b :: c :: d :: rest) (.ofBytes a b c d) rest :=
        ⟨a, b, c, d, rfl, rfl, hvalid⟩
      rw [← contents_enter hheader] at h
      exact absurd (remaining_of_ended h) (Nat.ne_of_gt hheader.bodyLength_pos)
    · rw [contents_zero, unwrap_of_not_isValid hvalid] at h
      cases h
  · rw [contents_zero] at h
    by_cases hb : bytes = []
    · subst hb
      rw [unwrap_nil] at h
      cases ending with
      | stopped _ _ => rfl
      | failed _ => cases h
    · rw [unwrap_of_length_lt hb (Nat.lt_of_not_le hlen)] at h
      cases ending <;> cases h

end Outlook

namespace LogicalStream

variable {m : Medium} {framed : Bool} {F : Feed} {k n : Nat} {s s' : LogicalStream}

/-- The failure does not depend on whether the next header is read ahead. -/
theorem Faces.fault?_eq {o : Outlook} {current : Option VisibleRecord}
    (h : Faces m framed F k o current) : o.fault? F.ending = (F.outlook k).fault? F.ending := by
  cases h with
  | behind _ => rfl
  | entered remaining valid _ => rw [Outlook.fault?_enter valid, ← remaining]

/-! ### Calls that fail -/

theorem At.ends_fill_fault (h : s.At m framed F k) :
    Ends (fun _ _ => True) (fun e _ => F.fault? = some e.unplaced) (fill s) := by
  have hfault : Ends (fun _ _ => True)
      (fun e _ => (F.outlook k).fault? F.ending = some e.unplaced) (fill s) := by
    unfold fill
    rw [ends_bind, ends_get]
    split
    · obtain ⟨hout, hd⟩ := h.delivers ‹_›
      rw [Outlook.fault?, if_pos hout]
      exact (ends_nextVisible_of_delivers hd).mono (fun _ _ _ => trivial) fun _ _ he => he.2.2.1
    · exact trivial
  refine (h.ends_fill.and hfault).mono (fun _ _ _ => trivial) ?_
  rintro e s' ⟨⟨hno, -⟩, he⟩
  rwa [hno.eq_length] at he

/-- A read fails behind the last byte, with the failure that is found there. -/
theorem At.ends_read_fault (h : s.At m framed F k) (hn : 0 < n) :
    Ends (fun _ s' => ∃ k', s'.At m framed F k') (fun e _ => F.fault? = some e.unplaced)
      (read n s) := by
  have hfault : Ends (fun _ _ => True)
      (fun e _ => k = F.contents.bytes.length → F.fault? = some e.unplaced) (read n s) := by
    unfold read
    rw [if_neg (Nat.pos_iff_ne_zero.1 hn), ends_bind]
    refine (h.ends_fill.and h.ends_fill_fault).mono ?_ fun e s' he _ => he.2
    rintro more s' ⟨⟨rfl, hat, hrem⟩ | ⟨rfl, -⟩, -⟩
    · obtain ⟨bytes, hd, hface⟩ := hat.ahead
      have hface' := hface.fault?_eq
      rw [Outlook.fault?, if_neg hrem] at hface'
      rw [if_neg (by decide), ends_bind, ends_get, ends_bind, ends_onTrack]
      refine (hd.readsFrom (n := min n s'.remaining) (by omega)).mono ?_ ?_
      · rintro got t ⟨hgot, -, -, hd'⟩
        by_cases hne : got = []
        · obtain ⟨-, stop, hstop⟩ := hgot.resolve_left fun h => h hne
          have hending : F.ending = .stopped stop t.place :=
            congrArg Feed.ending (hd'.eq_of_stop hstop)
          subst hne
          rintro rfl
          rw [Feed.fault?, ← hface', hending]
          rfl
        · rw [if_neg (by simpa using hne), ends_bind, ends_modify]
          exact trivial
      · rintro e t ⟨hF, -⟩ rfl
        rw [Feed.mk.injEq] at hF
        rw [Feed.fault?, ← hface', hF.2]
        rfl
    · exact trivial
  refine ((h.ends_read hn).and hfault).mono ?_ fun e s' he => he.2 he.1.1
  rintro got s' ⟨⟨-, -, -, hat⟩ | ⟨-, -, hend⟩, -⟩
  · exact ⟨_, hat⟩
  · exact ⟨_, hend.toAt⟩

theorem AtEnd.fault?_eq (h : s.AtEnd m framed F) : F.fault? = none := by
  obtain ⟨stop, -, hending⟩ := h.stopped
  have hcontents := F.contents_outlook (Nat.le_refl F.contents.bytes.length)
  rw [List.drop_length, hending] at hcontents
  exact Outlook.fault?_of_ended hcontents

theorem At.ends_gather_fault (h : s.At m framed F k) (n : Nat) :
    Ends (fun _ s' => ∃ k', s'.At m framed F k') (fun e _ => F.fault? = some e.unplaced)
      (gather read n s) :=
  ends_gather_keeps (I := fun s : LogicalStream => ∃ k, s.At m framed F k)
    (fun _ _ hc ⟨_, hat⟩ => hat.ends_read_fault hc) n ⟨k, h⟩

theorem At.ends_skip_fault (h : s.At m framed F k) (n : Nat) :
    Ends (fun _ _ => True) (fun e _ => e.unplaced = F.seekFault (k + n)) (skip n s) := by
  by_cases hn : k + n ≤ F.contents.bytes.length
  · obtain ⟨s', hrun, -⟩ := h.skip_of_le hn
    rw [hrun]
    exact trivial
  · have hgather := h.ends_gather_of_lt (Nat.lt_of_not_le hn)
    unfold skip
    rw [ends_bind]
    refine (hgather.and (h.ends_gather_fault n)).mono ?_ ?_
    · rintro got s' ⟨⟨rfl, hend⟩, -⟩
      have hk := h.le_length
      rw [if_pos (by rw [List.length_drop]; omega), ends_throw, Feed.seekFault, hend.fault?_eq,
        List.length_drop]
      exact congrArg IoError.skipCut (by omega)
    · rintro e s' ⟨-, he⟩
      rw [Feed.seekFault, he]
      rfl

/-! ### Seeks -/

/-- A seek that fails meets what is behind the contents, or comes too late for them. -/
theorem Anchored.ends_seek_fault (h : s.Anchored m framed F) (offset : Nat) :
    Ends (fun _ _ => True) (fun e _ => ∃ x, e = .io x ∧ x.unplaced = F.seekFault offset)
      (seek offset s) := by
  obtain ⟨hle, -⟩ := h.base_spec offset
  obtain ⟨s', hat, hseek⟩ := h.seek_eq_at offset
  have hskip : ∀ {s''}, s''.At m framed F (s.base offset).2 →
      Ends (fun _ _ => True) (fun e _ => ∃ x, e = .io x ∧ x.unplaced = F.seekFault offset)
        ((skip (offset - (s.base offset).2) : EStateM FormatError LogicalStream Unit) s'') := by
    intro s'' hat'
    rw [ends_liftIo]
    refine (hat'.ends_skip_fault _).mono (fun _ _ => id) fun e _ he => ⟨e, rfl, ?_⟩
    rwa [Nat.add_sub_cancel' hle] at he
  rw [hseek, ends_bind, ends_liftIo]
  refine (hat.ends_fill.and hat.ends_fill_fault).mono ?_ ?_
  · rintro more s'' ⟨⟨-, hat', -⟩ | ⟨-, hno, hend⟩, -⟩
    · exact hskip hat'
    · exact hskip (hno.eq_length ▸ hend.toAt)
  · rintro e s'' ⟨-, he⟩
    refine ⟨e, rfl, ?_⟩
    rw [Feed.seekFault, he]
    rfl

/-- Where the contents do not begin with a visible record, nothing is reached but their end. -/
theorem Anchored.ends_seek_of_not_opens (h : s.Anchored m framed F) (hopens : ¬ F.Opens)
    (offset : Nat) :
    Ends (fun _ s' => F.Reaches offset ∧ s'.At m framed F offset) (fun _ _ => ¬ F.Reaches offset)
      (seek offset s) := by
  have hlen : F.contents.bytes.length = 0 :=
    List.length_eq_zero_iff.2 (not_not.1 (mt Feed.opens_of_contents hopens))
  have hno : F.Exhausted 0 := by
    refine ⟨hlen.symm, ?_, fun header rest hheader => hopens ⟨header, rest, ?_⟩⟩
    · rw [Feed.outlook_zero]
    · rwa [Feed.outlook_zero] at hheader
  obtain ⟨-, hbase, -⟩ := h.base_spec offset
  obtain ⟨s', hat, hseek⟩ := h.seek_eq_at offset
  rw [hlen, Nat.le_zero] at hbase
  rw [hbase] at hat hseek
  rw [hseek, ends_bind, ends_liftIo]
  refine (hat.ends_fill.and hat.ends_fill_fault).mono ?_ ?_
  · rintro more s'' ⟨⟨-, hat', hrem⟩ | ⟨-, -, hend⟩, -⟩
    · exact absurd hno (hat'.not_exhausted hrem)
    · have hnone := hend.fault?_eq
      rw [ends_liftIo, Nat.sub_zero]
      by_cases hle : offset ≤ F.contents.bytes.length
      · have hzero : offset = 0 := by omega
        obtain ⟨u, hrun, hu⟩ := hend.toAt.skip_of_le (n := 0) (Nat.le_refl _)
        rw [Nat.add_zero, hlen] at hu
        rw [hzero, hrun]
        exact ⟨⟨Nat.zero_le _, .inr hnone⟩, hu⟩
      · exact (hend.toAt.ends_skip_of_lt (n := offset) (by omega)).mono
          (fun _ _ => False.elim) fun _ _ _ hreaches => hle hreaches.1
  · rintro e s'' ⟨-, he⟩ ⟨-, hopens' | hnone⟩
    · exact hopens hopens'
    · rw [hnone] at he
      cases he

/-- **Where a seek leads to, and with what it fails**, is a matter of the feed and the offset. -/
theorem Anchored.ends_seek_iff (h : s.Anchored m framed F) (offset : Nat) :
    Ends (fun _ s' => F.Reaches offset ∧ s'.At m framed F offset)
      (fun e _ => ¬ F.Reaches offset ∧ ∃ x, e = .io x ∧ x.unplaced = F.seekFault offset)
      (seek offset s) := by
  have hreaches : Ends (fun _ s' => F.Reaches offset ∧ s'.At m framed F offset)
      (fun _ _ => ¬ F.Reaches offset) (seek offset s) := by
    by_cases hopens : F.Opens
    · by_cases hle : offset ≤ F.contents.bytes.length
      · obtain ⟨s', hrun, hat⟩ := h.seek_of_le hopens hle
        rw [hrun]
        exact ⟨⟨hle, .inl hopens⟩, hat⟩
      · exact (h.ends_seek_of_lt hopens (Nat.lt_of_not_le hle)).mono (fun _ _ => False.elim)
          fun _ _ _ hreaches => hle hreaches.1
    · exact h.ends_seek_of_not_opens hopens offset
  exact (hreaches.and (h.ends_seek_fault offset)).mono (fun _ _ h => h.1) fun _ _ => id

/-- **What a seek leads to does not depend on the calls before it.** -/
theorem Anchored.agree_seek {O : Origin}
    (h : s.Anchored O.medium O.framed O.feed) (h' : s'.Anchored O.medium O.framed O.feed)
    (offset : Nat) :
    Agree (fun _ u _ v => Twins O O offset u v)
      (fun e _ e' _ => ∃ x x', e = .io x ∧ e' = .io x' ∧ x.unplaced = x'.unplaced)
      (seek offset s) (seek offset s') := by
  refine agree_of_ends (h.ends_seek_iff offset) (h'.ends_seek_iff offset) ?_ ?_ ?_ ?_
  · exact fun _ _ _ _ hu hv => ⟨hu.2, hv.2⟩
  · rintro _ _ _ _ ⟨-, x, rfl, hx⟩ ⟨-, x', rfl, hx'⟩
    exact ⟨x, x', rfl, rfl, hx.trans hx'.symm⟩
  · exact fun _ _ _ _ hu hv => hv.1 hu.1
  · exact fun _ _ _ _ hu hv => hu.1 hv.1

end LogicalStream

end WellLog
