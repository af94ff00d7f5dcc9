import WellLog.Proofs.LogicalStream.Packing
import WellLog.Proofs.LogicalStream.Position
/-!
# A logical stream is a flat list of bytes

Users of a logical stream fill, read, skip and seek in any order, with any arguments.  This file says
what they see: a list of bytes and an offset in it.  Visible records, tape records, and the list of
visible records that the stream keeps for its seeks, do not show.

* `Call.Yields L t` and `Call.Fails L t` : what a call may answer at the offset `t` of the bytes `L`,
  and when it may fail.  For `skip` and `seek` the two exclude each other, so they say when the call
  succeeds.
* `Reached start failed s` : calls lead from the stream `start` to `s`.  Behind a call that failed,
  the next one has to be a seek.
* `ends_run` : one call, as a step of the flat list.
* `ends_run_of_reached` : **every call behaves as the list says, after any calls before it.**
-/

namespace WellLog

namespace LogicalStream

/-- A call on a logical stream. -/
inductive Call where
  /-- Makes sure that a byte is left. -/
  | fill
  /-- Reads at most so many bytes. -/
  | read (n : Nat)
  /-- Passes over so many bytes. -/
  | skip (n : Nat)
  /-- Moves to an offset. -/
  | seek (offset : Nat)
  deriving DecidableEq

/-- What a call that succeeds answers. -/
inductive Answer where
  /-- Whether there is a byte. -/
  | filled (more : Bool)
  /-- The bytes that were read. -/
  | bytes (got : List UInt8)
  /-- The stream has moved. -/
  | moved
  deriving DecidableEq

namespace Call

/-- The call on the stream itself. -/
def run : Call → EStateM FormatError LogicalStream Answer
  | fill => do return .filled (← (LogicalStream.fill : EStateM IoError LogicalStream Bool))
  | read n => do return .bytes (← (LogicalStream.read n : EStateM IoError LogicalStream (List UInt8)))
  | skip n => do
    (LogicalStream.skip n : EStateM IoError LogicalStream Unit)
    return .moved
  | seek offset => do
    LogicalStream.seek offset
    return .moved

/-- The call goes to an offset of its own. -/
def IsSeek : Call → Prop
  | seek _ => True
  | _ => False

/-- What a call may answer at the offset `t` of `L`, and the offset it leads to. -/
def Yields (L : List UInt8) (t : Nat) : Call → Answer → Nat → Prop
  | fill, .filled more, t' => t' = t ∧ (more = false → t = L.length)
  | read n, .bytes got, t' =>
    got = (L.drop t).take got.length ∧ got.length ≤ n ∧ t' = t + got.length ∧ t' ≤ L.length ∧
      (got = [] → n = 0 ∨ t = L.length)
  | skip n, .moved, t' => t' = t + n ∧ t' ≤ L.length
  | seek k, .moved, t' => t' = k ∧ k ≤ L.length
  | _, _, _ => False

/-- When a call may fail at the offset `t` of `L`.  Reading fails at the end only: where the last
visible record is cut short, or something else than a visible record follows. -/
def Fails (L : List UInt8) (t : Nat) : Call → Prop
  | fill => t = L.length
  | read n => 0 < n ∧ t = L.length
  | skip n => L.length < t + n
  | seek k => L.length < k

end Call

/-- Calls lead from the stream `start` to another one.  It is said whether the last call failed: then
the next one has to be a seek. -/
inductive Reached (start : LogicalStream) : Bool → LogicalStream → Prop where
  /-- No call was made. -/
  | start : Reached start false start
  /-- One more call, which succeeds. -/
  | answered {failed : Bool} {s s' : LogicalStream} {call : Call} {answer : Answer}
      (before : Reached start failed s) (allowed : failed = true → call.IsSeek)
      (run : call.run s = .ok answer s') : Reached start false s'
  /-- One more call, which fails. -/
  | failed {failed : Bool} {s s' : LogicalStream} {call : Call} {e : FormatError}
      (before : Reached start failed s) (allowed : failed = true → call.IsSeek)
      (run : call.run s = .error e s') : Reached start true s'

variable {m : Medium} {framed failed : Bool} {F : Feed} {k n : Nat} {s start : LogicalStream}

/-- What a call needs and leaves behind: the stream is at its offset, or it knows at least where it
begins, which is enough for a seek. -/
structure Usable (m : Medium) (framed : Bool) (F : Feed) (failed : Bool) (s : LogicalStream) : Prop
    extends Anchored m framed F s where
  /-- Where no call failed, the stream is at its offset. -/
  at_tell : failed = false → s.At m framed F s.tell

theorem At.usable (h : s.At m framed F k) : s.Usable m framed F failed :=
  ⟨h.toAnchored, fun _ => h.tell ▸ h⟩

theorem Anchored.usable (h : s.Anchored m framed F) : s.Usable m framed F true := ⟨h, nofun⟩

/-! ### One call -/

/-- What one call at the offset `t` leads to. -/
def Conforms (m : Medium) (framed : Bool) (F : Feed) (t : Nat) (call : Call) :
    EStateM.Result FormatError LogicalStream Answer → Prop :=
  Ends
    (fun answer s' => call.Yields F.contents.bytes t answer s'.tell ∧ s'.Usable m framed F false)
    (fun _ s' => call.Fails F.contents.bytes t ∧ s'.Usable m framed F true)

theorem At.conforms_fill (h : s.At m framed F k) : Conforms m framed F k .fill (Call.fill.run s) := by
  unfold Conforms Call.run
  rw [ends_bind, ends_liftIo]
  refine h.ends_fill.mono ?_ fun e s' he => ⟨he.1.eq_length, he.2.toAnchored.usable⟩
  rintro more s' (⟨rfl, hat, -⟩ | ⟨rfl, hno, hend⟩)
  · exact ⟨⟨hat.tell, nofun⟩, hat.usable⟩
  · exact ⟨⟨hend.tell.trans hno.eq_length.symm, fun _ => hno.eq_length⟩, hend.toAt.usable⟩

theorem At.conforms_read (h : s.At m framed F k) (n : Nat) :
    Conforms m framed F k (.read n) ((Call.read n).run s) := by
  unfold Conforms Call.run
  rw [ends_bind, ends_liftIo]
  by_cases hn : n = 0
  · -- nothing is asked for, so nothing is looked at and `got = []` does not mean the end
    subst hn
    rw [show LogicalStream.read 0 s = .ok [] s from rfl]
    exact ⟨⟨rfl, Nat.le_refl _, h.tell, h.tell ▸ h.le_length, fun _ => .inl rfl⟩, h.usable⟩
  have hpos : 0 < n := Nat.pos_of_ne_zero hn
  refine (h.ends_read hpos).mono ?_ fun e s' he => ⟨⟨hpos, he.1⟩, he.2.toAnchored.usable⟩
  rintro got s' (⟨hne, hle, hbytes, hat⟩ | ⟨rfl, hk, hend⟩)
  · refine ⟨⟨?_, hle, hat.tell, hat.tell ▸ hat.le_length, fun h => absurd h hne⟩, hat.usable⟩
    rw [hbytes, List.take_left]
  · have htell : s'.tell = k := hend.tell.trans hk.symm
    exact ⟨⟨rfl, Nat.zero_le n, htell, htell ▸ h.le_length, fun _ => .inr hk⟩, hend.toAt.usable⟩

theorem At.conforms_skip (h : s.At m framed F k) (n : Nat) :
    Conforms m framed F k (.skip n) ((Call.skip n).run s) := by
  unfold Conforms Call.run
  rw [ends_bind, ends_liftIo]
  by_cases hn : k + n ≤ F.contents.bytes.length
  · obtain ⟨s', hrun, hat⟩ := h.skip_of_le hn
    rw [hrun]
    exact ⟨⟨hat.tell, hat.tell ▸ hn⟩, hat.usable⟩
  · refine (h.ends_skip_of_lt (Nat.lt_of_not_le hn)).mono (fun _ _ => False.elim) fun e s' he => ?_
    exact ⟨Nat.lt_of_not_le hn, he.toAnchored.usable⟩

/-- A seek needs nothing but a stream that knows where it begins. -/
theorem Anchored.conforms_seek (h : s.Anchored m framed F) (hF : F.Opens) (t offset : Nat) :
    Conforms m framed F t (.seek offset) ((Call.seek offset).run s) := by
  unfold Conforms Call.run
  rw [ends_bind]
  by_cases hk : offset ≤ F.contents.bytes.length
  · obtain ⟨s', hrun, hat⟩ := h.seek_of_le hF hk
    rw [hrun]
    exact ⟨⟨hat.tell, hk⟩, hat.usable⟩
  · refine (h.ends_seek_of_lt hF (Nat.lt_of_not_le hk)).mono (fun _ _ => False.elim) ?_
    rintro e s' ⟨_, -, hshort⟩
    exact ⟨Nat.lt_of_not_le hk, hshort.toAnchored.usable⟩

/-- **One call is a step of the flat list.** -/
theorem Usable.ends_run (h : s.Usable m framed F failed) (hF : F.Opens) {call : Call}
    (allowed : failed = true → call.IsSeek) : Conforms m framed F s.tell call (call.run s) := by
  cases call with
  | seek offset => exact h.toAnchored.conforms_seek hF s.tell offset
  | fill => exact (h.at_tell (Bool.eq_false_iff.2 allowed)).conforms_fill
  | read n => exact (h.at_tell (Bool.eq_false_iff.2 allowed)).conforms_read n
  | skip n => exact (h.at_tell (Bool.eq_false_iff.2 allowed)).conforms_skip n

/-! ### Any calls -/

/-- Every stream that calls lead to is usable. -/
theorem Reached.usable (h : Reached start failed s) (hF : F.Opens)
    (hstart : start.Usable m framed F false) : s.Usable m framed F failed := by
  -- each call asks for no more than the call before it has left behind
  induction h with
  | start => exact hstart
  | @answered _ s _ _ _ _ allowed run ih =>
    have hstep := ih.ends_run hF allowed
    rw [run] at hstep
    exact hstep.2
  | @failed _ s _ _ _ _ allowed run ih =>
    have hstep := ih.ends_run hF allowed
    rw [run] at hstep
    exact hstep.2

/-- A seek succeeds exactly within the bytes. -/
theorem Anchored.seek_iff (h : s.Anchored m framed F) (hF : F.Opens) (offset : Nat) :
    (∃ s', (Call.seek offset).run s = .ok .moved s' ∧ s'.tell = offset) ↔
      offset ≤ F.contents.bytes.length := by
  have hseek := h.conforms_seek hF s.tell offset
  cases hrun : (Call.seek offset).run s with
  | ok answer s' =>
    obtain ⟨hyields, -⟩ := hrun ▸ hseek
    cases answer with
    | moved => exact ⟨fun _ => hyields.2, fun _ => ⟨s', rfl, hyields.1⟩⟩
    | filled _ => exact hyields.elim
    | bytes _ => exact hyields.elim
  | error e s' =>
    obtain ⟨hfails, -⟩ := hrun ▸ hseek
    exact ⟨nofun, fun hle => absurd hle (Nat.not_le.2 hfails)⟩

/-- **A logical stream is the flat list of its contents.**  Whatever the medium, its tape marks and
the sizes of its reads are, a stream opens on a visible record, and after any calls, each call reads
at the offset that `tell` says, moves it within the contents, and fails only where they end.  A seek
succeeds exactly within the contents, whichever visible records have been passed before. -/
theorem ends_run_of_reached {t : Track} (hm : t.reader.medium = m) (hf : t.isFramed = framed)
    {origin : Place} (hplace : m.feedAt framed origin = .ok F) (hF : F.Opens) :
    ∃ start, openAt t origin = .ok start ∧ start.tell = 0 ∧
      ∀ failed s, Reached start failed s →
        (∀ call : Call, (failed = true → call.IsSeek) →
          Ends (fun answer s' => call.Yields F.contents.bytes s.tell answer s'.tell)
            (fun _ _ => call.Fails F.contents.bytes s.tell) (call.run s)) ∧
        ∀ offset, (∃ s', (Call.seek offset).run s = .ok .moved s' ∧ s'.tell = offset) ↔
          offset ≤ F.contents.bytes.length := by
  obtain ⟨start, hopen, hat, -⟩ := openAt_at hm hf hplace
  refine ⟨start, hopen, hat.tell, fun failed s hs => ?_⟩
  have husable := hs.usable hF hat.usable
  refine ⟨fun call allowed => ?_, husable.toAnchored.seek_iff hF⟩
  exact (husable.ends_run hF allowed).mono (fun _ _ h => h.1) fun _ _ h => h.1

/-- The bodies of two visible records. -/
def twoBodies : List (List UInt8) := [List.replicate 16 7, List.replicate 20 9]

/-- Two visible records, and three bytes that are no header, read two bytes at a time. -/
def twoRecords : Medium := ⟨(pack twoBodies ++ [0, 9, 0xFF]).toArray, .inBursts 2⟩

/-- A seek behind the 36 bytes fails, and the next one goes into the second visible record. -/
theorem ends_run_of_reached_twoRecords :
    ∃ start e s s', openAt ⟨.ofMedium twoRecords, .plain 0, none⟩ (.start 0) = .ok start ∧
      (Call.seek 37).run start = .error e s ∧ (Call.seek 30).run s = .ok .moved s' ∧
      s'.tell = 30 := by
  have hbytes : (twoRecords.plainFeed 0).bytes = pack twoBodies ++ [0, 9, 0xFF] := by
    rw [Medium.plainFeed_of_faultless rfl (Nat.zero_le _)]
    exact List.drop_zero
  have hcontents : (twoRecords.plainFeed 0).contents.bytes = twoBodies.flatten := by
    simp only [Feed.contents, hbytes]
    rw [unwrap_pack (by decide), unwrap_of_length_lt (by decide) (by decide), List.append_nil]
  have hopens : (twoRecords.plainFeed 0).Opens :=
    ⟨⟨20, 0xFF, 1⟩, _, 0, 20, 0xFF, 1, hbytes.trans (by rfl), rfl, by decide⟩
  have hplace : twoRecords.feedAt false (.start 0) = .ok (twoRecords.plainFeed 0) := rfl
  obtain ⟨start, hopen, -, hreached⟩ :=
    ends_run_of_reached (t := ⟨.ofMedium twoRecords, .plain 0, none⟩) rfl rfl hplace hopens
  rw [hcontents] at hreached
  -- only a seek may follow the seek that fails
  have hfails := (hreached false start .start).1 (.seek 37) fun _ => trivial
  cases hrun : (Call.seek 37).run start with
  | ok answer s =>
    rw [hrun, ends_ok] at hfails
    cases answer with
    | moved => exact absurd hfails.2 (by decide)
    | filled _ => exact hfails.elim
    | bytes _ => exact hfails.elim
  | error e s =>
    have hs : Reached start true s := by
      refine .failed .start ?_ hrun
      exact fun _ => trivial
    obtain ⟨s', hrun', htell⟩ := ((hreached true s hs).2 30).2 (by decide)
    exact ⟨start, e, s, s', hopen, hrun, hrun', htell⟩

end LogicalStream

end WellLog
