import WellLog.Proofs.LogicalStream.Fault
import WellLog.Proofs.LogicalStream.Flat
import WellLog.Proofs.Track.Failure
/-!
# Streams at a header that is no header

The four bytes of a visible record header are used up before they are looked at.  If they are no
header, the call fails, and the next one takes the four bytes behind them for the header.  So what
follows a failure depends on the bytes behind the damage, four at a time.  If no valid header is
found there, the stream stalls: calls change nothing but the track, and deliver nothing, until the
next seek.

* `Feed.Sealed` : no header is found behind the damage, four bytes at a time.
* `LogicalStream.Sound m framed F s` : the stream is at an offset of its contents, or it has
  stalled.  No call breaks this, failing or not (`Sound.ends_run`).
* `LogicalStream.Blocked.ends_run` : **calls on a stream that has stalled at a header deliver
  nothing**, and change nothing but the track.
-/

namespace WellLog

/-- The track stops there, or the medium refuses.  No tape mark is malformed or cut short. -/
def Ending.Lasts (ending : Ending) : Prop :=
  ∀ e, ending = .failed e → ∃ kind message, e = .medium kind message

/-- The track stops there. -/
def Ending.Stops (ending : Ending) : Prop := ∃ stop place, ending = .stopped stop place

theorem Ending.Lasts.not_isHeaderFault {ending : Ending} (h : ending.Lasts) {e : IoError}
    (he : ending = .failed e) : ¬ e.IsHeaderFault := by
  obtain ⟨kind, message, rfl⟩ := h e he
  exact id

/-- No header is found where the bytes are taken four at a time. -/
def Barren (bytes : List UInt8) : Prop :=
  ∀ i, ¬ Headed (bytes.drop (VisibleHeader.size * i))

theorem Barren.not_headed {bytes : List UInt8} (h : Barren bytes) : ¬ Headed bytes := h 0

theorem Barren.drop {bytes : List UInt8} (h : Barren bytes) :
    Barren (bytes.drop VisibleHeader.size) := by
  intro i
  have hi := h (i + 1)
  rwa [Nat.mul_add, Nat.mul_one, Nat.add_comm, ← List.drop_drop] at hi

theorem barren_nil : Barren [] := by
  intro i hi
  have := hi.size_le
  simp [VisibleHeader.size] at this

theorem barren_iff {bytes : List UInt8} :
    Barren bytes ↔ ∀ i < bytes.length, ¬ Headed (bytes.drop (VisibleHeader.size * i)) := by
  refine ⟨fun h i _ => h i, fun h i hheaded => ?_⟩
  have hsize := hheaded.size_le
  rw [List.length_drop] at hsize
  simp only [VisibleHeader.size] at hsize
  exact h i (by omega) hheaded

instance (bytes : List UInt8) : Decidable (Barren bytes) := decidable_of_iff _ barren_iff.symm

/-- No header is found behind the four bytes that end the contents. -/
def Feed.Sealed (F : Feed) : Prop :=
  Barren ((F.outlook F.contents.bytes.length).bytes.drop VisibleHeader.size)

instance (F : Feed) : Decidable F.Sealed := inferInstanceAs (Decidable (Barren _))

variable {m : Medium} {framed : Bool} {F : Feed} {ending : Ending} {k n : Nat}

namespace Track

variable {t : Track}

/-- Where gathering fails with the medium, the track refuses from then on. -/
theorem refuses_of_gather (n : Nat) :
    Ends (fun _ _ => True)
      (fun e t' => ∀ kind message, e = .medium kind message → t'.Refuses e)
      (gather read n t) := by
  refine ends_gather_keeps (I := fun _ => True) ?_ n trivial
  intro c u _ _
  cases hrun : read c u with
  | ok got u' => trivial
  | error e u' =>
    rintro kind message rfl
    exact refuses_of_read hrun

/-- One read, which leads to a track that refuses if it fails. -/
theorem Delivers.readsFrom_lasts (h : t.Delivers m framed F) (hlasts : F.ending.Lasts)
    (hn : 0 < n) :
    Ends (fun _ _ => True)
      (fun e t' => F.ending = .failed e ∧ t'.Refuses e ∧ t'.reader.medium = m ∧
        t'.isFramed = framed)
      (read n t) := by
  have hread := h.readsFrom hn
  cases hrun : read n t with
  | ok got t' => trivial
  | error e t' =>
    rw [ReadsFrom, hrun, ends_error] at hread
    obtain ⟨rfl, hmedium, hframed⟩ := hread
    obtain ⟨kind, message, rfl⟩ := hlasts e rfl
    exact ⟨rfl, refuses_of_read hrun, hmedium, hframed⟩

theorem Refuses.gather {e : IoError} (h : t.Refuses e) (hn : 0 < n) :
    WellLog.gather Track.read n t = .error e t := by
  rw [gather_of_pos hn, h.read hn]

/-- The track has no header ahead: none is found among its bytes, or the medium refuses. -/
structure Spent (m : Medium) (framed : Bool) (ending : Ending) (t : Track) : Prop where
  /-- The medium. -/
  medium : t.reader.medium = m
  /-- Whether tape marks are stepped over. -/
  isFramed : t.isFramed = framed
  /-- What lies ahead. -/
  ahead : (∃ bytes, Barren bytes ∧ t.Delivers m framed ⟨bytes, ending⟩) ∨
    ∃ e, ending = .failed e ∧ t.Refuses e

theorem Delivers.spent {bytes : List UInt8} (h : t.Delivers m framed ⟨bytes, ending⟩)
    (hbarren : Barren bytes) : t.Spent m framed ending :=
  ⟨h.medium, h.isFramed, .inl ⟨bytes, hbarren, h⟩⟩

end Track

/-- Unless nothing else is found behind it, what ends the contents is no header. -/
theorem Feed.not_headed_of_not_sealed (hno : ¬ F.Sealed)
    (hrem : (F.outlook F.contents.bytes.length).remaining = 0) :
    ¬ Headed (F.outlook F.contents.bytes.length).bytes := by
  rintro ⟨header, rest, hheader⟩
  have hcontents := Feed.unwrap_outlook (Nat.le_refl F.contents.bytes.length) hrem
  rw [← Outlook.contents_zero, ← Outlook.contents_enter hheader, List.drop_length] at hcontents
  by_cases hrest : rest = []
  · obtain ⟨a, b, c, d, hbytes, -⟩ := hheader
    refine hno ?_
    rw [Feed.Sealed, hbytes, hrest]
    exact barren_nil
  · have hzero := Outlook.remaining_eq_zero (congrArg Contents.bytes hcontents) hrest
    exact absurd hzero (Nat.ne_of_gt hheader.bodyLength_pos)

namespace LogicalStream

variable {s s' s'' : LogicalStream} {e : IoError}

/-! ### Where the next header is looked for -/

/-- Where looking for the next header fails with the medium, the track refuses from then on. -/
theorem refuses_of_nextVisible :
    Ends (fun _ _ => True)
      (fun e s' => ∀ kind message, e = .medium kind message → s'.track.Refuses e)
      (nextVisible s) := by
  unfold nextVisible
  rw [ends_bind, ends_get, ends_bind, ends_onTrack]
  refine (Track.refuses_of_gather _).mono ?_ fun _ _ => id
  rintro got t -
  split
  · exact trivial
  · simp only
    split
    · rw [ends_bind, ends_modify]
      exact trivial
    · exact fun _ _ => nofun
  · exact fun _ _ => nofun

/-- Looking for the next header, where no tape mark is in the way. -/
theorem ends_nextVisible_lasts {bytes : List UInt8}
    (hd : s.track.Delivers m framed ⟨bytes, ending⟩) (hlasts : ending.Lasts) :
    Ends
      (fun more s' => more = true ∧ Headed bytes ∨
        more = false ∧ ending.Stops ∧ OnlyTrack s s' ∧ s'.track.Delivers m framed ⟨[], ending⟩)
      (fun e s' => OnlyTrack s s' ∧
        (s'.track.Delivers m framed ⟨bytes.drop VisibleHeader.size, ending⟩ ∨
          ending = .failed e ∧ s'.track.Refuses e ∧ s'.track.reader.medium = m ∧
            s'.track.isFramed = framed))
      (nextVisible s) := by
  refine ((ends_nextVisible_of_delivers hd).and refuses_of_nextVisible).mono ?_ ?_
  · rintro more s' ⟨⟨hmore, header, rest, -, hheader, -⟩ |
      ⟨hmore, -, honly, hd', stop, -, hstop⟩, -⟩
    · exact .inl ⟨hmore, header, rest, hheader⟩
    · exact .inr ⟨hmore, ⟨stop, _, hstop⟩, honly, hd'⟩
  · rintro e s' ⟨⟨honly, -, -, ⟨-, hd'⟩ | ⟨-, he, htrack⟩⟩, hrefuses⟩
    · exact ⟨honly, .inl hd'⟩
    · obtain ⟨kind, message, hmessage⟩ := hlasts e he
      exact ⟨honly, .inr ⟨he, hrefuses kind message hmessage, htrack⟩⟩

/-- A header that lies ahead is entered. -/
theorem fill_of_headed {bytes : List UInt8} (hrem : s.remaining = 0)
    (hd : s.track.Delivers m framed ⟨bytes, ending⟩) (hheaded : Headed bytes) :
    ∃ s', Call.fill.run s = .ok (.filled true) s' ∧ s'.tell = s.tell ∧
      ((∀ v ∈ s.passed, v.start < s.tell) → ∃ v, s'.passed = v :: s.passed) := by
  have hfill : Ends (fun answer s' => answer = .filled true ∧ s'.tell = s.tell ∧
      ((∀ v ∈ s.passed, v.start < s.tell) → ∃ v, s'.passed = v :: s.passed))
      (fun _ _ => False) (Call.fill.run s) := by
    unfold Call.run fill
    rw [ends_bind, ends_liftIo, ends_bind, ends_get, if_pos hrem]
    refine (ends_nextVisible_of_delivers hd).mono ?_ ?_
    · rintro more s' (⟨rfl, header, rest, t, -, -, rfl⟩ | ⟨-, rfl, -⟩)
      · exact ⟨rfl, rfl, fun hstart => ⟨_, passed_enter header t hstart⟩⟩
      · exact absurd hheaded.size_le (by simp [VisibleHeader.size])
    · rintro e s' ⟨-, hno, -⟩
      exact hno hheaded
  obtain ⟨_, s', hrun, rfl, hs'⟩ := hfill.exists_ok
  exact ⟨s', hrun, hs'⟩

/-- Four bytes that are no header are used up. -/
theorem fill_of_not_headed {bytes : List UInt8} (hrem : s.remaining = 0)
    (hd : s.track.Delivers m framed ⟨bytes, ending⟩)
    (hsize : VisibleHeader.size ≤ bytes.length) (hno : ¬ Headed bytes) :
    ∃ e s', Call.fill.run s = .error e s' ∧ e.IsHeaderFault ∧ OnlyTrack s s' ∧
      s'.track.Delivers m framed ⟨bytes.drop VisibleHeader.size, ending⟩ := by
  have hfill : Ends (fun _ _ => False)
      (fun e s' => e.IsHeaderFault ∧ OnlyTrack s s' ∧
        s'.track.Delivers m framed ⟨bytes.drop VisibleHeader.size, ending⟩)
      (Call.fill.run s) := by
    unfold Call.run fill
    rw [ends_bind, ends_liftIo, ends_bind, ends_get, if_pos hrem]
    refine (ends_nextVisible_of_delivers hd).mono ?_ ?_
    · rintro more s' (⟨-, header, rest, -, hheader, -⟩ | ⟨-, rfl, -⟩)
      · exact absurd ⟨header, rest, hheader⟩ hno
      · exact absurd hsize (by simp [VisibleHeader.size])
    · rintro e s' ⟨honly, -, -, ⟨hfault, hd'⟩ | ⟨hlt, -⟩⟩
      · exact ⟨hfault, honly, hd'⟩
      · exact absurd hsize (Nat.not_le.2 hlt)
  exact hfill.exists_error

/-- Behind its contents, a stream is in front of the header that is none. -/
theorem At.remaining_of_not_sealed (h : s.At m framed F F.contents.bytes.length)
    (hno : ¬ F.Sealed) : s.remaining = 0 := by
  by_contra hrem
  obtain ⟨bytes, -, hface⟩ := h.ahead
  have hcontents := congrArg Contents.bytes (hface.contents h.le_length)
  simp only [List.drop_length] at hcontents
  have hnil : bytes = [] :=
    not_not.1 fun hne => hrem (Outlook.remaining_eq_zero hcontents hne)
  subst hnil
  generalize ho : (⟨s.remaining, []⟩ : Outlook) = o at hface
  generalize s.current = current at hface
  refine hno ?_
  unfold Feed.Sealed
  cases hface with
  | behind _ =>
    rw [← ho]
    exact barren_nil
  | entered _ valid _ =>
    obtain ⟨a, b, c, d, hbytes, -⟩ := valid
    rw [Outlook.mk.injEq] at ho
    rw [hbytes, ← ho.2]
    exact barren_nil

/-! ### Streams that have stalled -/

/-- The stream is behind the last byte of its contents, and has no header ahead.  Inside a visible
record, it is the medium that refuses. -/
structure Stalled (m : Medium) (framed : Bool) (F : Feed) (s : LogicalStream) : Prop
    extends Anchored m framed F s where
  /-- The offset is that of the damage. -/
  tell : s.tell = F.contents.bytes.length
  /-- No header lies ahead. -/
  spent : s.track.Spent m framed F.ending
  /-- Why no byte comes inside a visible record. -/
  inside : s.remaining ≠ 0 → ∃ e, F.ending = .failed e ∧ s.track.Refuses e

/-- The stream has stalled where a header should be. -/
structure Blocked (m : Medium) (framed : Bool) (F : Feed) (s : LogicalStream) : Prop
    extends Stalled m framed F s where
  /-- The last visible record is complete. -/
  remaining : s.remaining = 0

/-- The stream is at an offset of its contents, or has stalled. -/
def Sound (m : Medium) (framed : Bool) (F : Feed) (s : LogicalStream) : Prop :=
  (∃ k, s.At m framed F k) ∨ s.Stalled m framed F

theorem At.sound (h : s.At m framed F k) : s.Sound m framed F := .inl ⟨k, h⟩

theorem Stalled.sound (h : s.Stalled m framed F) : s.Sound m framed F := .inr h

theorem Sound.anchored (h : s.Sound m framed F) : s.Anchored m framed F := by
  obtain ⟨k, hat⟩ | hstalled := h
  · exact hat.toAnchored
  · exact hstalled.toAnchored

/-- What a call that fails leaves behind.  At a header that is none, the stream has stalled. -/
structure Leaves (m : Medium) (framed : Bool) (F : Feed) (e : FormatError) (s : LogicalStream) :
    Prop where
  /-- The stream can be used. -/
  sound : s.Sound m framed F
  /-- It is blocked by a header that is none. -/
  blocked : e.IsHeaderFault → s.Blocked m framed F

theorem Blocked.leaves (h : s.Blocked m framed F) {e : FormatError} : s.Leaves m framed F e :=
  ⟨h.sound, fun _ => h⟩

/-- Behind the last byte, a stream with such a track has stalled. -/
theorem Anchored.blocked (h : s.Anchored m framed F) (htell : s.tell = F.contents.bytes.length)
    (hrem : s.remaining = 0) (honly : OnlyTrack s s') (hspent : s'.track.Spent m framed F.ending) :
    s'.Blocked m framed F := by
  rw [honly]
  exact ⟨⟨h.onTrack hspent.medium hspent.isFramed, htell, hspent, fun hne => absurd hrem hne⟩, hrem⟩

/-- The call asks for a byte. -/
def Call.Asks : Call → Prop
  | fill => True
  | read n | skip n => 0 < n
  | seek _ => False

theorem Call.Asks.not_isSeek {call : Call} (h : call.Asks) : ¬ call.IsSeek := by
  cases call with
  | seek offset => exact h.elim
  | _ => exact id

/-- There was no byte. -/
def Answer.IsNothing : Answer → Prop
  | filled more => more = false
  | bytes got => got = []
  | moved => False

section Calls

variable (hlasts : F.ending.Lasts)
include hlasts

/-! ### Calls on a stream that has stalled -/

/-- Where a stream is blocked, no header follows: the track stops, or the call fails. -/
theorem Blocked.ends_nextVisible (h : s.Blocked m framed F) :
    Ends
      (fun more s' => more = false ∧ F.ending.Stops ∧ s'.Blocked m framed F ∧ OnlyTrack s s')
      (fun _ s' => s'.Blocked m framed F ∧ OnlyTrack s s') (nextVisible s) := by
  have hblocked : ∀ {s'}, OnlyTrack s s' → s'.track.Spent m framed F.ending →
      s'.Blocked m framed F := h.toAnchored.blocked h.tell h.remaining
  obtain ⟨bytes, hbarren, hd⟩ | ⟨e, he, hrefuses⟩ := h.spent.ahead
  · refine (ends_nextVisible_lasts hd hlasts).mono ?_ ?_
    · rintro more s' (⟨-, hheaded⟩ | ⟨rfl, hstops, honly, hd'⟩)
      · exact absurd hheaded hbarren.not_headed
      · exact ⟨rfl, hstops, hblocked honly (hd'.spent barren_nil), honly⟩
    · rintro e s' ⟨honly, hd' | ⟨he, hrefuses, hmedium, hframed⟩⟩
      · exact ⟨hblocked honly (hd'.spent hbarren.drop), honly⟩
      · exact ⟨hblocked honly ⟨hmedium, hframed, .inr ⟨e, he, hrefuses⟩⟩, honly⟩
  · unfold nextVisible
    rw [ends_bind, ends_get, ends_bind, ends_onTrack, hrefuses.gather (by decide), ends_error]
    exact ⟨h, .refl s⟩

theorem Blocked.ends_fill (h : s.Blocked m framed F) :
    Ends
      (fun more s' => more = false ∧ F.ending.Stops ∧ s'.Blocked m framed F ∧ OnlyTrack s s')
      (fun _ s' => s'.Blocked m framed F ∧ OnlyTrack s s') (fill s) := by
  unfold fill
  rw [ends_bind, ends_get, if_pos h.remaining]
  exact h.ends_nextVisible hlasts

theorem Blocked.ends_read (h : s.Blocked m framed F) (hn : 0 < n) :
    Ends
      (fun got s' => got = [] ∧ F.ending.Stops ∧ s'.Blocked m framed F ∧ OnlyTrack s s')
      (fun _ s' => s'.Blocked m framed F ∧ OnlyTrack s s') (read n s) := by
  unfold read
  rw [if_neg (Nat.pos_iff_ne_zero.1 hn), ends_bind]
  refine (h.ends_fill hlasts).mono ?_ fun _ _ => id
  rintro more s' ⟨rfl, hs'⟩
  exact ⟨rfl, hs'⟩

theorem Blocked.ends_gather (h : s.Blocked m framed F) (hn : 0 < n) :
    Ends
      (fun got s' => got = [] ∧ F.ending.Stops ∧ s'.Blocked m framed F ∧ OnlyTrack s s')
      (fun _ s' => s'.Blocked m framed F ∧ OnlyTrack s s') (gather read n s) := by
  have hread := h.ends_read hlasts hn
  rw [gather_of_pos hn]
  cases hrun : read n s with
  | error e s' =>
    rw [hrun] at hread
    exact hread
  | ok got s' =>
    rw [hrun, ends_ok] at hread
    obtain ⟨rfl, hs'⟩ := hread
    exact ⟨rfl, hs'⟩

theorem Blocked.ends_skip (h : s.Blocked m framed F) (n : Nat) :
    Ends (fun _ s' => n = 0 ∧ s'.Blocked m framed F ∧ OnlyTrack s s')
      (fun _ s' => s'.Blocked m framed F ∧ OnlyTrack s s') (skip n s) := by
  unfold skip
  rw [ends_bind]
  by_cases hn : n = 0
  · subst hn
    rw [gather_zero]
    exact ⟨rfl, h, .refl s⟩
  · refine (h.ends_gather hlasts (Nat.pos_of_ne_zero hn)).mono ?_ fun _ _ => id
    rintro got s' ⟨rfl, -, hs'⟩
    rw [if_pos (by rw [List.length_nil]; omega), ends_throw]
    exact hs'

/-- **Calls on a stream that is blocked deliver nothing**, and change nothing but its track. -/
theorem Blocked.ends_run (h : s.Blocked m framed F) {call : Call} (hseek : ¬ call.IsSeek) :
    Ends
      (fun answer s' => (call.Asks → answer.IsNothing ∧ F.ending.Stops) ∧ s'.Blocked m framed F ∧
        OnlyTrack s s')
      (fun _ s' => s'.Blocked m framed F ∧ OnlyTrack s s') (call.run s) := by
  unfold Call.run
  cases call with
  | fill =>
    rw [ends_bind, ends_liftIo]
    refine (h.ends_fill hlasts).mono ?_ fun _ _ => id
    rintro more s' ⟨rfl, hstops, hs'⟩
    exact ⟨fun _ => ⟨rfl, hstops⟩, hs'⟩
  | read n =>
    rw [ends_bind, ends_liftIo]
    by_cases hn : n = 0
    · subst hn
      exact ⟨fun hno => absurd hno (Nat.lt_irrefl 0), h, .refl s⟩
    · refine (h.ends_read hlasts (Nat.pos_of_ne_zero hn)).mono ?_ fun _ _ => id
      rintro got s' ⟨rfl, hstops, hs'⟩
      exact ⟨fun _ => ⟨rfl, hstops⟩, hs'⟩
  | skip n =>
    rw [ends_bind, ends_liftIo]
    refine (h.ends_skip hlasts n).mono ?_ fun _ _ => id
    rintro - s' ⟨rfl, hs'⟩
    exact ⟨fun hno => absurd hno (Nat.lt_irrefl 0), hs'⟩
  | seek offset => exact absurd trivial hseek

/-- Inside a visible record that the medium refuses, no read delivers anything. -/
theorem Stalled.ends_read (h : s.Stalled m framed F) (hn : 0 < n) :
    Ends (fun got s' => got = [] ∧ s'.Stalled m framed F)
      (fun e s' => s'.Leaves m framed F (.io e) ∧ OnlyTrack s s') (read n s) := by
  by_cases hrem : s.remaining = 0
  · refine (Blocked.ends_read hlasts ⟨h, hrem⟩ hn).mono ?_ fun e s' he => ⟨he.1.leaves, he.2⟩
    exact fun got s' hs' => ⟨hs'.1, hs'.2.2.1.toStalled⟩
  · obtain ⟨e, he, hrefuses⟩ := h.inside hrem
    unfold read fill
    rw [if_neg (Nat.pos_iff_ne_zero.1 hn), ends_bind, ends_bind, ends_get, if_neg hrem, ends_pure,
      if_neg (by decide), ends_bind, ends_get, ends_bind, ends_onTrack, hrefuses.read (by omega),
      ends_error]
    exact ⟨⟨h.sound, fun hfault => absurd hfault (hlasts.not_isHeaderFault he)⟩, .refl s⟩

theorem Stalled.ends_gather (h : s.Stalled m framed F) (hn : 0 < n) :
    Ends (fun got s' => got = [] ∧ s'.Stalled m framed F)
      (fun e s' => s'.Leaves m framed F (.io e)) (gather read n s) := by
  have hread := h.ends_read hlasts hn
  rw [gather_of_pos hn]
  cases hrun : read n s with
  | error e s' =>
    rw [hrun, ends_error] at hread
    exact hread.1
  | ok got s' =>
    rw [hrun, ends_ok] at hread
    obtain ⟨rfl, hs'⟩ := hread
    exact ⟨rfl, hs'⟩

/-! ### Calls on a stream at an offset -/

variable (hsealed : F.Sealed)
include hsealed

/-- Where no byte follows, the stream is blocked. -/
theorem At.ends_fill_blocked (h : s.At m framed F k) :
    Ends (fun more s' => s'.At m framed F k ∧ (more = true → s'.remaining ≠ 0))
      (fun _ s' => s'.Blocked m framed F ∧ OnlyTrack s s') (fill s) := by
  unfold fill
  rw [ends_bind, ends_get]
  split
  · rename_i hrem
    obtain ⟨-, hd⟩ := h.delivers hrem
    refine ((h.ends_nextVisible hrem).and (ends_nextVisible_lasts hd hlasts)).mono ?_ ?_
    · rintro more s' ⟨⟨-, hat, hrem'⟩ | ⟨rfl, hno, hend⟩, -⟩
      · exact ⟨hat, fun _ => hrem'⟩
      · exact ⟨hno.eq_length ▸ hend.toAt, nofun⟩
    · rintro e s' ⟨⟨hno, -⟩, honly, hahead⟩
      obtain rfl := hno.eq_length
      refine ⟨h.toAnchored.blocked h.tell hrem honly ?_, honly⟩
      obtain hd' | ⟨he, hrefuses, hmedium, hframed⟩ := hahead
      · exact hd'.spent hsealed
      · exact ⟨hmedium, hframed, .inr ⟨e, he, hrefuses⟩⟩
  · exact ⟨h, fun _ => ‹_›⟩

/-- A read fails where the stream is blocked, in a visible record that is cut short, or because the
medium refuses. -/
theorem At.ends_read_leaves (h : s.At m framed F k) (hn : 0 < n) :
    Ends (fun _ s' => ∃ k', s'.At m framed F k')
      (fun e s' => s'.Leaves m framed F (.io e) ∧ (e.IsHeaderFault → OnlyTrack s s'))
      (read n s) := by
  have hleaves : Ends (fun _ _ => True)
      (fun e s' => k = F.contents.bytes.length →
        s'.Leaves m framed F (.io e) ∧ (e.IsHeaderFault → OnlyTrack s s')) (read n s) := by
    unfold read
    rw [if_neg (Nat.pos_iff_ne_zero.1 hn), ends_bind]
    refine (h.ends_fill_blocked hlasts hsealed).mono ?_ ?_
    · rintro more s' ⟨hat, hmore⟩
      cases more with
      | false => exact trivial
      | true =>
        have hrem := hmore rfl
        obtain ⟨bytes, hd, hface⟩ := hat.ahead
        have hpos : 0 < min n s'.remaining := by omega
        rw [if_neg (by decide), ends_bind, ends_get, ends_bind, ends_onTrack]
        refine ((hd.readsFrom hpos).and (hd.readsFrom_lasts hlasts hpos)).mono ?_ ?_
        · rintro got t ⟨⟨hgot, -, -, hd'⟩, -⟩
          by_cases hne : got = []
          · subst hne
            obtain ⟨rfl, -⟩ := hgot.resolve_left fun h => h rfl
            refine fun _ => ⟨⟨.inl ⟨k, ?_⟩, False.elim⟩, False.elim⟩
            exact ⟨hat.onTrack hd'.medium hd'.isFramed, hat.tell, hat.le_length, [], hd', hface⟩
          · rw [if_neg (by simpa using hne), ends_bind, ends_modify]
            exact trivial
        · rintro e t ⟨-, he, hrefuses, hmedium, hframed⟩ rfl
          have hno := hlasts.not_isHeaderFault he
          refine ⟨⟨Stalled.sound ?_, fun hfault => absurd hfault hno⟩,
            fun hfault => absurd hfault hno⟩
          exact ⟨hat.onTrack hmedium hframed, hat.tell, ⟨hmedium, hframed, .inr ⟨e, he, hrefuses⟩⟩,
            fun _ => ⟨e, he, hrefuses⟩⟩
    · exact fun e s' he _ => ⟨he.1.leaves, fun _ => he.2⟩
  refine ((h.ends_read hn).and hleaves).mono ?_ fun e s' he => he.2 he.1.1
  rintro got s' ⟨⟨-, -, -, hat⟩ | ⟨-, -, hend⟩, -⟩
  · exact ⟨_, hat⟩
  · exact ⟨_, hend.toAt⟩

/-! ### Any calls -/

theorem Sound.ends_fill (h : s.Sound m framed F) :
    Ends (fun _ s' => s'.Sound m framed F)
      (fun e s' => s'.Leaves m framed F (.io e) ∧ OnlyTrack s s') (fill s) := by
  obtain ⟨k, hat⟩ | hstalled := h
  · exact (hat.ends_fill_blocked hlasts hsealed).mono (fun _ _ h => h.1.sound)
      fun _ _ h => ⟨h.1.leaves, h.2⟩
  · by_cases hrem : s.remaining = 0
    · exact (Blocked.ends_fill hlasts ⟨hstalled, hrem⟩).mono (fun _ _ h => h.2.2.1.sound)
        fun _ _ h => ⟨h.1.leaves, h.2⟩
    · unfold fill
      rw [ends_bind, ends_get, if_neg hrem, ends_pure]
      exact hstalled.sound

theorem Sound.ends_read (h : s.Sound m framed F) (n : Nat) :
    Ends (fun _ s' => s'.Sound m framed F)
      (fun e s' => s'.Leaves m framed F (.io e) ∧ (e.IsHeaderFault → OnlyTrack s s'))
      (read n s) := by
  by_cases hn : n = 0
  · subst hn
    exact h
  · obtain ⟨k, hat⟩ | hstalled := h
    · exact (hat.ends_read_leaves hlasts hsealed (Nat.pos_of_ne_zero hn)).mono
        (fun _ _ h => .inl h) fun _ _ => id
    · exact (hstalled.ends_read hlasts (Nat.pos_of_ne_zero hn)).mono (fun _ _ h => h.2.sound)
        fun _ _ h => ⟨h.1, fun _ => h.2⟩

theorem Sound.ends_gather (h : s.Sound m framed F) (n : Nat) :
    Ends (fun _ s' => s'.Sound m framed F) (fun e s' => s'.Leaves m framed F (.io e))
      (gather read n s) :=
  ends_gather_keeps (fun c _ _ hs => (hs.ends_read hlasts hsealed c).mono (fun _ _ => id)
    fun _ _ h => h.1) n h

theorem Sound.ends_skip (h : s.Sound m framed F) (n : Nat) :
    Ends (fun _ s' => s'.Sound m framed F) (fun e s' => s'.Leaves m framed F (.io e))
      (skip n s) := by
  unfold skip
  rw [ends_bind]
  refine (h.ends_gather hlasts hsealed n).mono ?_ fun _ _ => id
  intro got s' hs'
  split
  · exact ⟨hs', False.elim⟩
  · exact hs'

theorem Sound.ends_seek (h : s.Sound m framed F) (offset : Nat) :
    Ends (fun _ s' => s'.Sound m framed F) (fun e s' => s'.Leaves m framed F e)
      (seek offset s) := by
  obtain ⟨s', hat, hseek⟩ := h.anchored.seek_eq_at offset
  rw [hseek, ends_bind, ends_liftIo]
  refine (hat.sound.ends_fill hlasts hsealed).mono ?_ fun _ _ h => h.1
  intro more s'' hs''
  rw [ends_liftIo]
  exact hs''.ends_skip hlasts hsealed _

/-- **No call breaks a stream**, failing or not. -/
theorem Sound.ends_run (h : s.Sound m framed F) (call : Call) :
    Ends (fun _ s' => s'.Sound m framed F) (fun e s' => s'.Leaves m framed F e) (call.run s) := by
  unfold Call.run
  cases call with
  | fill =>
    rw [ends_bind, ends_liftIo]
    exact (h.ends_fill hlasts hsealed).mono (fun _ _ => id) fun _ _ h => h.1
  | read n =>
    rw [ends_bind, ends_liftIo]
    exact (h.ends_read hlasts hsealed n).mono (fun _ _ => id) fun _ _ h => h.1
  | skip n =>
    rw [ends_bind, ends_liftIo]
    exact h.ends_skip hlasts hsealed n
  | seek offset =>
    rw [ends_bind]
    exact h.ends_seek hlasts hsealed offset

/-- A `fill` or a `read` that meets a header that is none has changed nothing but the track. -/
theorem Sound.onlyTrack_of_run (h : s.Sound m framed F) {e : FormatError}
    (hrun : Call.fill.run s = .error e s' ∨ (Call.read n).run s = .error e s')
    (hfault : e.IsHeaderFault) : OnlyTrack s s' := by
  have hfill : Ends (fun _ _ => True) (fun (_ : FormatError) s' => OnlyTrack s s')
      (Call.fill.run s) := by
    unfold Call.run
    rw [ends_bind, ends_liftIo]
    exact (h.ends_fill hlasts hsealed).mono (fun _ _ _ => trivial) fun _ _ h => h.2
  have hread : Ends (fun _ _ => True)
      (fun (e : FormatError) s' => e.IsHeaderFault → OnlyTrack s s') ((Call.read n).run s) := by
    unfold Call.run
    rw [ends_bind, ends_liftIo]
    exact (h.ends_read hlasts hsealed n).mono (fun _ _ _ => trivial) fun _ _ h => h.2
  obtain hrun | hrun := hrun
  · rw [hrun] at hfill
    exact hfill
  · rw [hrun] at hread
    exact hread hfault

end Calls

end LogicalStream

end WellLog
