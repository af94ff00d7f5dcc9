import WellLog.Proofs.LogicalStream.Header
/-!
# Where a logical stream is

A logical stream that begins with the feed `F` delivers `F.contents`.  `LogicalStream.At m framed F k`
says that the stream is behind the first `k` bytes of them.  Nothing here depends on where the
visible records and the tape records are cut.

* `At.gather_of_le`, `At.ends_gather_of_lt` : what gathering delivers, in terms of the contents only.
* `Anchored.seek_of_le`, `Anchored.ends_seek_of_lt` : **every offset of the contents can be reached
  from anywhere**, and no other one can.
* `At.visiblePosition_eq` : the stream knows the visible record that it is in.
-/

namespace WellLog

/-- A record of the past leads to the feed from its header on. -/
structure VisibleRecord.Leads (m : Medium) (framed : Bool) (F : Feed) (v : VisibleRecord) :
    Prop where
  /-- The record is part of the stream. -/
  start_le : v.start ≤ F.contents.bytes.length
  /-- The visible record before it is complete. -/
  remaining : (F.outlook v.start).remaining = 0
  /-- Its header. -/
  header : ∃ header rest, HeaderAt (F.outlook v.start).bytes header rest
  /-- Its place. -/
  place : m.feedAt framed v.place = .ok ⟨(F.outlook v.start).bytes, F.ending⟩

/-- Behind `k` bytes there is no further one, and no visible record. -/
structure Feed.Exhausted (F : Feed) (k : Nat) : Prop where
  /-- There is no further byte. -/
  eq_length : k = F.contents.bytes.length
  /-- The last visible record is complete. -/
  remaining : (F.outlook k).remaining = 0
  /-- There is no visible record. -/
  no_header : ∀ header rest, ¬ HeaderAt (F.outlook k).bytes header rest

namespace LogicalStream

variable {m : Medium} {framed : Bool} {F : Feed} {k n : Nat} {s : LogicalStream}

/-- The stream begins with the feed `F`, and knows places in it. -/
structure Anchored (m : Medium) (framed : Bool) (F : Feed) (s : LogicalStream) : Prop where
  /-- The medium. -/
  medium : s.track.reader.medium = m
  /-- Whether tape marks are stepped over. -/
  isFramed : s.track.isFramed = framed
  /-- The origin leads to the feed. -/
  origin : m.feedAt framed s.origin = .ok F
  /-- So does every visible record that was passed. -/
  passed : ∀ v ∈ s.passed, v.Leads m framed F

/-- What lies ahead behind `k` bytes, and the visible record that the next byte belongs to.  At the
end of a visible record, the header of the next one may be read or not. -/
inductive Faces (m : Medium) (framed : Bool) (F : Feed) (k : Nat) :
    Outlook → Option VisibleRecord → Prop where
  /-- No header is read ahead. -/
  | behind {current : Option VisibleRecord} (within : (F.outlook k).remaining ≠ 0 →
      ∃ v, current = some v ∧ (F.outlook k).remaining < v.length) :
      Faces m framed F k (F.outlook k) current
  /-- The header of the next visible record is read. -/
  | entered {header : VisibleHeader} {rest : List UInt8} {place : Place}
      (remaining : (F.outlook k).remaining = 0)
      (valid : HeaderAt (F.outlook k).bytes header rest)
      (place_eq : m.feedAt framed place = .ok ⟨(F.outlook k).bytes, F.ending⟩) :
      Faces m framed F k ⟨header.bodyLength, rest⟩ (some ⟨k, place, header.bodyLength⟩)

/-- The stream is behind the first `k` bytes of its contents. -/
structure At (m : Medium) (framed : Bool) (F : Feed) (k : Nat) (s : LogicalStream) : Prop
    extends Anchored m framed F s where
  /-- The offset. -/
  tell : s.tell = k
  /-- The contents have so many bytes. -/
  le_length : k ≤ F.contents.bytes.length
  /-- What lies ahead. -/
  ahead : ∃ bytes, s.track.Delivers m framed ⟨bytes, F.ending⟩ ∧
    Faces m framed F k ⟨s.remaining, bytes⟩ s.current

/-- The stream is at the end of its contents, and the track has stopped there. -/
structure AtEnd (m : Medium) (framed : Bool) (F : Feed) (s : LogicalStream) : Prop
    extends At m framed F F.contents.bytes.length s where
  /-- The contents end where the track stops. -/
  stopped : ∃ stop, s.track.stop = some stop ∧ F.contents.ending = .ended stop s.track.place

/-- Reading failed behind the last byte. -/
structure Fails (m : Medium) (framed : Bool) (F : Feed) (e : IoError) (s : LogicalStream) : Prop
    extends Anchored m framed F s where
  /-- The contents end with a failure. -/
  broken : F.contents.ending = .broken e.kind

namespace Faces

variable {o : Outlook} {current : Option VisibleRecord}

theorem contents (h : Faces m framed F k o current) (hk : k ≤ F.contents.bytes.length) :
    o.contents F.ending = ⟨F.contents.bytes.drop k, F.contents.ending⟩ := by
  cases h with
  | behind _ => exact Feed.contents_outlook hk
  | entered remaining valid _ =>
    rw [Outlook.contents_enter valid, Outlook.contents_zero, Feed.unwrap_outlook hk remaining]

theorem advance (h : Faces m framed F k o current) (hn : 0 < n) :
    o.advance n = F.outlook (k + n) := by
  rw [Feed.outlook_add]
  cases h with
  | behind _ => rfl
  | entered remaining valid _ =>
    rw [← Outlook.advance_enter valid hn, ← remaining]

/-- The next byte belongs to the visible record at hand. -/
theorem exists_current (h : Faces m framed F k o current) (hr : o.remaining ≠ 0) :
    ∃ v, current = some v ∧ o.remaining ≤ v.length := by
  cases h with
  | behind within =>
    obtain ⟨v, hv, hlt⟩ := within hr
    exact ⟨v, hv, Nat.le_of_lt hlt⟩
  | entered _ _ _ => exact ⟨_, rfl, Nat.le_refl _⟩

end Faces

/-- The stream ended, or failed, before there was enough. -/
structure Short (m : Medium) (framed : Bool) (F : Feed) (e : IoError) (s : LogicalStream) : Prop
    extends Anchored m framed F s where
  /-- The failure is of the kind that the end of the contents makes it. -/
  kind : e.kind = F.contents.ending.shortage

theorem AtEnd.short (h : s.AtEnd m framed F) {e : IoError} (he : e.kind = .unexpectedEof) :
    s.Short m framed F e := by
  obtain ⟨stop, -, hending⟩ := h.stopped
  exact ⟨h.toAnchored, by rw [hending]; exact he⟩

theorem Fails.short {e : IoError} (h : s.Fails m framed F e) : s.Short m framed F e :=
  ⟨h.toAnchored, by rw [h.broken]; rfl⟩

/-! ### Entering visible records -/

namespace Anchored

/-- Steps of the track leave a stream where it began. -/
theorem onTrack (h : s.Anchored m framed F) {t : Track} (medium : t.reader.medium = m)
    (isFramed : t.isFramed = framed) : ({ s with track := t } : LogicalStream).Anchored m framed F :=
  ⟨medium, isFramed, h.origin, h.passed⟩

/-- The contents are no longer than the medium. -/
theorem length_contents_le (h : s.Anchored m framed F) :
    F.contents.bytes.length ≤ m.bytes.size :=
  Nat.le_trans (length_unwrap_le _ _) (Medium.length_feedAt_le h.origin)

end Anchored

theorem origin_of_openAt {t : Track} {p : Place} (h : openAt t p = .ok s) : s.origin = p := by
  unfold openAt at h
  split at h
  · cases h
    rfl
  · cases h

/-- A stream that is opened is at its start. -/
theorem openAt_at {t : Track} (hm : t.reader.medium = m) (hf : t.isFramed = framed) {p : Place}
    (hp : m.feedAt framed p = .ok F) :
    ∃ s, openAt t p = .ok s ∧ s.At m framed F 0 ∧ s.origin = p := by
  have hmove := Track.ends_moveTo hm hf p
  simp only [openAt]
  cases hrun : t.moveTo p with
  | error e t' =>
    obtain ⟨he, -⟩ := hrun ▸ hmove
    rw [hp] at he
    cases he
  | ok u t' =>
    obtain ⟨F', hF', hd⟩ := hrun ▸ hmove
    rw [hp] at hF'
    cases hF'
    refine ⟨_, rfl, ⟨⟨hd.medium, hd.isFramed, hp, nofun⟩, rfl, Nat.zero_le _, F.bytes, hd, ?_⟩, rfl⟩
    have hface := @Faces.behind m framed F 0 none
    rw [Feed.outlook_zero] at hface
    exact hface fun h => absurd rfl h

/-- In front of the next header, the track has the rest of the feed ahead. -/
theorem At.delivers (h : s.At m framed F k) (hrem : s.remaining = 0) :
    (F.outlook k).remaining = 0 ∧ s.track.Delivers m framed ⟨(F.outlook k).bytes, F.ending⟩ := by
  obtain ⟨bytes, hd, hface⟩ := h.ahead
  generalize ho : (⟨s.remaining, bytes⟩ : Outlook) = o at hface
  generalize s.current = current at hface
  cases hface with
  | behind _ => rw [← ho]; exact ⟨hrem, hd⟩
  | entered _ valid _ =>
    have hpos := valid.bodyLength_pos
    rw [Outlook.mk.injEq] at ho
    omega

theorem eq_length_of_drop_eq_nil (hk : k ≤ F.contents.bytes.length)
    (h : F.contents.bytes.drop k = []) : k = F.contents.bytes.length :=
  Nat.le_antisymm hk (List.drop_eq_nil_iff.1 h)

/-- A stream that has read the header of a visible record. -/
theorem At.enter (h : s.At m framed F k) (hrem : s.remaining = 0) {header : VisibleHeader}
    {rest : List UInt8} {t : Track} (hheader : HeaderAt (F.outlook k).bytes header rest)
    (hd : t.Delivers m framed ⟨rest, F.ending⟩) : (s.enter header t).At m framed F k := by
  obtain ⟨hout, hahead⟩ := h.delivers hrem
  have hne : (F.outlook k).bytes ≠ [] :=
    List.ne_nil_of_length_pos (Nat.lt_of_lt_of_le (by decide) hheader.size_le)
  have hplace := hahead.feedAt_place hne
  refine ⟨⟨hd.medium, hd.isFramed, h.origin, fun v hv => ?_⟩, h.tell, h.le_length, rest, hd, ?_⟩
  · obtain rfl | hv := mem_passed_enter hv
    · rw [recordHere, h.tell]
      exact ⟨h.le_length, hout, ⟨header, rest, hheader⟩, hplace⟩
    · exact h.passed v hv
  · have hcurrent : (s.enter header t).current = some ⟨k, s.track.place, header.bodyLength⟩ := by
      rw [LogicalStream.enter, recordHere, h.tell]
    rw [hcurrent]
    exact .entered hout hheader hplace

/-- Where no visible record follows, the contents end, and in the way in which the feed does. -/
theorem At.exhausted_of_unwrap (h : s.At m framed F k) (hout : (F.outlook k).remaining = 0)
    {ending : ContentsEnd} (he : unwrap F.ending (F.outlook k).bytes = ⟨[], ending⟩)
    (hno : ∀ header rest, ¬ HeaderAt (F.outlook k).bytes header rest) :
    F.Exhausted k ∧ F.contents.ending = ending := by
  rw [Feed.unwrap_outlook h.le_length hout, Contents.mk.injEq] at he
  exact ⟨⟨eq_length_of_drop_eq_nil h.le_length he.1, hout, hno⟩, he.2⟩

/-- What `nextVisible` and `fill` lead to: a visible record is entered, or there is no further one. -/
def Enters (m : Medium) (framed : Bool) (F : Feed) (k : Nat) :
    EStateM.Result IoError LogicalStream Bool → Prop :=
  Ends
    (fun b s' => b = true ∧ s'.At m framed F k ∧ s'.remaining ≠ 0 ∨
      b = false ∧ F.Exhausted k ∧ s'.AtEnd m framed F)
    (fun e s' => F.Exhausted k ∧ s'.Fails m framed F e)

/-- The header of the next visible record is read, if there is one. -/
theorem At.ends_nextVisible (h : s.At m framed F k) (hrem : s.remaining = 0) :
    Enters m framed F k (nextVisible s) := by
  obtain ⟨hout, hd⟩ := h.delivers hrem
  refine (ends_nextVisible_of_delivers hd).mono ?_ ?_
  · rintro more s' (⟨rfl, header, rest, t, hheader, ht, rfl⟩ |
      ⟨rfl, hnil, honly, hd', stop, hstop, hending⟩)
    · exact .inl ⟨rfl, h.enter hrem hheader ht, Nat.ne_of_gt hheader.bodyLength_pos⟩
    · have hno : ∀ header rest, ¬ HeaderAt (F.outlook k).bytes header rest := by
        rintro header rest ⟨a, b, c, d, heq, -⟩
        rw [hnil] at heq
        cases heq
      obtain ⟨hexhausted, hcontents⟩ :=
        h.exhausted_of_unwrap hout ((congrArg (unwrap F.ending) hnil).trans unwrap_nil) hno
      have hnothing : F.outlook k = ⟨s'.remaining, []⟩ := by
        rw [honly.remaining, hrem, ← hout, ← hnil]
      obtain rfl := hexhausted.eq_length
      rw [honly] at hnothing ⊢
      refine .inr ⟨rfl, hexhausted, ⟨h.onTrack hd'.medium hd'.isFramed, h.tell, h.le_length, [], hd',
        ?_⟩, stop, hstop, hcontents.trans (congrArg Ending.between hending)⟩
      rw [← hnothing]
      exact .behind fun hne => absurd hout hne
  · rintro e s' ⟨honly, hno, hfault, htrack⟩
    obtain ⟨hexhausted, hcontents⟩ := h.exhausted_of_unwrap hout (unwrap_of_headerFault hno hfault)
      fun header rest hheader => hno ⟨header, rest, hheader⟩
    have hanchored : s'.track.reader.medium = m ∧ s'.track.isFramed = framed := by
      obtain ⟨-, hd'⟩ | ⟨-, -, hsame⟩ := htrack
      · exact ⟨hd'.medium, hd'.isFramed⟩
      · exact hsame
    rw [honly]
    exact ⟨hexhausted, h.onTrack hanchored.1 hanchored.2, hcontents⟩

/-- The next byte is in a visible record afterwards, if there is one. -/
theorem At.ends_fill (h : s.At m framed F k) : Enters m framed F k (fill s) := by
  unfold fill Enters
  rw [ends_bind, ends_get]
  split
  · exact h.ends_nextVisible ‹_›
  · exact .inl ⟨rfl, h, ‹_›⟩

/-- In a visible record, the stream knows whether this is the first byte of it, and where it
begins. -/
theorem At.visiblePosition_eq (h : s.At m framed F k) (hrem : s.remaining ≠ 0) :
    ∃ place, s.visiblePosition = some (place, decide ((F.outlook k).remaining = 0)) ∧
      ((F.outlook k).remaining = 0 →
        m.feedAt framed place = .ok ⟨(F.outlook k).bytes, F.ending⟩ ∧
        ∃ header rest, HeaderAt (F.outlook k).bytes header rest) := by
  obtain ⟨bytes, -, hface⟩ := h.ahead
  unfold visiblePosition
  -- the two ways to face the next byte differ in the outlook, which has to be a variable for that
  generalize ho : (⟨s.remaining, bytes⟩ : Outlook) = o at hface
  generalize s.current = current at hface
  cases hface with
  | behind within =>
    rw [← ho] at within ⊢
    obtain ⟨v, rfl, hlt⟩ := within hrem
    refine ⟨v.place, ?_, fun h => absurd h hrem⟩
    simp only [Option.map_some, Option.some.injEq, Prod.mk.injEq, true_and]
    simp only at hlt
    rw [decide_eq_false hrem, beq_eq_false_iff_ne]
    omega
  | @entered header rest place remaining valid place_eq =>
    rw [Outlook.mk.injEq] at ho
    refine ⟨place, ?_, fun _ => ⟨place_eq, header, rest, valid⟩⟩
    simp [ho.1, remaining]

/-- In a visible record, not all is at an end. -/
theorem At.not_exhausted (h : s.At m framed F k) (hrem : s.remaining ≠ 0) : ¬ F.Exhausted k := by
  intro hno
  obtain ⟨bytes, -, hface⟩ := h.ahead
  generalize ho : (⟨s.remaining, bytes⟩ : Outlook) = o at hface
  generalize s.current = current at hface
  cases hface with
  | behind _ =>
    refine hrem ?_
    rw [← hno.remaining, ← ho]
  | entered _ valid _ => exact hno.no_header _ _ valid

/-! ### Reading -/

/-- A read in a visible record, of which `got` are the next bytes. -/
theorem At.read_in (h : s.At m framed F k) {got bytes : List UInt8} {t : Track}
    (hface : Faces m framed F k ⟨s.remaining, bytes⟩ s.current) (hne : got ≠ [])
    (hle : got.length ≤ s.remaining) (hpre : bytes = got ++ bytes.drop got.length)
    (hd : t.Delivers m framed ⟨bytes.drop got.length, F.ending⟩) :
    F.contents.bytes.drop k = got ++ F.contents.bytes.drop (k + got.length) ∧
      ({ s with
          track := t
          tell := s.tell + got.length
          remaining := s.remaining - got.length } : LogicalStream).At m framed F
        (k + got.length) := by
  have hpos := List.length_pos_iff.2 hne
  have hlen : got.length ≤ bytes.length := by
    rw [hpre, List.length_append]
    omega
  have hgot : bytes.take got.length = got := by
    rw [hpre, List.take_left]
  have hcontents := hface.contents h.le_length
  obtain ⟨hmany, htake⟩ := @Outlook.take_contents F.ending ⟨s.remaining, bytes⟩ _ hle hlen
  rw [hcontents] at hmany htake
  rw [List.length_drop] at hmany
  have hk := h.le_length
  refine ⟨?_, ⟨hd.medium, hd.isFramed, h.origin, h.passed⟩, ?_, by omega, _, hd, ?_⟩
  · have hnext : (F.contents.bytes.drop k).take got.length = got := htake.trans hgot
    have hsplit := List.take_append_drop got.length (F.contents.bytes.drop k)
    rw [hnext, List.drop_drop] at hsplit
    exact hsplit.symm
  · simp only [h.tell]
  · -- with a byte of it taken, the visible record is no longer one that begins here
    have hadvance := hface.advance hpos
    rw [Outlook.advance_of_le hle] at hadvance
    rw [hadvance]
    refine .behind fun _ => ?_
    obtain ⟨v, hv, hvl⟩ := hface.exists_current (by simp only; omega)
    rw [← hadvance]
    simp only at hvl ⊢
    exact ⟨v, hv, by omega⟩

/-- One read delivers some of the next bytes, or finds the end of the contents. -/
theorem At.ends_read (h : s.At m framed F k) (hn : 0 < n) :
    Ends
      (fun got s' => got ≠ [] ∧ got.length ≤ n ∧
          F.contents.bytes.drop k = got ++ F.contents.bytes.drop (k + got.length) ∧
          s'.At m framed F (k + got.length) ∨
        got = [] ∧ k = F.contents.bytes.length ∧ s'.AtEnd m framed F)
      (fun e s' => k = F.contents.bytes.length ∧ s'.Fails m framed F e) (read n s) := by
  unfold read
  rw [if_neg (by omega), ends_bind]
  refine h.ends_fill.mono ?_ fun _ _ he => ⟨he.1.eq_length, he.2⟩
  rintro b s' (⟨rfl, h', hrem⟩ | ⟨rfl, hno, hend⟩)
  · obtain ⟨bytes, hd, hface⟩ := h'.ahead
    rw [if_neg (by decide), ends_bind, ends_get, ends_bind, ends_onTrack]
    have hcut : bytes = [] → k = F.contents.bytes.length ∧ F.contents.ending = F.ending.inside := by
      intro hb
      have hcontents := hface.contents h.le_length
      rw [Outlook.contents_of_bytes_eq_nil hb hrem, Contents.mk.injEq] at hcontents
      exact ⟨eq_length_of_drop_eq_nil h.le_length hcontents.1.symm, hcontents.2.symm⟩
    refine (hd.readsFrom (n := min n s'.remaining) (by omega)).mono ?_ ?_
    · rintro got t ⟨hgot, hle, hpre, hd'⟩
      by_cases hne : got = []
      · obtain ⟨hb, stop, hstop⟩ := hgot.resolve_left fun h => h hne
        obtain ⟨hk, hending⟩ := hcut hb
        have hF : F.ending = .stopped stop t.place := congrArg Feed.ending (hd'.eq_of_stop hstop)
        rw [hF] at hending
        subst hne
        exact ⟨hk, h'.onTrack hd'.medium hd'.isFramed, hending⟩
      · obtain ⟨hbytes, hat⟩ := h'.read_in hface hne (by omega) hpre hd'
        rw [if_neg (by simpa using hne), ends_bind, ends_modify, ends_pure]
        exact .inl ⟨hne, by omega, hbytes, hat⟩
    · rintro e t ⟨hF, hm, hf⟩
      rw [Feed.mk.injEq] at hF
      obtain ⟨hk, hending⟩ := hcut hF.1
      rw [hF.2] at hending
      exact ⟨hk, h'.onTrack hm hf, hending⟩
  · exact .inr ⟨rfl, hno.eq_length, hend⟩

/-- Where the contents have bytes, reading delivers them in order. -/
theorem read_supplies (m : Medium) (framed : Bool) (F : Feed) :
    Supplies read fun bytes s => ∃ k, s.At m framed F k ∧ bytes = F.contents.bytes.drop k := by
  rintro n s _ ⟨k, h, rfl⟩ hne hn
  have hread := h.ends_read hn
  have hk : k ≠ F.contents.bytes.length := by
    rintro rfl
    exact hne (List.drop_length)
  cases hrun : read n s with
  | error e s' =>
    rw [hrun] at hread
    exact absurd hread.1 hk
  | ok got s' =>
    rw [hrun, ends_ok] at hread
    obtain ⟨hgot, hle, hpre, hat⟩ | ⟨-, hend, -⟩ := hread
    · exact ⟨got, _, s', rfl, hgot, hle, hpre, _, hat, rfl⟩
    · exact absurd hend hk

/-- **Gathering delivers the next bytes of the contents.** -/
theorem At.gather_of_le (h : s.At m framed F k) (hn : k + n ≤ F.contents.bytes.length) :
    ∃ s', gather read n s = .ok ((F.contents.bytes.drop k).take n) s' ∧
      s'.At m framed F (k + n) := by
  obtain ⟨got, s', hg, rfl, k', hat, hdrop⟩ :=
    (WellLog.gather_of_le (read_supplies m framed F) n s _ ⟨k, h, rfl⟩
      (by rw [List.length_drop]; omega)).exists_ok
  refine ⟨s', hg, ?_⟩
  have hk' : k' = k + n := by
    have hlen := congrArg List.length hdrop
    have hle := hat.le_length
    simp only [List.length_drop] at hlen
    omega
  rwa [← hk']

/-- Gathering more than there is takes all of it, or fails as the contents end. -/
theorem At.ends_gather_of_lt (h : s.At m framed F k) (hn : F.contents.bytes.length < k + n) :
    Ends (fun got s' => got = F.contents.bytes.drop k ∧ s'.AtEnd m framed F)
      (fun e s' => s'.Fails m framed F e) (gather read n s) := by
  refine WellLog.gather_of_lt (read_supplies m framed F) ?_ n s _ ⟨k, h, rfl⟩
    (by rw [List.length_drop]; have := h.le_length; omega)
  rintro c s hc ⟨k, h, hnil⟩
  have hk := eq_length_of_drop_eq_nil h.le_length hnil.symm
  refine (h.ends_read hc).mono ?_ fun e s' he => he.2
  rintro got s' (⟨hgot, -, hpre, -⟩ | ⟨rfl, -, hend⟩)
  · rw [← hnil] at hpre
    exact absurd (List.append_eq_nil_iff.1 hpre.symm).1 hgot
  · exact ⟨rfl, hend⟩

theorem At.skip_of_le (h : s.At m framed F k) (hn : k + n ≤ F.contents.bytes.length) :
    ∃ s', skip n s = .ok () s' ∧ s'.At m framed F (k + n) := by
  obtain ⟨s', hg, hat⟩ := h.gather_of_le hn
  have hskip : Ends (fun _ s' => s'.At m framed F (k + n)) (fun _ _ => False) (skip n s) := by
    unfold skip
    rw [ends_bind, hg, ends_ok, if_neg, ends_pure]
    · exact hat
    · rw [List.length_take, List.length_drop]
      omega
  obtain ⟨_, s', hrun, hat⟩ := hskip.exists_ok
  exact ⟨s', hrun, hat⟩

theorem At.ends_skip_of_lt (h : s.At m framed F k) (hn : F.contents.bytes.length < k + n) :
    Ends (fun _ _ => False) (fun e s' => s'.Short m framed F e) (skip n s) := by
  have hk := h.le_length
  unfold skip
  rw [ends_bind]
  refine (h.ends_gather_of_lt hn).mono ?_ fun e s' he => he.short
  rintro got s' ⟨rfl, hend⟩
  rw [if_pos (by rw [List.length_drop]; omega), ends_throw]
  exact hend.short rfl

/-! ### Going to an offset -/

/-- The record from which a seek goes forward. -/
def base (offset : Nat) (s : LogicalStream) : Place × Nat :=
  match s.passed.find? fun record => record.start ≤ offset with
  | some record => (record.place, record.start)
  | none => (s.origin, 0)

theorem seek_eq (offset : Nat) (s : LogicalStream) :
    seek offset s = (do
      onTrack (Track.moveTo (s.base offset).1)
      modify fun s' => { s' with tell := (s.base offset).2, remaining := 0, current := none }
      let _ ← (fill : EStateM IoError LogicalStream Bool)
      skip (offset - (s.base offset).2) : EStateM FormatError LogicalStream Unit) s := rfl

/-- Every seek begins at or before the offset, between two visible records of the stream. -/
theorem Anchored.base_spec (h : s.Anchored m framed F) (offset : Nat) :
    (s.base offset).2 ≤ offset ∧ (s.base offset).2 ≤ F.contents.bytes.length ∧
      (F.outlook (s.base offset).2).remaining = 0 ∧
      m.feedAt framed (s.base offset).1 =
        .ok ⟨(F.outlook (s.base offset).2).bytes, F.ending⟩ := by
  unfold base
  split
  · rename_i v hv
    have hle : v.start ≤ offset := by simpa using List.find?_some hv
    obtain ⟨hstart, hrem, -, hplace⟩ := h.passed v (List.mem_of_find?_eq_some hv)
    exact ⟨hle, hstart, hrem, hplace⟩
  · rw [Feed.outlook_zero]
    exact ⟨Nat.zero_le _, Nat.zero_le _, rfl, h.origin⟩

/-- Every seek begins at a visible record of the stream, at or before the offset. -/
theorem Anchored.leads_base (h : s.Anchored m framed F) (hF : F.Opens) (offset : Nat) :
    (⟨(s.base offset).2, (s.base offset).1, 0⟩ : VisibleRecord).Leads m framed F ∧
      (s.base offset).2 ≤ offset := by
  obtain ⟨hle, hstart, hrem, hplace⟩ := h.base_spec offset
  refine ⟨⟨hstart, hrem, ?_, hplace⟩, hle⟩
  unfold base
  split
  · rename_i v hv
    exact (h.passed v (List.mem_of_find?_eq_some hv)).header
  · rw [Feed.outlook_zero]
    exact hF

/-- A seek moves to the end of a visible record, and reads on from there. -/
theorem Anchored.seek_eq_at (h : s.Anchored m framed F) (offset : Nat) :
    ∃ s', s'.At m framed F (s.base offset).2 ∧ seek offset s = (do
      let _ ← (fill : EStateM IoError LogicalStream Bool)
      skip (offset - (s.base offset).2) : EStateM FormatError LogicalStream Unit) s' := by
  obtain ⟨-, hstart, hrem, hplace⟩ := h.base_spec offset
  rw [seek_eq]
  generalize s.base offset = base at *
  have hmove := Track.ends_moveTo h.medium h.isFramed base.1
  rw [hplace] at hmove
  cases hrun : Track.moveTo base.1 s.track with
  | error e t =>
    rw [hrun] at hmove
    cases hmove.1
  | ok _ t =>
    rw [hrun] at hmove
    obtain ⟨F', hF', hd⟩ := hmove
    cases hF'
    refine ⟨{ s with track := t, tell := base.2, remaining := 0, current := none },
      ⟨⟨hd.medium, hd.isFramed, h.origin, h.passed⟩, rfl, hstart, _, hd, ?_⟩, ?_⟩
    · simp only [← hrem]
      exact .behind fun hne => absurd hrem hne
    · simp only [bind, EStateM.bind, LogicalStream.onTrack, hrun]
      rfl

/-- A seek goes to a visible record and enters it, and skips the rest of the way. -/
theorem Anchored.ends_seek (h : s.Anchored m framed F) (hF : F.Opens)
    {Q : Unit → LogicalStream → Prop} {E : FormatError → LogicalStream → Prop}
    (hskip : ∀ b s', b ≤ k → s'.At m framed F b →
      Ends Q (fun e s' => E (.io e) s') (skip (k - b) s')) : Ends Q E (seek k s) := by
  obtain ⟨⟨-, -, ⟨header, rest, hheader⟩, -⟩, hle⟩ := h.leads_base hF k
  obtain ⟨s', hat, hseek⟩ := h.seek_eq_at k
  rw [hseek, ends_bind, ends_liftIo]
  refine hat.ends_fill.mono ?_ fun e s' he => absurd hheader (he.1.no_header _ _)
  rintro b s' (⟨-, hat', -⟩ | ⟨-, hno, -⟩)
  · rw [ends_liftIo]
    exact hskip _ _ hle hat'
  · exact absurd hheader (hno.no_header _ _)

/-- **Every offset of the contents can be reached.** -/
theorem Anchored.seek_of_le (h : s.Anchored m framed F) (hF : F.Opens)
    (hk : k ≤ F.contents.bytes.length) : ∃ s', seek k s = .ok () s' ∧ s'.At m framed F k := by
  have hseek : Ends (fun _ s' => s'.At m framed F k) (fun _ _ => False) (seek k s) := by
    refine h.ends_seek hF fun b s' hb hat => ?_
    obtain ⟨s'', hrun, hat'⟩ := hat.skip_of_le (n := k - b) (by omega)
    rw [hrun, ends_ok]
    rwa [Nat.add_sub_cancel' hb] at hat'
  obtain ⟨_, s', hrun, hat⟩ := hseek.exists_ok
  exact ⟨s', hrun, hat⟩

/-- No offset behind the contents can be reached. -/
theorem Anchored.ends_seek_of_lt (h : s.Anchored m framed F) (hF : F.Opens)
    (hk : F.contents.bytes.length < k) :
    Ends (fun _ _ => False) (fun e s' => ∃ e', e = .io e' ∧ s'.Short m framed F e')
      (seek k s) := by
  refine h.ends_seek hF fun b s' hb hat => ?_
  refine (hat.ends_skip_of_lt (by omega)).mono (fun _ _ => id) fun e s' he => ⟨e, rfl, he⟩

end LogicalStream

end WellLog
