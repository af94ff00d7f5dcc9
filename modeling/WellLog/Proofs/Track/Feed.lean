import WellLog.Proofs.Medium
import WellLog.Track
/-!
# What a track delivers

What a track delivers up to its next stop is a function of the medium: the `Feed`, which has the
bytes and the way they end.  Tape marks are followed by `Medium.feedFrom`, in the way in which
reading follows them; how many bytes each read asks for plays no part in it.

* `Track.Delivers m framed F t` : the track `t` on the medium `m` delivers the feed `F` from now on.
* `Track.read_supplies`, `Track.ends_read_of_nil` : reading takes the bytes of the feed, and ends as
  the feed ends.
* `Track.ends_moveTo` : **what a track delivers after a move depends on the place only**; it is
  `Medium.feedAt`, whatever happened on the track before.
* `Track.Delivers.feedAt_place_of_open` : the place of a track leads to exactly what is ahead of it.
-/

namespace WellLog

/-- How a feed ends. -/
inductive Ending where
  /-- The track stops, and can be taken up at `place`. -/
  | stopped (stop : Stop) (place : Place)
  /-- Reading fails. -/
  | failed (error : IoError)
  deriving DecidableEq

/-- What a track delivers. -/
structure Feed where
  /-- The bytes. -/
  bytes : List UInt8
  /-- How they end. -/
  ending : Ending
  deriving DecidableEq

namespace Medium

variable {m : Medium}

/-! ### Feeds -/

/-- The tape mark at an offset, or nothing exactly at the end. -/
def markAt (m : Medium) (offset : Nat) : Except IoError (Option TapeMark) :=
  let bytes := (m.bytesFrom offset).take TapeMark.size
  if bytes.length = TapeMark.size then .ok (some (.ofBytes bytes))
  else
    match m.failure (offset + bytes.length) with
    | some e => .error e
    | none => if bytes.length = 0 then .ok none else .error (.tapeMarkCut bytes.length)

/-- How a feed ends in front of the bytes at `position`, which are not there. -/
def endingAt (m : Medium) (position : Nat) (place : Place) : Ending :=
  match m.failure position with
  | some e => .failed e
  | none => .stopped .mediumEnd place

/-- The feed in a tape record, with `next` behind it. -/
def throughRecord (m : Medium) (s : TapeRecord) (next : Feed) : Feed :=
  let bytes := (m.bytesFrom s.tell).take s.remaining
  if bytes.length = s.remaining then ⟨bytes ++ next.bytes, next.ending⟩
  else ⟨bytes, m.endingAt (s.tell + bytes.length) ⟨s.start, s.consumed + bytes.length⟩⟩

/-- The feed from the tape mark at an offset. -/
def feedFrom (m : Medium) (offset : Nat) : Feed :=
  match m.markAt offset with
  | .error e => ⟨[], .failed e⟩
  | .ok none => ⟨[], .stopped .mediumEnd (.start offset)⟩
  | .ok (some k) =>
    if _fits : k.Fits offset then
      if k.IsFileMark then ⟨[], .stopped .fileMark (.start k.next.toNat)⟩
      else m.throughRecord ⟨offset, k.next.toNat, 0⟩ (feedFrom m k.next.toNat)
    else ⟨[], .failed (.malformed (k.misfit offset))⟩
termination_by UInt32.size - offset
decreasing_by
  have := _fits.next
  have := k.next.toNat_lt
  simp only [TapeMark.size, UInt32.size] at *
  omega

/-- The feed in a tape record. -/
def recordFeed (m : Medium) (s : TapeRecord) : Feed := m.throughRecord s (m.feedFrom s.next)

/-- The feed where every byte is data. -/
def plainFeed (m : Medium) (position : Nat) : Feed :=
  let bytes := m.bytesFrom position
  ⟨bytes, m.endingAt (position + bytes.length) (.start (position + bytes.length))⟩

/-- The feed of a track that moves to a place. -/
def feedAt (m : Medium) (framed : Bool) (place : Place) : Except FormatError Feed :=
  if framed then
    match m.markAt place.offset with
    | .error e => .error (.io e)
    | .ok none => .ok ⟨[], .stopped .mediumEnd (.start place.offset)⟩
    | .ok (some k) =>
      if k.Fits place.offset then
        if k.IsFileMark then .ok ⟨[], .stopped .fileMark (.start k.next.toNat)⟩
        else if k.dataLength place.offset < place.skip then
          .error (.defect (.segmentOverrun place.offset place.skip (k.dataLength place.offset)))
        else .ok (m.recordFeed ⟨place.offset, k.next.toNat, place.skip⟩)
      else .error (.defect (k.misfit place.offset))
  else .ok (m.plainFeed (place.offset + place.skip))

/-- What a place can lead to, on a plain medium or a tape image. -/
inductive Opening (m : Medium) (p : Place) : Bool → Feed → Prop where
  /-- Every byte is data. -/
  | plain : Opening m p false (m.plainFeed (p.offset + p.skip))
  /-- There is nothing. -/
  | nothing (mark : m.markAt p.offset = .ok none) :
    Opening m p true ⟨[], .stopped .mediumEnd (.start p.offset)⟩
  /-- A file mark. -/
  | fileMark (k : TapeMark) (mark : m.markAt p.offset = .ok (some k)) (fits : k.Fits p.offset) :
    Opening m p true ⟨[], .stopped .fileMark (.start k.next.toNat)⟩
  /-- A tape record, in which no more is skipped than there is. -/
  | record (k : TapeMark) (mark : m.markAt p.offset = .ok (some k)) (fits : k.Fits p.offset)
    (tell_le : p.offset + TapeMark.size + p.skip ≤ k.next.toNat) :
    Opening m p true (m.recordFeed ⟨p.offset, k.next.toNat, p.skip⟩)

theorem opening_of_feedAt {framed : Bool} {p : Place} {F : Feed} (h : m.feedAt framed p = .ok F) :
    m.Opening p framed F := by
  cases framed with
  | false =>
    cases h
    exact .plain
  | true =>
    simp only [feedAt, if_true] at h
    split at h
    · cases h
    · cases h
      exact .nothing ‹_›
    · rename_i k hmark
      split at h
      · rename_i hfits
        split at h
        · cases h
          exact .fileMark k hmark hfits
        · split at h
          · cases h
          · rename_i hskip
            have hnext := hfits.next
            cases h
            refine .record k hmark hfits ?_
            simp only [TapeMark.dataLength] at hskip
            omega
      · cases h

theorem throughRecord_of_remaining_eq_zero {s : TapeRecord} (h : s.remaining = 0) (next : Feed) :
    m.throughRecord s next = next := by
  simp [throughRecord, h]

/-- A record whose first bytes are read. -/
theorem throughRecord_consume {s : TapeRecord} {k : Nat}
    (hk : k ≤ ((m.bytesFrom s.tell).take s.remaining).length) (next : Feed) :
    m.throughRecord { s with consumed := s.consumed + k } next =
      ⟨(m.throughRecord s next).bytes.drop k, (m.throughRecord s next).ending⟩ := by
  rw [List.length_take] at hk
  have hkr : k ≤ s.remaining := by omega
  have htell : ({ s with consumed := s.consumed + k } : TapeRecord).tell = s.tell + k := by
    simp only [TapeRecord.tell]; omega
  have hrem : ({ s with consumed := s.consumed + k } : TapeRecord).remaining = s.remaining - k := by
    simp only [TapeRecord.remaining, htell]; omega
  have hbytes : (m.bytesFrom (s.tell + k)).take (s.remaining - k) =
      ((m.bytesFrom s.tell).take s.remaining).drop k := by
    rw [bytesFrom_add, List.drop_take]
  have hlen : (((m.bytesFrom s.tell).take s.remaining).drop k).length =
      ((m.bytesFrom s.tell).take s.remaining).length - k := List.length_drop
  have hle : k ≤ ((m.bytesFrom s.tell).take s.remaining).length := by
    rw [List.length_take]; omega
  simp only [throughRecord, htell, hrem, hbytes, hlen]
  -- `k` bytes less of a whole record are a whole record, and of a cut one a cut one
  by_cases hfull : ((m.bytesFrom s.tell).take s.remaining).length = s.remaining
  · rw [if_pos hfull, if_pos (by omega)]
    simp only [List.drop_append_of_le_length hle]
  · rw [if_neg hfull, if_neg (by omega)]
    have hadd : ∀ a, a + k + (((m.bytesFrom s.tell).take s.remaining).length - k) =
        a + ((m.bytesFrom s.tell).take s.remaining).length := by
      intro a
      omega
    rw [hadd, hadd]

theorem feedFrom_of_error {o : Nat} {e : IoError} (h : m.markAt o = .error e) :
    m.feedFrom o = ⟨[], .failed e⟩ := by
  rw [feedFrom, h]

theorem feedFrom_of_none {o : Nat} (h : m.markAt o = .ok none) :
    m.feedFrom o = ⟨[], .stopped .mediumEnd (.start o)⟩ := by
  rw [feedFrom, h]

theorem feedFrom_of_misfit {o : Nat} {k : TapeMark} (h : m.markAt o = .ok (some k))
    (hk : ¬ k.Fits o) : m.feedFrom o = ⟨[], .failed (.malformed (k.misfit o))⟩ := by
  rw [feedFrom, h]
  simp only [dif_neg hk]

theorem feedFrom_of_fileMark {o : Nat} {k : TapeMark} (h : m.markAt o = .ok (some k))
    (hk : k.Fits o) (hf : k.IsFileMark) :
    m.feedFrom o = ⟨[], .stopped .fileMark (.start k.next.toNat)⟩ := by
  rw [feedFrom, h]
  simp only [dif_pos hk, if_pos hf]

theorem feedFrom_of_record {o : Nat} {k : TapeMark} (h : m.markAt o = .ok (some k))
    (hk : k.Fits o) (hf : ¬ k.IsFileMark) :
    m.feedFrom o = m.recordFeed ⟨o, k.next.toNat, 0⟩ := by
  rw [feedFrom, h]
  simp only [dif_pos hk, if_neg hf]
  rfl

/-- Without faults, the feed of a plain medium ends where the image does. -/
theorem plainFeed_of_faultless (h : m.manner.fault = none) {p : Nat} (hp : p ≤ m.bytes.size) :
    m.plainFeed p = ⟨m.bytes.toList.drop p, .stopped .mediumEnd (.start m.bytes.size)⟩ := by
  have hend : p + (m.bytes.toList.drop p).length = m.bytes.size := by
    rw [List.length_drop, Array.length_toList]
    omega
  rw [plainFeed, bytesFrom_of_faultless h, hend, endingAt, failure_of_faultless h]

/-- Without faults, a feed in a tape record fails only where the feed behind the record does. -/
theorem ending_of_throughRecord (h : m.manner.fault = none) {s : TapeRecord} {next : Feed}
    {e : IoError} (he : (m.throughRecord s next).ending = .failed e) : next.ending = .failed e := by
  simp only [throughRecord] at he
  split at he
  · exact he
  · rw [endingAt, failure_of_faultless h] at he
    cases he

/-- Without faults, only a cut mark cannot be read. -/
theorem markAt_of_faultless (h : m.manner.fault = none) (offset : Nat) :
    (∃ found, m.markAt offset = .ok found) ∨ ∃ n, m.markAt offset = .error (.tapeMarkCut n) := by
  simp only [markAt, failure_of_faultless h]
  split
  · exact .inl ⟨_, rfl⟩
  · split
    · exact .inl ⟨none, rfl⟩
    · exact .inr ⟨_, rfl⟩

/-- Without faults, nothing but the bytes keeps a feed from being read. -/
theorem isStructural_of_feedFrom (h : m.manner.fault = none) {o : Nat} {e : IoError}
    (he : (m.feedFrom o).ending = .failed e) : (FormatError.io e).isStructural = true := by
  fun_induction feedFrom m o with
  | case1 o x hmark =>
    obtain ⟨found, hfound⟩ | ⟨n, hcut⟩ := markAt_of_faultless h o
    · rw [hfound] at hmark
      cases hmark
    · rw [hcut] at hmark
      cases hmark
      cases he
      rfl
  | case2 | case3 => cases he
  | case4 o k hmark hfits hk ih => exact ih (ending_of_throughRecord h he)
  | case5 =>
    cases he
    rfl

/-- Without faults, nothing but the bytes keeps a track from being read. -/
theorem isStructural_of_feedAt (h : m.manner.fault = none) {framed : Bool} {p : Place} {F : Feed}
    (hF : m.feedAt framed p = .ok F) {e : IoError} (he : F.ending = .failed e) :
    (FormatError.io e).isStructural = true := by
  cases opening_of_feedAt hF with
  | plain =>
    rw [plainFeed, endingAt, failure_of_faultless h] at he
    cases he
  | nothing _ => cases he
  | fileMark k _ _ => cases he
  | record k _ _ _ => exact isStructural_of_feedFrom h (ending_of_throughRecord h he)

/-! ### Feeds of the same image -/

section

variable {m' : Medium} (hbytes : m'.bytesFrom = m.bytesFrom) (hfailure : m'.failure = m.failure)
include hbytes hfailure

theorem markAt_congr : m'.markAt = m.markAt := by
  funext o
  simp only [markAt, hbytes, hfailure]

theorem throughRecord_congr : m'.throughRecord = m.throughRecord := by
  funext s next
  simp only [throughRecord, endingAt, hbytes, hfailure]

theorem feedFrom_congr : m'.feedFrom = m.feedFrom := by
  funext o
  have hmark := markAt_congr hbytes hfailure
  fun_induction feedFrom m o with
  | case1 o e h => exact feedFrom_of_error (hmark ▸ h)
  | case2 o h => exact feedFrom_of_none (hmark ▸ h)
  | case3 o k h hfits hk => exact feedFrom_of_fileMark (hmark ▸ h) hfits hk
  | case4 o k h hfits hk ih =>
    rw [feedFrom_of_record (hmark ▸ h) hfits hk, recordFeed, ih,
      throughRecord_congr hbytes hfailure]
  | case5 o k h hmisfit => exact feedFrom_of_misfit (hmark ▸ h) hmisfit

/-- Feeds depend on what can be read, and not on the manner of reading. -/
theorem feedAt_congr : m'.feedAt = m.feedAt := by
  funext framed p
  simp only [feedAt, recordFeed, plainFeed, endingAt, hbytes, hfailure,
    markAt_congr hbytes hfailure, throughRecord_congr hbytes hfailure,
    feedFrom_congr hbytes hfailure]

end

/-- Without faults, they depend on the image. -/
theorem feedAt_of_faultless (h : m.manner.fault = none) : m.feedAt = (ofBytes m.bytes).feedAt := by
  refine feedAt_congr ?_ ?_
  · funext p
    rw [bytesFrom_of_faultless h, bytesFrom_of_faultless rfl]
    rfl
  · funext p
    rw [failure_of_faultless h, failure_of_faultless rfl]

/-! ### No feed is longer than the medium -/

theorem length_throughRecord_le {s : TapeRecord} {next : Feed}
    (h : next.bytes.length ≤ m.readable - s.next) (hs : s.tell ≤ s.next) :
    (m.throughRecord s next).bytes.length ≤ m.readable - s.tell := by
  simp only [throughRecord]
  split
  · rename_i hlen
    simp only [List.length_take, length_bytesFrom, List.length_append, TapeRecord.remaining] at *
    omega
  · simp only [List.length_take, length_bytesFrom]
    omega

theorem length_feedFrom_le (m : Medium) (o : Nat) :
    (m.feedFrom o).bytes.length ≤ m.readable - o := by
  fun_induction feedFrom m o with
  | case4 o k hmark hfits hk ih =>
    have hnext := hfits.next
    refine Nat.le_trans (length_throughRecord_le ih ?_) ?_
    · simp only [TapeRecord.tell]
      omega
    · simp only [TapeRecord.tell]
      omega
  | _ => exact Nat.zero_le _

theorem length_feedAt_le {framed : Bool} {p : Place} {F : Feed} (h : m.feedAt framed p = .ok F) :
    F.bytes.length ≤ m.bytes.size := by
  have hsize := m.readable_le_size
  cases opening_of_feedAt h with
  | plain =>
    simp only [plainFeed, length_bytesFrom]
    omega
  | nothing _ => exact Nat.zero_le _
  | fileMark k _ _ => exact Nat.zero_le _
  | record k _ _ htell =>
    exact Nat.le_trans (length_throughRecord_le (m.length_feedFrom_le _) htell)
      (Nat.le_trans (Nat.sub_le _ _) hsize)

end Medium

namespace TapeMark

variable {m : Medium} {p : Nat} {r : Reader}

/-- Reading a tape mark finds what the medium has there. -/
theorem ends_read (h : r.At m p) :
    Ends (fun found r' => m.markAt p = .ok found ∧ r'.medium = m ∧
        (found.isSome → r'.position = p + size))
      (fun e r' => m.markAt p = .error e ∧ r'.medium = m) (read r) := by
  unfold read
  rw [ends_bind]
  by_cases hn : size ≤ (m.bytesFrom p).length
  · obtain ⟨r', hg, hr'⟩ := Reader.gather_of_le h hn
    have hlen : ((m.bytesFrom p).take size).length = size := by
      rw [List.length_take]; omega
    have hmark : m.markAt p = .ok (some (.ofBytes ((m.bytesFrom p).take size))) := by
      simp only [Medium.markAt, if_pos hlen]
    rw [hg, ends_ok, if_neg (by rw [hlen]; decide), if_pos hlen, ends_pure]
    exact ⟨hmark, hr'.medium, fun _ => hr'.position⟩
  · have htake : (m.bytesFrom p).take size = m.bytesFrom p := List.take_of_length_le (by omega)
    refine (Reader.gather_of_lt h (Nat.lt_of_not_le hn)).mono ?_ ?_
    · rintro got r' ⟨rfl, hfail, hr'⟩
      have hmark : m.markAt p = if (m.bytesFrom p).length = 0 then .ok none
          else .error (.tapeMarkCut (m.bytesFrom p).length) := by
        simp only [Medium.markAt, htake, hfail]
        rw [if_neg (by omega)]
      by_cases hz : (m.bytesFrom p).length = 0
      · rw [if_pos hz, ends_pure]
        rw [if_pos hz] at hmark
        exact ⟨hmark, hr'.medium, nofun⟩
      · rw [if_neg hz, if_neg (by omega), ends_throw]
        rw [if_neg hz] at hmark
        exact ⟨hmark, hr'.medium⟩
    · rintro e r' ⟨hfail, hm⟩
      refine ⟨?_, hm⟩
      simp only [Medium.markAt, htake, hfail]
      rw [if_neg (by omega)]

end TapeMark

/-! ### Tracks -/

/-- The record is the one that its tape mark announces. -/
structure TapeRecord.On (m : Medium) (s : TapeRecord) : Prop where
  /-- The mark in front of the record. -/
  mark : ∃ k, m.markAt s.start = .ok (some k) ∧ k.Fits s.start ∧ ¬ k.IsFileMark ∧
    k.next.toNat = s.next
  /-- No more is read than there is. -/
  tell_le : s.tell ≤ s.next

theorem TapeRecord.On.tell_eq {m : Medium} {s : TapeRecord} (hs : s.On m)
    (h : s.remaining = 0) : s.tell = s.next := by
  have := hs.tell_le
  simp only [TapeRecord.remaining] at h
  omega

namespace Track

variable {m : Medium} {framed : Bool} {F : Feed} {t : Track}

/-- The track delivers the feed from now on. -/
inductive Delivers (m : Medium) : Bool → Feed → Track → Prop where
  /-- A track that has stopped delivers nothing. -/
  | stopped {t : Track} {stop : Stop} (medium : t.reader.medium = m) (stopped : t.stop = some stop) :
    Delivers m t.isFramed ⟨[], .stopped stop t.place⟩ t
  /-- A track on a plain medium. -/
  | plain {r : Reader} {p : Nat} (reader : r.At m p) :
    Delivers m false (m.plainFeed p) ⟨r, .plain p, none⟩
  /-- A track in a tape record. -/
  | tape {r : Reader} {s : TapeRecord} (reader : r.At m s.tell) (record : s.On m) :
    Delivers m true (m.recordFeed s) ⟨r, .tape s, none⟩

namespace Delivers

theorem medium (h : t.Delivers m framed F) : t.reader.medium = m := by
  cases h with
  | stopped medium _ => exact medium
  | plain reader => exact reader.medium
  | tape reader _ => exact reader.medium

theorem isFramed (h : t.Delivers m framed F) : t.isFramed = framed := by
  cases h <;> rfl

theorem stop_eq_none (h : t.Delivers m framed F) (hb : F.bytes ≠ []) : t.stop = none := by
  cases h with
  | stopped _ _ => exact absurd rfl hb
  | plain _ => rfl
  | tape _ _ => rfl

theorem eq_of_stop (h : t.Delivers m framed F) {stop : Stop} (hs : t.stop = some stop) :
    F = ⟨[], .stopped stop t.place⟩ := by
  cases h with
  | stopped _ hs' =>
    rw [hs, Option.some.injEq] at hs'
    rw [hs']
  | plain _ => cases hs
  | tape _ _ => cases hs

end Delivers

theorem place_of_spent {r : Reader} {s : TapeRecord} {stop : Option Stop} (h : s.next ≤ s.tell) :
    (⟨r, .tape s, stop⟩ : Track).place = .start s.next := if_pos h

theorem place_of_unspent {r : Reader} {s : TapeRecord} {stop : Option Stop} (h : s.tell < s.next) :
    (⟨r, .tape s, stop⟩ : Track).place = ⟨s.start, s.consumed⟩ := if_neg (Nat.not_le.2 h)

theorem delivers_of_stop {stop : Stop} {p : Place} (medium : t.reader.medium = m)
    (framed_eq : t.isFramed = framed) (stopped : t.stop = some stop) (place_eq : t.place = p) :
    t.Delivers m framed ⟨[], .stopped stop p⟩ := by
  subst framed_eq place_eq
  exact .stopped medium stopped

/-- Stepping over tape marks leaves the feed as it is.  It ends in a record with something left in
it, or where the feed ends. -/
theorem ends_toData {r : Reader} {s : TapeRecord} (hr : r.At m s.tell) (hs : s.On m) :
    Ends
      (fun found t => match found with
        | some s' => s'.remaining ≠ 0 ∧ s'.On m ∧ m.recordFeed s' = m.recordFeed s ∧
          ∃ r', r'.At m s'.tell ∧ t = ⟨r', .tape s', none⟩
        | none => t.Delivers m true (m.recordFeed s) ∧ t.stop ≠ none)
      (fun e t => m.recordFeed s = ⟨[], .failed e⟩ ∧ t.reader.medium = m ∧ t.isFramed = true)
      (toData r s) := by
  -- the recursion of `toData` is that of `feedFrom`: both go from mark to mark
  fun_induction toData r s with
  | case1 r s h => exact ⟨h, hs, rfl, r, hr, rfl⟩
  | case2 r s h e r' hread =>
    obtain ⟨hmark, hm⟩ := hread ▸ TapeMark.ends_read hr
    rw [hs.tell_eq (by omega)] at hmark
    refine ⟨?_, hm, rfl⟩
    rw [Medium.recordFeed, Medium.throughRecord_of_remaining_eq_zero (by omega),
      Medium.feedFrom_of_error hmark]
  | case3 r s h r' hread =>
    obtain ⟨hmark, hm, -⟩ := hread ▸ TapeMark.ends_read hr
    have htell := hs.tell_eq (by omega)
    rw [htell] at hmark
    refine ⟨?_, nofun⟩
    rw [Medium.recordFeed, Medium.throughRecord_of_remaining_eq_zero (by omega),
      Medium.feedFrom_of_none hmark]
    exact delivers_of_stop hm rfl rfl (place_of_spent (Nat.le_of_eq htell.symm))
  | case4 r s h k r' hread hfits hk =>
    obtain ⟨hmark, hm, -⟩ := hread ▸ TapeMark.ends_read hr
    rw [hs.tell_eq (by omega)] at hmark
    refine ⟨?_, nofun⟩
    rw [Medium.recordFeed, Medium.throughRecord_of_remaining_eq_zero (by omega),
      Medium.feedFrom_of_fileMark hmark hfits hk]
    refine delivers_of_stop hm rfl rfl (place_of_spent ?_)
    have := hfits.next
    simp only [TapeRecord.tell, TapeMark.dataLength]
    omega
  | case5 r s h k r' hread hfits hk ih =>
    obtain ⟨hmark, hm, hpos⟩ := hread ▸ TapeMark.ends_read hr
    have htell := hs.tell_eq (by omega)
    rw [htell] at hmark
    have hfeed : m.recordFeed s = m.recordFeed ⟨s.next, k.next.toNat, 0⟩ := by
      rw [Medium.recordFeed, Medium.throughRecord_of_remaining_eq_zero (by omega),
        Medium.feedFrom_of_record hmark hfits hk]
    rw [hfeed]
    refine ih ⟨hm, ?_⟩ ⟨⟨k, hmark, hfits, hk, rfl⟩, ?_⟩
    · rw [hpos rfl, htell]
      rfl
    · have := hfits.next
      simpa only [TapeRecord.tell, Nat.add_zero] using this
  | case6 r s h k r' hread hfits =>
    obtain ⟨hmark, hm, -⟩ := hread ▸ TapeMark.ends_read hr
    rw [hs.tell_eq (by omega)] at hmark
    refine ⟨?_, hm, rfl⟩
    rw [Medium.recordFeed, Medium.throughRecord_of_remaining_eq_zero (by omega),
      Medium.feedFrom_of_misfit hmark hfits]

/-- In a record with something left, a read takes bytes of this record, or finds that the medium
has none. -/
theorem ends_readRecord {r : Reader} {s : TapeRecord} (hr : r.At m s.tell)
    (hrem : s.remaining ≠ 0) {n : Nat} (hn : 0 < n) :
    Ends
      (fun got r' => got = [] ∧ (m.recordFeed s).bytes = [] ∧
          (m.recordFeed s).ending = .stopped .mediumEnd ⟨s.start, s.consumed⟩ ∧ r'.medium = m ∨
        got ≠ [] ∧ got.length ≤ n ∧ got.length ≤ s.remaining ∧ r'.At m (s.tell + got.length) ∧
          (m.recordFeed s).bytes = got ++ (m.recordFeed s).bytes.drop got.length ∧
          m.recordFeed { s with consumed := s.consumed + got.length } =
            ⟨(m.recordFeed s).bytes.drop got.length, (m.recordFeed s).ending⟩)
      (fun e r' => m.recordFeed s = ⟨[], .failed e⟩ ∧ r'.medium = m)
      (r.read (min n s.remaining)) := by
  by_cases hb : m.bytesFrom s.tell = []
  · -- the record goes on, the medium does not
    have hfeed : m.recordFeed s = ⟨[], m.endingAt s.tell ⟨s.start, s.consumed⟩⟩ := by
      simp only [Medium.recordFeed, Medium.throughRecord, hb, List.take_nil, List.length_nil,
        if_neg hrem.symm, Nat.add_zero]
    refine (Reader.read_of_bytesFrom_nil hr hb _).mono ?_ ?_
    · rintro got r' ⟨rfl, hfail, hr'⟩
      refine .inl ⟨rfl, ?_, ?_, hr'.medium⟩
      · rw [hfeed]
      · rw [hfeed, Medium.endingAt, hfail]
    · rintro e r' ⟨hfail, hr'⟩
      rw [hfeed, Medium.endingAt, hfail]
      exact ⟨rfl, hr'.medium⟩
  · -- a read does not leave the record, whether the record is whole or cut
    obtain ⟨k, r', hread, hk, hkn, hkl, hr'⟩ :=
      Reader.read_of_bytesFrom_ne_nil hr hb (n := min n s.remaining) (by omega)
    have hlen : ((m.bytesFrom s.tell).take k).length = k := by
      rw [List.length_take]
      omega
    have htake : (m.bytesFrom s.tell).take k = (m.recordFeed s).bytes.take k := by
      simp only [Medium.recordFeed, Medium.throughRecord]
      split
      · rw [List.take_append_of_le_length (by omega), List.take_take]
        congr 1
        omega
      · rw [List.take_take]
        congr 1
        omega
    rw [hread, ends_ok]
    refine .inr ⟨List.ne_nil_of_length_pos (by omega), by omega, by omega, by rwa [hlen], ?_, ?_⟩
    · rw [hlen, htake, List.take_append_drop]
    · rw [hlen]
      exact Medium.throughRecord_consume (by rw [List.length_take]; omega) _

theorem read_zero (t : Track) : read 0 t = .ok [] t := if_pos (.inl rfl)

theorem read_plain {n : Nat} (hn : 0 < n) (r : Reader) (p : Nat) :
    read n ⟨r, .plain p, none⟩ = match r.read n with
      | .error e r' => .error e ⟨r', .plain p, none⟩
      | .ok got r' => .ok got ⟨r', .plain (p + got.length),
          if got.isEmpty then some .mediumEnd else none⟩ := by
  have hgo : ¬ (n = 0 ∨ (none : Option Stop) ≠ none) := by simp; omega
  refine (if_neg hgo).trans ?_
  cases r.read n <;> rfl

theorem read_tape {n : Nat} (hn : 0 < n) (r : Reader) (s : TapeRecord) :
    read n ⟨r, .tape s, none⟩ = match toData r s with
      | .error e t => .error e t
      | .ok none t => .ok [] t
      | .ok (some s) t => match t.reader.read (min n s.remaining) with
        | .error e reader => .error e { t with reader }
        | .ok got reader =>
          if got.isEmpty then .ok [] { t with reader, stop := some .mediumEnd }
          else
            .ok got { t with reader, framing := .tape { s with consumed := s.consumed + got.length }} := by
  have hgo : ¬ (n = 0 ∨ (none : Option Stop) ≠ none) := by simp; omega
  exact (if_neg hgo).trans rfl

/-- A record that is found is the one at hand, and has a byte left. -/
theorem ends_toData_found (r : Reader) (s : TapeRecord) :
    Ends (fun found t => ∀ s', found = some s' → s'.remaining ≠ 0 ∧ ∃ r', t = ⟨r', .tape s', none⟩)
      (fun _ _ => True) (toData r s) := by
  fun_induction toData r s with
  | case1 r s hrem =>
    rintro s' ⟨⟩
    exact ⟨hrem, r, rfl⟩
  | case3 | case4 => exact nofun
  | case2 | case6 => exact True.intro
  | case5 r s hrem k r' hread hfits hk ih => exact ih

/-- A read leaves the track as it is, or reads on a plain medium or in a tape image. -/
theorem read_cases (n : Nat) (t : Track) :
    read n t = .ok [] t ∨ 0 < n ∧ ∃ r, (∃ p, t = ⟨r, .plain p, none⟩) ∨ ∃ s, t = ⟨r, .tape s, none⟩ := by
  by_cases hgo : n = 0 ∨ t.stop ≠ none
  · exact .inl (if_pos hgo)
  · obtain ⟨hn, hstop⟩ := not_or.1 hgo
    obtain ⟨r, framing, stop⟩ := t
    obtain rfl : stop = none := not_not.1 hstop
    refine .inr ⟨Nat.pos_of_ne_zero hn, r, ?_⟩
    cases framing with
    | plain p => exact .inl ⟨p, rfl⟩
    | tape s => exact .inr ⟨s, rfl⟩

section

variable {Q : List UInt8 → Track → Prop} {E : IoError → Track → Prop} {r : Reader} {n : Nat}
  (hn : 0 < n)
include hn

/-- **A read on a plain medium** is one of the reader. -/
theorem ends_read_plain {p : Nat}
    (hread : Ends
      (fun got r' => Q got ⟨r', .plain (p + got.length), if got.isEmpty then some .mediumEnd else none⟩)
      (fun e r' => E e ⟨r', .plain p, none⟩) (r.read n)) :
    Ends Q E (read n ⟨r, .plain p, none⟩) := by
  rw [read_plain hn]
  cases hrun : r.read n with
  | error e r' =>
    rw [hrun] at hread
    exact hread
  | ok got r' =>
    rw [hrun] at hread
    exact hread

/-- **A read in a tape image** finds a record and is one of the reader in this record.  `P` says what
is known of the record and the reader in between. -/
theorem ends_read_tape {s : TapeRecord} {P : TapeRecord → Reader → Prop}
    (hsteps : Ends
      (fun found t => match found with
        | none => Q [] t
        | some s' => ∀ r', t = ⟨r', .tape s', none⟩ → P s' r')
      E (toData r s))
    (hread : ∀ s' r', s'.remaining ≠ 0 → P s' r' → Ends
      (fun got r'' => (got = [] → Q [] ⟨r'', .tape s', some .mediumEnd⟩) ∧
        (got ≠ [] → Q got ⟨r'', .tape { s' with consumed := s'.consumed + got.length }, none⟩))
      (fun e r'' => E e ⟨r'', .tape s', none⟩) (r'.read (min n s'.remaining))) :
    Ends Q E (read n ⟨r, .tape s, none⟩) := by
  have hfound := ends_toData_found r s
  rw [read_tape hn]
  cases hto : toData r s with
  | error e t =>
    rw [hto] at hsteps
    exact hsteps
  | ok found t =>
    rw [hto, ends_ok] at hsteps hfound
    cases found with
    | none => exact hsteps
    | some s' =>
      obtain ⟨hrem, r', rfl⟩ := hfound s' rfl
      have hrun := hread s' r' hrem (hsteps r' rfl)
      simp only
      cases hr : r'.read (min n s'.remaining) with
      | error e r'' =>
        rw [hr] at hrun
        exact hrun
      | ok got r'' =>
        rw [hr, ends_ok] at hrun
        simp only
        by_cases hgot : got = []
        · subst hgot
          exact hrun.1 rfl
        · rw [if_neg (by simpa using hgot)]
          exact hrun.2 hgot

end

/-- What one read of a track with the feed `F` leads to: it takes bytes of the feed, or finds the
end of it. -/
def ReadsFrom (m : Medium) (framed : Bool) (F : Feed) (n : Nat)
    (r : EStateM.Result IoError Track (List UInt8)) : Prop :=
  Ends
    (fun got t => (got ≠ [] ∨ F.bytes = [] ∧ ∃ stop, t.stop = some stop) ∧ got.length ≤ n ∧
      F.bytes = got ++ F.bytes.drop got.length ∧
      t.Delivers m framed ⟨F.bytes.drop got.length, F.ending⟩)
    (fun e t => F = ⟨[], .failed e⟩ ∧ t.reader.medium = m ∧ t.isFramed = framed) r

theorem readsFrom_plain {r : Reader} {p n : Nat} (hr : r.At m p) (hn : 0 < n) :
    ReadsFrom m false (m.plainFeed p) n (read n ⟨r, .plain p, none⟩) := by
  refine ends_read_plain hn ?_
  by_cases hb : m.bytesFrom p = []
  · have hfeed : m.plainFeed p = ⟨[], m.endingAt p (.start p)⟩ := by
      simp only [Medium.plainFeed, hb, List.length_nil, Nat.add_zero]
    rw [hfeed]
    refine (Reader.read_of_bytesFrom_nil hr hb n).mono ?_ ?_
    · rintro got r' ⟨rfl, hfail, hr'⟩
      rw [Medium.endingAt, hfail]
      exact ⟨.inr ⟨rfl, _, rfl⟩, Nat.zero_le _, rfl, delivers_of_stop hr'.medium rfl rfl rfl⟩
    · rintro e r' ⟨hfail, hr'⟩
      rw [Medium.endingAt, hfail]
      exact ⟨rfl, hr'.medium, rfl⟩
  · obtain ⟨k, r', hread, hk, hkn, hkl, hr'⟩ := Reader.read_of_bytesFrom_ne_nil hr hb hn
    have hlen : ((m.bytesFrom p).take k).length = k := by
      rw [List.length_take]
      omega
    have hne : (m.bytesFrom p).take k ≠ [] := List.ne_nil_of_length_pos (by omega)
    have hfeed : (⟨(m.plainFeed p).bytes.drop k, (m.plainFeed p).ending⟩ : Feed) =
        m.plainFeed (p + k) := by
      simp only [Medium.plainFeed, Medium.bytesFrom_add, List.length_drop]
      rw [show p + k + ((m.bytesFrom p).length - k) = p + (m.bytesFrom p).length by omega]
    rw [hread, ends_ok, hlen, hfeed, if_neg (by simpa using hne)]
    exact ⟨.inl hne, hkn, (List.take_append_drop k _).symm, .plain hr'⟩

theorem readsFrom_tape {r : Reader} {s : TapeRecord} {n : Nat} (hr : r.At m s.tell) (hs : s.On m)
    (hn : 0 < n) : ReadsFrom m true (m.recordFeed s) n (read n ⟨r, .tape s, none⟩) := by
  -- the steps over tape marks come first; they leave the feed as it is
  refine ends_read_tape hn (P := fun s' r' => s'.On m ∧ m.recordFeed s' = m.recordFeed s ∧
    r'.At m s'.tell) ((ends_toData hr hs).mono ?_ fun _ _ => id) ?_
  · rintro (_ | s') t hdata
    · obtain ⟨hd, hstop⟩ := hdata
      have hb : (m.recordFeed s).bytes = [] := by
        by_contra hb
        exact hstop (hd.stop_eq_none hb)
      exact ⟨.inr ⟨hb, Option.ne_none_iff_exists'.1 hstop⟩, Nat.zero_le _, rfl, hd⟩
    · obtain ⟨-, hs', hfeed, r', hr', rfl⟩ := hdata
      rintro _ ⟨⟩
      exact ⟨hs', hfeed, hr'⟩
  · rintro s' r' hrem ⟨hs', hfeed, hr'⟩
    have hrec := ends_readRecord hr' hrem hn
    rw [hfeed] at hrec
    refine hrec.mono ?_ fun e r'' he => ⟨he.1, he.2, rfl⟩
    rintro got r'' (⟨rfl, hb, hend, hm⟩ | ⟨hne, hle, hler, hr'', hpre, hrest⟩)
    · refine ⟨fun _ => ⟨.inr ⟨hb, _, rfl⟩, Nat.zero_le _, rfl, ?_⟩, fun hno => absurd rfl hno⟩
      rw [hb, hend]
      refine delivers_of_stop hm rfl rfl (place_of_unspent ?_)
      simp only [TapeRecord.remaining] at hrem
      omega
    · refine ⟨fun hno => absurd hno hne, fun _ => ⟨.inl hne, hle, hpre, ?_⟩⟩
      rw [← hrest]
      refine .tape ⟨hr''.medium, ?_⟩ ⟨hs'.mark, ?_⟩
      · rw [hr''.position]
        simp only [TapeRecord.tell]
        omega
      · have := hs'.tell_le
        simp only [TapeRecord.tell, TapeRecord.remaining] at this hler ⊢
        omega

/-- **One read of a track** takes bytes of the feed, or finds the end of it. -/
theorem Delivers.readsFrom (h : t.Delivers m framed F) {n : Nat} (hn : 0 < n) :
    ReadsFrom m framed F n (read n t) := by
  cases h with
  | @stopped t stop hm hstop =>
    have hrun : read n t = .ok [] t := if_pos (.inr (by rw [hstop]; exact nofun))
    rw [hrun]
    exact ⟨.inr ⟨rfl, stop, hstop⟩, Nat.zero_le _, rfl, .stopped hm hstop⟩
  | plain hr => exact readsFrom_plain hr hn
  | tape hr hs => exact readsFrom_tape hr hs hn

/-- Where `F` announces bytes, they are what reading delivers, in order. -/
theorem read_supplies (m : Medium) (framed : Bool) (ending : Ending) :
    Supplies read fun bytes t => t.Delivers m framed ⟨bytes, ending⟩ := by
  intro n t bytes ht hne hn
  have h := ht.readsFrom hn
  cases hread : read n t with
  | error e t' =>
    obtain ⟨hF, -⟩ := hread ▸ h
    cases hF
    exact absurd rfl hne
  | ok got t' =>
    obtain ⟨hgot, hle, hpre, hd⟩ := hread ▸ h
    exact ⟨got, _, t', rfl, hgot.resolve_right fun h => hne h.1, hle, hpre, hd⟩

/-- Behind the last byte, reading ends as the feed does. -/
theorem Delivers.ends_read_of_nil {ending : Ending} (h : t.Delivers m framed ⟨[], ending⟩) {n : Nat}
    (hn : 0 < n) :
    Ends
      (fun got t' => got = [] ∧ ∃ stop place, ending = .stopped stop place ∧ t'.stop = some stop ∧
        t'.place = place ∧ t'.Delivers m framed ⟨[], ending⟩)
      (fun e t' => ending = .failed e ∧ t'.reader.medium = m ∧ t'.isFramed = framed)
      (read n t) := by
  refine (h.readsFrom hn).mono ?_ ?_
  · rintro got t' ⟨hgot, -, hpre, hd⟩
    obtain ⟨rfl, -⟩ := List.append_eq_nil_iff.1 hpre.symm
    obtain ⟨-, stop, hstop⟩ := hgot.resolve_left fun h => h rfl
    exact ⟨rfl, stop, t'.place, congrArg Feed.ending (hd.eq_of_stop hstop), hstop, rfl, hd⟩
  · rintro e t' ⟨hF, hm⟩
    exact ⟨congrArg Feed.ending hF, hm⟩

/-- Gathering takes bytes of the feed. -/
theorem Delivers.gather_of_le (h : t.Delivers m framed F) {n : Nat} (hn : n ≤ F.bytes.length) :
    ∃ t', gather read n t = .ok (F.bytes.take n) t' ∧
      t'.Delivers m framed ⟨F.bytes.drop n, F.ending⟩ := by
  obtain ⟨got, t', hg, rfl, hd⟩ :=
    (WellLog.gather_of_le (read_supplies m framed F.ending) n t F.bytes h hn).exists_ok
  exact ⟨t', hg, hd⟩

/-- Gathering more than the feed has takes all of it, if the track stops, and fails otherwise. -/
theorem Delivers.gather_of_lt (h : t.Delivers m framed F) {n : Nat} (hn : F.bytes.length < n) :
    Ends
      (fun got t' => got = F.bytes ∧ ∃ stop place, F.ending = .stopped stop place ∧
        t'.stop = some stop ∧ t'.place = place ∧ t'.Delivers m framed ⟨[], F.ending⟩)
      (fun e t' => F.ending = .failed e ∧ t'.reader.medium = m ∧ t'.isFramed = framed)
      (gather read n t) :=
  WellLog.gather_of_lt (read_supplies m framed F.ending)
    (fun _ _ hk ht => Delivers.ends_read_of_nil ht hk) n t F.bytes h hn

/-- What a move to a place comes to on a tape image.  The mark at the place decides, and of the
record `s` that the track was in, only the count is left. -/
inductive MovesTo (r : Reader) (s : TapeRecord) (p : Place) :
    EStateM.Result FormatError Track Unit → Prop where
  /-- The mark cannot be read. -/
  | unread {e : IoError} {r' : Reader} (mark : TapeMark.read (r.seek p.offset) = .error e r') :
    MovesTo r s p (.error (.io e) ⟨r', .tape s, none⟩)
  /-- There is no mark. -/
  | mediumEnd {r' : Reader} (mark : TapeMark.read (r.seek p.offset) = .ok none r') :
    MovesTo r s p (.ok () ⟨r', .tape ⟨p.offset, p.offset, 0⟩, some .mediumEnd⟩)
  /-- The mark is not one for this offset. -/
  | misfit {k : TapeMark} {r' : Reader} (mark : TapeMark.read (r.seek p.offset) = .ok (some k) r')
    (misfit : ¬ k.Fits p.offset) :
    MovesTo r s p (.error (.defect (k.misfit p.offset)) ⟨r', .tape s, none⟩)
  /-- It is a file mark. -/
  | fileMark {k : TapeMark} {r' : Reader} (mark : TapeMark.read (r.seek p.offset) = .ok (some k) r')
    (fits : k.Fits p.offset) (file : k.IsFileMark) :
    MovesTo r s p
      (.ok () ⟨r', .tape ⟨p.offset, k.next.toNat, k.dataLength p.offset⟩, some .fileMark⟩)
  /-- The record behind it is too short for the bytes to skip. -/
  | overrun {k : TapeMark} {r' : Reader} (mark : TapeMark.read (r.seek p.offset) = .ok (some k) r')
    (fits : k.Fits p.offset) (record : ¬ k.IsFileMark) (short : k.dataLength p.offset < p.skip) :
    MovesTo r s p
      (.error (.defect (.segmentOverrun p.offset p.skip (k.dataLength p.offset)))
        ⟨r', .tape ⟨p.offset, k.next.toNat, s.consumed⟩, none⟩)
  /-- The bytes to skip are in the record behind it. -/
  | record {k : TapeMark} {r' : Reader} (mark : TapeMark.read (r.seek p.offset) = .ok (some k) r')
    (fits : k.Fits p.offset) (record : ¬ k.IsFileMark) (skip_le : p.skip ≤ k.dataLength p.offset) :
    MovesTo r s p
      (.ok () ⟨r'.seek (r'.position + p.skip), .tape ⟨p.offset, k.next.toNat, p.skip⟩, none⟩)

theorem movesTo (r : Reader) (s : TapeRecord) (stop : Option Stop) (p : Place) :
    MovesTo r s p (moveTo p ⟨r, .tape s, stop⟩) := by
  unfold moveTo
  rw [bind_modify, bind_get]
  simp only
  rw [bind_get]
  cases hread : TapeMark.read (r.seek p.offset) with
  | error e r' => exact .unread hread
  | ok found r' =>
    cases found with
    | none => exact .mediumEnd hread
    | some k =>
      simp only
      rw [bind_modify]
      by_cases hfits : k.Fits p.offset
      · rw [if_pos hfits]
        by_cases hk : k.IsFileMark
        · rw [if_pos hk]
          exact .fileMark hread hfits hk
        · rw [if_neg hk]
          by_cases hskip : k.dataLength p.offset < p.skip
          · rw [if_pos hskip]
            exact .overrun hread hfits hk hskip
          · rw [if_neg hskip]
            exact .record hread hfits hk (Nat.le_of_not_lt hskip)
      · rw [if_neg hfits]
        exact .misfit hread hfits

/-- **Where a move leads to depends on the place only.** -/
theorem ends_moveTo (hm : t.reader.medium = m) (hf : t.isFramed = framed) (p : Place) :
    Ends (fun _ t' => ∃ F, m.feedAt framed p = .ok F ∧ t'.Delivers m framed F)
      (fun e t' => m.feedAt framed p = .error e ∧ t'.reader.medium = m ∧ t'.isFramed = framed)
      (moveTo p t) := by
  obtain ⟨r, framing, stop⟩ := t
  subst hf hm
  cases framing with
  | plain q => exact ⟨_, rfl, .plain ⟨rfl, rfl⟩⟩
  | tape s =>
    have hmark := TapeMark.ends_read (Reader.At.seek ⟨rfl, rfl⟩ p.offset : (r.seek p.offset).At _ _)
    have hmove := movesTo r s stop p
    generalize moveTo p ⟨r, .tape s, stop⟩ = result at hmove ⊢
    simp only [isFramed, Medium.feedAt, if_true]
    -- `moveTo` and `feedAt` ask the same questions in the same order
    cases hmove with
    | unread mark =>
      obtain ⟨hmark, hm⟩ := mark ▸ hmark
      simp only [hmark]
      exact ⟨rfl, hm, rfl⟩
    | mediumEnd mark =>
      obtain ⟨hmark, hm, -⟩ := mark ▸ hmark
      simp only [hmark]
      refine ⟨_, rfl, delivers_of_stop hm rfl rfl (place_of_spent ?_)⟩
      simp only [TapeRecord.tell]
      omega
    | misfit mark hmisfit =>
      obtain ⟨hmark, hm, -⟩ := mark ▸ hmark
      simp only [hmark, if_neg hmisfit]
      exact ⟨rfl, hm, rfl⟩
    | fileMark mark hfits hk =>
      obtain ⟨hmark, hm, -⟩ := mark ▸ hmark
      have hnext := hfits.next
      simp only [hmark, if_pos hfits, if_pos hk]
      refine ⟨_, rfl, delivers_of_stop hm rfl rfl (place_of_spent ?_)⟩
      simp only [TapeRecord.tell, TapeMark.dataLength]
      omega
    | overrun mark hfits hk hshort =>
      obtain ⟨hmark, hm, -⟩ := mark ▸ hmark
      simp only [hmark, if_pos hfits, if_neg hk, if_pos hshort]
      exact ⟨rfl, hm, rfl⟩
    | record mark hfits hk hskip =>
      obtain ⟨hmark, hm, hpos⟩ := mark ▸ hmark
      have hnext := hfits.next
      simp only [hmark, if_pos hfits, if_neg hk, if_neg (Nat.not_lt.2 hskip)]
      refine ⟨_, rfl, .tape ⟨hm, ?_⟩ ⟨⟨_, hmark, hfits, hk, rfl⟩, ?_⟩⟩
      · rw [Reader.seek, hpos rfl]
        rfl
      · simp only [TapeRecord.tell, TapeMark.dataLength] at hskip ⊢
        omega

/-- Where a mark fits, or nothing is left, a track can be taken up. -/
theorem feedAt_of_markAt {p : Place} (hp : p.skip = 0) {found : Option TapeMark}
    (h : m.markAt p.offset = .ok found) (hfits : ∀ k, found = some k → k.Fits p.offset) :
    m.feedAt true p = .ok (m.feedFrom p.offset) := by
  simp only [Medium.feedAt, if_true, h]
  cases found with
  | none => rw [Medium.feedFrom_of_none h]
  | some k =>
    have hk := hfits k rfl
    simp only
    rw [if_pos hk]
    by_cases hmark : k.IsFileMark
    · rw [if_pos hmark, Medium.feedFrom_of_fileMark h hk hmark]
    · rw [if_neg hmark, hp, if_neg (Nat.not_lt_zero _), Medium.feedFrom_of_record h hk hmark]

/-- A place with nothing to skip leads to the feed from its mark, or to the failure that this feed
is. -/
theorem feedAt_of_skip_eq_zero (m : Medium) {p : Place} (hp : p.skip = 0) :
    match m.feedAt true p with
    | .ok F => m.feedFrom p.offset = F
    | .error e => m.feedFrom p.offset = ⟨[], .failed e.toIo⟩ := by
  cases hmark : m.markAt p.offset with
  | error e =>
    simp only [Medium.feedAt, if_true, hmark]
    exact Medium.feedFrom_of_error hmark
  | ok found =>
    by_cases hfits : ∀ k, found = some k → k.Fits p.offset
    · rw [feedAt_of_markAt hp hmark hfits]
    · push Not at hfits
      obtain ⟨k, rfl, hmisfit⟩ := hfits
      simp only [Medium.feedAt, if_true, hmark]
      rw [if_neg hmisfit]
      exact Medium.feedFrom_of_misfit hmark hmisfit

/-- **The place of a track leads back to what is ahead of it**, unless it has stopped.  Where going
there fails, reading on fails in the same way. -/
theorem Delivers.feedAt_place_of_open (h : t.Delivers m framed F) (hopen : t.stop = none) :
    match m.feedAt framed t.place with
    | .ok G => F = G
    | .error e => F = ⟨[], .failed e.toIo⟩ := by
  cases h with
  | stopped _ hstop =>
    rw [hopen] at hstop
    cases hstop
  | plain _ => exact rfl
  | @tape r s _ hs =>
    by_cases hrem : s.remaining = 0
    · -- the record is used up, and the place is that of the next mark
      rw [place_of_spent (Nat.le_of_eq (hs.tell_eq hrem).symm), Medium.recordFeed,
        Medium.throughRecord_of_remaining_eq_zero hrem]
      exact feedAt_of_skip_eq_zero m rfl
    · obtain ⟨k, hmark, hfits, hk, hnext⟩ := hs.mark
      have htell := hs.tell_le
      have hlt : s.tell < s.next := by
        simp only [TapeRecord.remaining] at hrem
        omega
      have hskip : ¬ k.dataLength s.start < s.consumed := by
        simp only [TapeMark.dataLength, TapeRecord.tell] at htell ⊢
        omega
      rw [place_of_unspent hlt]
      simp only [Medium.feedAt, if_true, hmark]
      rw [if_pos hfits, if_neg hk, if_neg hskip, hnext]

/-- The place of a track with bytes ahead leads back to them. -/
theorem Delivers.feedAt_place (h : t.Delivers m framed F) (hb : F.bytes ≠ []) :
    m.feedAt framed t.place = .ok F := by
  have hplace := h.feedAt_place_of_open (h.stop_eq_none hb)
  cases hfeed : m.feedAt framed t.place with
  | ok G =>
    rw [hfeed] at hplace
    rw [hplace]
  | error e =>
    rw [hfeed] at hplace
    rw [hplace] at hb
    exact absurd rfl hb
/-- A move to the place of a track with bytes ahead, from anywhere on the medium, finds these
bytes. -/
theorem Delivers.moveTo_place (h : t.Delivers m framed F) (hb : F.bytes ≠ []) {t' : Track}
    (hm : t'.reader.medium = m) (hf : t'.isFramed = framed) :
    ∃ t'', moveTo t.place t' = .ok () t'' ∧ t''.Delivers m framed F := by
  have hmove := ends_moveTo hm hf t.place
  rw [h.feedAt_place hb] at hmove
  cases hrun : moveTo t.place t' with
  | ok u t'' =>
    obtain ⟨F', hF', hd⟩ := hrun ▸ hmove
    cases hF'
    exact ⟨t'', rfl, hd⟩
  | error e t'' =>
    obtain ⟨he, -⟩ := hrun ▸ hmove
    cases he

end Track

end WellLog
