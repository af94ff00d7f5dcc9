import WellLog.Image.Tape
import WellLog.Proofs.Track.Sections
/-!
# Tape images are read as they were written

The tape records between two file marks are one section, however the data is cut into records.

* `TapeMark.ofBytes_toBytes` : a tape mark is read back.
* `Image.runsTo_tape`, `Image.carries_tape` : **a tape image carries the data between its file marks**.
-/

namespace WellLog

namespace TapeMark

/-- The number in a word of a mark. -/
theorem toNat_word (a b c d : UInt8) : (UInt32.ofNat (littleEndian [a, b, c, d])).toNat =
    a.toNat + 256 * b.toNat + 65536 * c.toNat + 16777216 * d.toNat := by
  have ha := a.toNat_lt
  have hb := b.toNat_lt
  have hc := c.toNat_lt
  have hd := d.toNat_lt
  simp only [littleEndian, List.foldr_cons, List.foldr_nil, UInt32.toNat_ofNat']
  omega

theorem ofNat_littleEndian_wordBytes (w : UInt32) :
    UInt32.ofNat (littleEndian (wordBytes w)) = w := by
  have hlt := w.toNat_lt
  apply UInt32.toNat_inj.1
  simp only [wordBytes, littleEndian, List.foldr_cons, List.foldr_nil, UInt8.toNat_ofNat',
    Nat.shiftRight_eq_div_pow, UInt32.toNat_ofNat']
  omega

/-- **A tape mark is read back.** -/
theorem ofBytes_toBytes (k : TapeMark) : ofBytes k.toBytes = k := by
  obtain ⟨kind, previous, next⟩ := k
  have hkind := ofNat_littleEndian_wordBytes kind
  have hprevious := ofNat_littleEndian_wordBytes previous
  have hnext := ofNat_littleEndian_wordBytes next
  simp only [wordBytes] at hkind hprevious hnext
  simp only [ofBytes, toBytes, wordBytes, List.cons_append, List.nil_append, List.drop_zero,
    List.drop_succ_cons, List.take_succ_cons, List.take_zero, Nat.mul_zero, Nat.mul_one, mk.injEq]
  exact ⟨hkind, hprevious, hnext⟩

@[simp] theorem length_toBytes (k : TapeMark) : k.toBytes.length = size := rfl

end TapeMark

namespace Image

/-- The data between file marks. -/
def sections : List TapePart → List (List UInt8)
  | [] => [[]]
  | .record data :: others => (data ++ (sections others).headD []) :: (sections others).tail
  | .fileMark :: others => [] :: sections others

/-- Without file marks there is one section. -/
theorem sections_map_record (cut : List (List UInt8)) :
    sections (cut.map .record) = [cut.flatten] := by
  induction cut with
  | nil => rfl
  | cons data cut ih =>
    rw [List.map_cons, sections, ih]
    rfl

variable {m : Medium} {part : TapePart} {others : List TapePart} {previous offset : Nat}

/-- Where the mark of a part stands, on a medium that goes on with other parts. -/
structure PartAt (m : Medium) (part : TapePart) (others : List TapePart) (previous offset : Nat) :
    Prop where
  /-- Nothing fails. -/
  fault : m.manner.fault = none
  /-- The part and the others are there. -/
  bytes : m.bytes.toList.drop offset = tapeFrom previous offset (part :: others)
  /-- The medium is small enough for tape marks. -/
  size : m.bytes.size < UInt32.size
  /-- The mark before stands before. -/
  previous_lt : if offset = 0 then previous = 0 else previous < offset

namespace PartAt

theorem size_eq (h : PartAt m part others previous offset) :
    m.bytes.size = offset + TapeMark.size + part.data.length +
      (tapeFrom offset (offset + TapeMark.size + part.data.length) others).length := by
  have hlen := congrArg List.length h.bytes
  simp only [tapeFrom, List.length_drop, Array.length_toList, List.length_append,
    TapeMark.length_toBytes] at hlen
  simp only [TapeMark.size] at hlen ⊢
  omega

theorem next_toNat (h : PartAt m part others previous offset) :
    (part.mark previous offset).next.toNat = offset + TapeMark.size + part.data.length := by
  have hsize := h.size_eq
  have hmax := h.size
  rw [TapePart.mark, UInt32.toNat_ofNat']
  simp only [UInt32.size] at hmax
  omega

theorem previous_toNat (h : PartAt m part others previous offset) :
    (part.mark previous offset).previous.toNat = previous := by
  have hsize := h.size_eq
  have hmax := h.size
  have hprevious := h.previous_lt
  rw [TapePart.mark, UInt32.toNat_ofNat']
  simp only [UInt32.size] at hmax
  split at hprevious <;> omega

theorem fits (h : PartAt m part others previous offset) :
    (part.mark previous offset).Fits offset where
  kind := by
    cases part with
    | record data => exact .inl rfl
    | fileMark => exact .inr rfl
  next := by
    rw [h.next_toNat]
    omega
  previous := by
    rw [h.previous_toNat]
    exact h.previous_lt

theorem bytesFrom (h : PartAt m part others previous offset) :
    m.bytesFrom offset = (part.mark previous offset).toBytes ++ (part.data ++
      tapeFrom offset (offset + TapeMark.size + part.data.length) others) := by
  rw [Medium.bytesFrom_of_faultless h.fault, h.bytes, tapeFrom, List.append_assoc]

theorem markAt (h : PartAt m part others previous offset) :
    m.markAt offset = .ok (some (part.mark previous offset)) := by
  have htake : (m.bytesFrom offset).take TapeMark.size = (part.mark previous offset).toBytes := by
    rw [h.bytesFrom]
    exact List.take_left' rfl
  simp only [Medium.markAt, htake, TapeMark.length_toBytes, if_true, TapeMark.ofBytes_toBytes]

/-- The other parts stand behind the data. -/
theorem drop_next (h : PartAt m part others previous offset) :
    m.bytes.toList.drop (offset + TapeMark.size + part.data.length) =
      tapeFrom offset (offset + TapeMark.size + part.data.length) others := by
  have hdrop : m.bytes.toList.drop (offset + TapeMark.size + part.data.length) =
      (m.bytes.toList.drop offset).drop (TapeMark.size + part.data.length) := by
    rw [List.drop_drop, Nat.add_assoc]
  have hlen : TapeMark.size + part.data.length =
      ((part.mark previous offset).toBytes ++ part.data).length := by
    rw [List.length_append, TapeMark.length_toBytes]
  rw [hdrop, h.bytes, tapeFrom, hlen, List.drop_left]

/-- The feed of a record is its data, and what follows. -/
theorem feedFrom_record {data : List UInt8} (h : PartAt m (.record data) others previous offset) :
    m.feedFrom offset = ⟨data ++ (m.feedFrom (offset + TapeMark.size + data.length)).bytes,
      (m.feedFrom (offset + TapeMark.size + data.length)).ending⟩ := by
  have hnext : ((TapePart.record data).mark previous offset).next.toNat =
      offset + TapeMark.size + data.length := h.next_toNat
  have hbytes : (m.bytesFrom (offset + TapeMark.size)).take data.length = data := by
    rw [Medium.bytesFrom_add, h.bytesFrom, List.drop_left' (TapeMark.length_toBytes _)]
    exact List.take_left
  have hrecord : ¬ ((TapePart.record data).mark previous offset).IsFileMark :=
    show ¬ (0 : UInt32) = 1 by decide
  have hrem : (⟨offset, offset + TapeMark.size + data.length, 0⟩ : TapeRecord).remaining =
      data.length := by
    simp only [TapeRecord.remaining, TapeRecord.tell]
    omega
  have htell : (⟨offset, offset + TapeMark.size + data.length, 0⟩ : TapeRecord).tell =
      offset + TapeMark.size := rfl
  rw [Medium.feedFrom_of_record h.markAt h.fits hrecord, hnext, Medium.recordFeed,
    Medium.throughRecord]
  simp only [htell, hrem, hbytes, if_true]

end PartAt

/-- At the end of an image without faults nothing follows. -/
theorem markAt_size (hfault : m.manner.fault = none) : m.markAt m.bytes.size = .ok none := by
  have hnil : m.bytesFrom m.bytes.size = [] := by
    rw [Medium.bytesFrom_of_faultless hfault]
    exact List.drop_eq_nil_of_le (Nat.le_of_eq Array.length_toList)
  simp [Medium.markAt, hnil, Medium.failure_of_faultless hfault, TapeMark.size]

/-- From the mark of a part on, the medium has the data between file marks, up to its end. -/
theorem runsTo_tapeFrom {parts : List TapePart} (hfault : m.manner.fault = none)
    (hbytes : m.bytes.toList.drop offset = tapeFrom previous offset parts)
    (hoffset : offset ≤ m.bytes.size) (hsize : m.bytes.size < UInt32.size)
    (hprevious : if offset = 0 then previous = 0 else previous < offset) :
    m.RunsTo true (.start m.bytes.size) (.start offset) (sections parts) ∧
      m.feedAt true (.start offset) = .ok (m.feedFrom offset) := by
  induction parts generalizing previous offset with
  | nil =>
    have hend : offset = m.bytes.size := by
      have hlen := List.drop_eq_nil_iff.1 hbytes
      rw [Array.length_toList] at hlen
      omega
    have hmark := markAt_size hfault
    have hfeed := Track.feedAt_of_markAt (p := .start m.bytes.size) rfl hmark (by rintro k ⟨⟩)
    rw [hend]
    refine ⟨?_, hfeed⟩
    rw [Place.start, Medium.feedFrom_of_none hmark] at hfeed
    exact .last hfeed
  | cons part others ih =>
    have hpart : PartAt m part others previous offset := ⟨hfault, hbytes, hsize, hprevious⟩
    have hfeed : m.feedAt true (.start offset) = .ok (m.feedFrom offset) :=
      Track.feedAt_of_markAt rfl hpart.markAt fun k hk => by
        cases hk
        exact hpart.fits
    have hend := hpart.size_eq
    obtain ⟨hothers, hnext⟩ := ih hpart.drop_next (by omega) (by
      rw [if_neg (by simp only [TapeMark.size]; omega)]
      simp only [TapeMark.size]
      omega)
    refine ⟨?_, hfeed⟩
    cases part with
    | fileMark =>
      rw [Medium.feedFrom_of_fileMark hpart.markAt hpart.fits rfl, hpart.next_toNat] at hfeed
      exact .cons hfeed hothers
    | record data =>
      -- the feed of the others is that of their first section
      rw [hpart.feedFrom_record] at hfeed
      simp only [TapePart.data] at hothers hnext
      rw [sections]
      generalize sections others = rest at hothers
      cases hothers with
      | last feed =>
        rw [hnext, Except.ok.injEq] at feed
        rw [feed] at hfeed
        exact .last hfeed
      | cons feed others =>
        rw [hnext, Except.ok.injEq] at feed
        rw [feed] at hfeed
        exact .cons hfeed others

/-- A tape image has the data between its file marks, up to its end. -/
theorem runsTo_tape {parts : List TapePart} (hfault : m.manner.fault = none)
    (htape : m.bytes.toList = tape parts) (hsize : m.bytes.size < UInt32.size) :
    m.RunsTo true (.start m.bytes.size) (.start 0) (sections parts) := by
  have hbytes : m.bytes.toList.drop 0 = tapeFrom 0 0 parts := htape
  exact (runsTo_tapeFrom hfault hbytes (Nat.zero_le _) hsize rfl).1

/-- **A tape image carries the data between its file marks.** -/
theorem carries_tape {parts : List TapePart} (hfault : m.manner.fault = none)
    (htape : m.bytes.toList = tape parts) (hsize : m.bytes.size < UInt32.size) :
    m.Carries true (.start 0) (sections parts) := by
  have hmark := markAt_size hfault
  have hend := Track.feedAt_of_markAt (p := .start m.bytes.size) rfl hmark (by rintro k ⟨⟩)
  rw [Place.start, Medium.feedFrom_of_none hmark] at hend
  exact (runsTo_tape hfault htape hsize).carries hend

end Image

end WellLog
