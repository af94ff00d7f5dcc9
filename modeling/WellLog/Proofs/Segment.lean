import WellLog.Image.Record
import WellLog.Proofs.Image.Primitive
import WellLog.Proofs.LogicalStream.Position
/-!
# Segments in the contents of a stream

* `LogicalStream.At.ends_readHeader` : a header that is read is the one that the contents have at
  the offset of the stream.
* `SegmentLayout` : a segment as it is written, with everything that may stand in its trailer.
* `SegmentLayout.payload_body` : **the data of a segment is what was laid out as data**, whatever
  the trailer has.
-/

namespace WellLog

/-- Two bytes hold a number below 65536. -/
theorem bigEndianBytes_two {n : Nat} (h : n < 65536) :
    ∃ a b, Image.bigEndianBytes 2 n = [a, b] ∧ bigEndian [a, b] = n :=
  ⟨_, _, rfl, (Image.bigEndian_bigEndianBytes 2 n).trans (Nat.mod_eq_of_lt h)⟩

/-- Parts that are not empty are no more than there are elements. -/
theorem length_le_length_flatMap {α β : Type} {f : α → List β} (h : ∀ a, f a ≠ []) (l : List α) :
    l.length ≤ (l.flatMap f).length := by
  induction l with
  | nil => exact Nat.zero_le _
  | cons a l ih =>
    have := List.length_pos_iff.2 (h a)
    rw [List.flatMap_cons, List.length_append, List.length_cons]
    omega

namespace SegmentHeader

/-- The header at the beginning of some bytes. -/
def take? : List UInt8 → Option SegmentHeader
  | a :: b :: c :: d :: _ => some (ofBytes a b c d)
  | _ => none

theorem take?_eq_none_of_length_lt {bytes : List UInt8} (h : bytes.length < size) :
    take? bytes = none := by
  match bytes, h with
  | [], _ | [_], _ | [_, _], _ | [_, _, _], _ => rfl
  | _ :: _ :: _ :: _ :: _, h => simp only [List.length_cons, size] at h; omega

end SegmentHeader

namespace LogicalStream

variable {m : Medium} {framed : Bool} {F : Feed} {k : Nat} {s : LogicalStream}

/-- A header that is read is the one in the contents.  At their end there is none, and no failure but
that of the stream. -/
theorem At.ends_readHeader (h : s.At m framed F k) :
    Ends
      (fun found s' => found = SegmentHeader.take? (F.contents.bytes.drop k) ∧
        match found with
        | some _ => s'.At m framed F (k + SegmentHeader.size)
        | none => k = F.contents.bytes.length ∧ s'.AtEnd m framed F)
      (fun e s' => SegmentHeader.take? (F.contents.bytes.drop k) = none ∧ s'.Short m framed F e ∧
        (k = F.contents.bytes.length → s'.Fails m framed F e))
      (SegmentHeader.read s) := by
  have hk := h.le_length
  unfold SegmentHeader.read SegmentHeader.readFrom
  rw [ends_bind]
  by_cases hlen : k + SegmentHeader.size ≤ F.contents.bytes.length
  · obtain ⟨s', hg, hat⟩ := h.gather_of_le hlen
    rw [hg, ends_ok]
    match hX : F.contents.bytes.drop k with
    | a :: b :: c :: d :: rest => exact ⟨rfl, hat⟩
    | [] | [_] | [_, _] | [_, _, _] =>
      have hd := congrArg List.length hX
      simp only [List.length_drop, List.length_cons, List.length_nil, SegmentHeader.size] at hd hlen
      omega
  · have hlt : (F.contents.bytes.drop k).length < SegmentHeader.size := by
      rw [List.length_drop]
      omega
    have hnone := SegmentHeader.take?_eq_none_of_length_lt hlt
    refine (h.ends_gather_of_lt (Nat.lt_of_not_le hlen)).mono ?_ fun e s' he =>
      ⟨hnone, he.short, fun _ => he⟩
    rintro got s' ⟨rfl, hend⟩
    match hX : F.contents.bytes.drop k, hlt with
    | [], _ => exact ⟨rfl, eq_length_of_drop_eq_nil hk hX, hend⟩
    | [_], _ | [_, _], _ | [_, _, _], _ =>
      refine ⟨rfl, hend.short rfl, ?_⟩
      rintro rfl
      rw [List.drop_length] at hX
      cases hX
    | _ :: _ :: _ :: _ :: _, hlt =>
      simp only [List.length_cons, SegmentHeader.size] at hlt
      omega

end LogicalStream

/-! ### Segments as they are written -/

/-- A segment as it is written. -/
structure SegmentLayout where
  /-- The flags of the header. -/
  flags : SegmentFlags
  /-- The data. -/
  data : List UInt8
  /-- The pad bytes. -/
  pad : List UInt8
  /-- The checksum. -/
  checksum : List UInt8
  /-- The length once more. -/
  trailing : List UInt8
  /-- Pad bytes are counted by the last of them. -/
  counted : flags.padded = true → 1 ≤ pad.length ∧ pad.length ≤ 255 ∧
    pad.getLast? = some (UInt8.ofNat pad.length)
  /-- There are pad bytes only where the count can be read. -/
  unpadded : flags.padded = false → pad = []
  /-- A checksum has two bytes. -/
  checksum_length : checksum.length = if flags.checksum then 2 else 0
  /-- So has a trailing length. -/
  trailing_length : trailing.length = if flags.trailingLength then 2 else 0
  /-- The segment has the least length. -/
  min_length : SegmentHeader.minLength ≤
    SegmentHeader.size + (data ++ pad ++ checksum ++ trailing).length
  /-- Its length can be written in two bytes. -/
  max_length : SegmentHeader.size + (data ++ pad ++ checksum ++ trailing).length ≤ 65535

namespace SegmentLayout

/-- The bytes behind the header. -/
def body (s : SegmentLayout) : List UInt8 := s.data ++ s.pad ++ s.checksum ++ s.trailing

/-- The header. -/
def header (type : UInt8) (s : SegmentLayout) : SegmentHeader :=
  ⟨SegmentHeader.size + s.body.length, s.flags, type⟩

/-- The bytes of the segment. -/
def toBytes (type : UInt8) (s : SegmentLayout) : List UInt8 :=
  Image.bigEndianBytes 2 (SegmentHeader.size + s.body.length) ++
    s.flags.toByte :: type :: s.body

variable (type : UInt8) (s : SegmentLayout)

theorem bodyLength_header : (s.header type).bodyLength = s.body.length :=
  Nat.add_sub_cancel_left _ _

@[simp] theorem length_toBytes :
    (s.toBytes type).length = SegmentHeader.size + s.body.length := by
  simp only [toBytes, List.length_append, List.length_cons, Image.bigEndianBytes,
    List.length_nil, SegmentHeader.size]
  omega

theorem toBytes_ne_nil : s.toBytes type ≠ [] := by
  refine List.ne_nil_of_length_pos ?_
  rw [length_toBytes, SegmentHeader.size]
  omega

theorem check_header : (s.header type).check = .ok () :=
  if_neg (Nat.not_lt.2 s.min_length)

/-- The header is read back. -/
theorem take?_toBytes (rest : List UInt8) :
    SegmentHeader.take? (s.toBytes type ++ rest) = some (s.header type) := by
  obtain ⟨a, b, hbytes, hlength⟩ := bigEndianBytes_two (Nat.lt_succ_of_le s.max_length)
  simp only [toBytes, body, hbytes, List.cons_append, List.nil_append, SegmentHeader.take?,
    SegmentHeader.ofBytes, hlength, SegmentFlags.ofByte_toByte, header]

theorem drop_toBytes (rest : List UInt8) :
    (s.toBytes type ++ rest).drop SegmentHeader.size = s.body ++ rest := rfl

theorem fixedTrailer_flags : s.flags.fixedTrailer = s.checksum.length + s.trailing.length := by
  rw [s.checksum_length, s.trailing_length, SegmentFlags.fixedTrailer, Nat.add_comm]

theorem length_body :
    s.body.length = s.data.length + s.pad.length + s.flags.fixedTrailer := by
  simp only [body, List.length_append, fixedTrailer_flags, Nat.add_assoc]

/-- The last pad byte is where it is looked for. -/
theorem padCount_body (h : s.flags.padded = true) :
    ((s.body[s.body.length - (s.flags.fixedTrailer + 1)]?).getD 0).toNat = s.pad.length := by
  obtain ⟨hpos, hmax, hlast⟩ := s.counted h
  have hlen := s.length_body
  have hget : s.body[s.body.length - (s.flags.fixedTrailer + 1)]? = s.pad.getLast? := by
    have hindex : s.body.length - (s.flags.fixedTrailer + 1) =
        s.data.length + (s.pad.length - 1) := by omega
    rw [hindex, List.getLast?_eq_getElem?, body, List.append_assoc,
      List.getElem?_append_left (by rw [List.length_append]; omega),
      List.getElem?_append_right (by omega), Nat.add_sub_cancel_left]
  rw [hget, hlast, Option.getD_some, UInt8.toNat_ofNat']
  omega

/-- The trailer is found. -/
theorem trailerLength_body : (s.header type).trailerLength s.body =
    .ok (s.flags.fixedTrailer + s.pad.length) := by
  have hlen := s.length_body
  have hflags : (s.header type).flags = s.flags := rfl
  simp only [SegmentHeader.trailerLength, hflags]
  by_cases hpad : s.flags.padded = true
  · obtain ⟨hpos, -, -⟩ := s.counted hpad
    rw [if_pos hpad, if_neg (by omega), padCount_body s hpad]
    simp only [bind, Except.bind, pure, Except.pure]
    rw [if_neg (by omega)]
  · have hnil := s.unpadded (Bool.not_eq_true _ ▸ hpad)
    rw [if_neg hpad, hnil]
    simp only [bind, Except.bind, pure, Except.pure]
    rw [if_neg (by omega)]
    rfl

/-- **The data of a segment is what was laid out as data.** -/
theorem payload_body : (s.header type).payload s.body = .ok s.data := by
  have hlen : s.body.length - (s.flags.fixedTrailer + s.pad.length) = s.data.length := by
    rw [length_body]
    omega
  simp only [SegmentHeader.payload, trailerLength_body, bind, Except.bind, pure, Except.pure, hlen]
  simp only [body, List.append_assoc, List.take_left]

end SegmentLayout

end WellLog
