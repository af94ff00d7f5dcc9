import WellLog.LogicalStream
/-!
# Segments

A logical record is written as one or more segments.  A segment has a header of four bytes: its
length with the header, eight flags and the type of the record.  Its body may end in a trailer of
pad bytes, a checksum and the length once more.
-/

namespace WellLog

/-- The flags of a segment, from the high bit to the low one. -/
structure SegmentFlags where
  /-- The record describes itself (metadata) rather than being sample data. -/
  explicit : Bool
  /-- The segment is not the first of its record. -/
  predecessor : Bool
  /-- The segment is not the last of its record. -/
  successor : Bool
  /-- The body is encrypted. -/
  encrypted : Bool
  /-- The body begins with an encryption packet. -/
  encryptionPacket : Bool
  /-- The trailer has a checksum. -/
  checksum : Bool
  /-- The trailer has the length. -/
  trailingLength : Bool
  /-- The trailer has pad bytes. -/
  padding : Bool
  deriving DecidableEq, Repr

namespace SegmentFlags

/-- The flags written in a byte. -/
def ofByte (b : UInt8) : SegmentFlags :=
  let bit (i : Nat) : Bool := b.toNat.testBit i
  ⟨bit 7, bit 6, bit 5, bit 4, bit 3, bit 2, bit 1, bit 0⟩

/-- The byte of the flags. -/
def toByte (f : SegmentFlags) : UInt8 :=
  [f.explicit, f.predecessor, f.successor, f.encrypted, f.encryptionPacket, f.checksum,
    f.trailingLength, f.padding].foldl (fun b flag => b * 2 + if flag then 1 else 0) 0

theorem ofByte_toByte (f : SegmentFlags) : ofByte f.toByte = f := by
  obtain ⟨a, b, c, d, e, f, g, h⟩ := f
  revert a b c d e f g h
  decide

/-- The pad count is there to be read: an encrypted body hides it. -/
def padded (f : SegmentFlags) : Bool := f.padding && !f.encrypted

/-- The bytes of the trailer behind the pad bytes. -/
def fixedTrailer (f : SegmentFlags) : Nat :=
  (if f.trailingLength then 2 else 0) + if f.checksum then 2 else 0

end SegmentFlags

/-- The header of a segment. -/
structure SegmentHeader where
  /-- The length of the segment with its header. -/
  length : Nat
  /-- The flags. -/
  flags : SegmentFlags
  /-- The type of the record. -/
  recordType : UInt8
  deriving DecidableEq, Repr

namespace SegmentHeader

/-- The number of bytes of a header. -/
def size : Nat := 4

/-- The length of the smallest segment. -/
def minLength : Nat := 16

/-- The header written in four bytes. -/
def ofBytes (a b c d : UInt8) : SegmentHeader := ⟨bigEndian [a, b], .ofByte c, d⟩

/-- The number of bytes behind the header. -/
def bodyLength (h : SegmentHeader) : Nat := h.length - size

/-- Accepts a header with a length that a segment can have. -/
def check (h : SegmentHeader) : Except Defect Unit :=
  if h.length < minLength then .error (.segment (.tooShort h.length)) else .ok ()

/-- The number of bytes at the end of `body` that are no data.  The last pad byte counts the pad
bytes and stands in front of checksum and trailing length. -/
def trailerLength (h : SegmentHeader) (body : List UInt8) : Except Defect Nat := do
  let fixed := h.flags.fixedTrailer
  let pad ←
    if h.flags.padded then
      if body.length < fixed + 1 then throw (.segment .noPadCount)
      else pure ((body[body.length - (fixed + 1)]?).getD 0).toNat
    else pure 0
  if body.length < fixed + pad then throw (.segment (.trailerTooLong (fixed + pad) body.length))
  else return fixed + pad

/-- The body without its trailer. -/
def payload (h : SegmentHeader) (body : List UInt8) : Except Defect (List UInt8) := do
  return body.take (body.length - (← h.trailerLength body))

/-- Reads a header from anything that can be read from, or nothing exactly at the end. -/
def readFrom {σ : Type} (read : Nat → EStateM IoError σ (List UInt8)) :
    EStateM IoError σ (Option SegmentHeader) := do
  match ← gather read size with
  | [] => return none
  | [a, b, c, d] => return some (.ofBytes a b c d)
  | _ => throw .segmentHeaderCut

/-- Reads a header from the logical stream, or nothing exactly at the end. -/
def read : EStateM IoError LogicalStream (Option SegmentHeader) := readFrom LogicalStream.read

end SegmentHeader

end WellLog
