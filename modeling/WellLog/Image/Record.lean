import WellLog.Image.SetBody
import WellLog.Record
import WellLog.StorageLabel
/-!
# Writing records

Records are cut into segments, segments are packed into visible records, and a storage unit label
goes in front.
-/

namespace WellLog.Image

/-! ### Segments -/

/-- The least number of bytes behind a segment header. -/
def minBody : Nat := SegmentHeader.minLength - SegmentHeader.size

/-- How many pad bytes a body of `length` bytes needs.  A padded body has at least the least number
of bytes, and an even number of them. -/
def padCount (length : Nat) : Nat := if length < minBody then minBody - length else length % 2

/-- Pad bytes, of which the last one has their number. -/
def padBytes (count : Nat) : List UInt8 :=
  if count = 0 then [] else List.replicate (count - 1) 0 ++ [UInt8.ofNat count]

/-- A segment with the pad bytes that it needs. -/
def segment (type : UInt8) (flags : SegmentFlags) (body : List UInt8) : List UInt8 :=
  let pad := padCount body.length
  let flags := if pad = 0 then flags else { flags with padding := true }
  let data := body ++ padBytes pad
  bigEndianBytes 2 (data.length + SegmentHeader.size) ++ flags.toByte :: type :: data

/-- The flags of a segment among those of its record. -/
def segmentFlags (explicit predecessor successor : Bool) : SegmentFlags :=
  ⟨explicit, predecessor, successor, false, false, false, false, false⟩

/-- The pieces of a list, of `size` elements each but for the last one. -/
def pieces {α : Type} (size : Nat) (l : List α) : List (List α) :=
  if _more : l = [] then []
  else l.take (max 1 size) :: pieces size (l.drop (max 1 size))
termination_by l.length
decreasing_by
  have := List.length_pos_iff.2 _more
  simp only [List.length_drop]
  omega

/-- The segments for the pieces of a body that are left. -/
def segmentsFrom (type : UInt8) (explicit predecessor : Bool) :
    List (List UInt8) → List (List UInt8)
  | [] => []
  | [last] => [segment type (segmentFlags explicit predecessor false) last]
  | piece :: others =>
    segment type (segmentFlags explicit predecessor true) piece
      :: segmentsFrom type explicit true others

/-- A record in segments with at most `size` bytes of its body each. -/
def segments (type : UInt8) (explicit : Bool) (body : List UInt8) (size : Nat) :
    List (List UInt8) :=
  segmentsFrom type explicit false (if body = [] then [[]] else pieces size body)

/-- A record in one segment. -/
def record (type : UInt8) (explicit : Bool) (body : List UInt8) : List UInt8 :=
  segment type (segmentFlags explicit false false) body

/-- The record that opens a logical file. -/
def fileHeader (sequence id : String) : List UInt8 :=
  record Record.fileHeader true (setBody "FILE-HEADER" (some "0")
    [.template "SEQUENCE-NUMBER", .template "ID", .object ⟨0, 0, "0"⟩,
      .value (.strings [sequence]), .value (.strings [id])])

/-- A record with samples of a frame. -/
def frameData (frame : ObjectName) (number : Nat) (samples : List UInt8) : List UInt8 :=
  record Record.frameData false (objectName frame ++ varying number ++ samples)

/-! ### Visible records -/

/-- One visible record. -/
def visibleRecord (body : List UInt8) : List UInt8 :=
  bigEndianBytes 2 (body.length + VisibleHeader.size) ++ 0xFF :: 0x01 :: body

/-- Packs segments into visible records of at most `most` bytes, behind the segments that the first
one has already.  A segment is never cut: one that is too long has a visible record of its own. -/
def packSegments (most : Nat) (packed : List UInt8) : List (List UInt8) → List UInt8
  | [] => if packed = [] then [] else visibleRecord packed
  | s :: others =>
    if packed ≠ [] ∧ most < packed.length + s.length + VisibleHeader.size then
      visibleRecord packed ++ packSegments most s others
    else packSegments most (packed ++ s) others

/-- Segments in visible records of at most `most` bytes. -/
def visibleRecords (segments : List (List UInt8)) (most : Nat) : List UInt8 :=
  packSegments most [] segments

/-! ### Labels -/

/-- A storage unit label, cut to its length. -/
def storageLabel (sequence : Nat) (setId : String) : List UInt8 :=
  (Utf8.encode (Text.padLeft 4 (toString sequence) ' ' ++ "V1.00RECORD 8192"
    ++ Text.padRight 60 setId ' ')).take StorageLabel.size

end WellLog.Image
