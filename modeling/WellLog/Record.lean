import WellLog.Journal
import WellLog.Segment
/-!
# Logical records

A record is put together from its segments, without their headers and trailers.  The first segment
says what the record is.

`readRecord` reads the record at an offset, and `extractRecords` all records at a list of offsets
that can be read.
-/

namespace WellLog

/-- A logical record. -/
structure Record where
  /-- The logical offset of its first segment. -/
  offset : Nat
  /-- The type of the record. -/
  type : UInt8
  /-- The record describes itself. -/
  explicit : Bool
  /-- The body is encrypted. -/
  encrypted : Bool
  /-- The data of all segments. -/
  body : List UInt8
  deriving DecidableEq, Repr

namespace Record

/-- The type of the explicit record that opens a logical file. -/
def fileHeader : UInt8 := 0

/-- The type of explicit records that change objects of earlier ones. -/
def update : UInt8 := 7

/-- The type of implicit records with the samples of a frame. -/
def frameData : UInt8 := 0

end Record

namespace LogicalStream

/-- The steps of reading fail with either kind of error, and may make notes. -/
abbrev Reading := Logged FormatError LogicalStream

/-- Fails with a defect of the data. -/
def refuse {α : Type} (d : Defect) : Reading α := throw (.defect d)

/-- Accepts what has no defect. -/
def accept {α : Type} : Except Defect α → Reading α
  | .ok a => return a
  | .error d => refuse d

/-- The header of a segment that has to be there, because the record at `offset` is not complete. -/
def requireHeader (offset : Nat) : Reading SegmentHeader := do
  match ← (SegmentHeader.read : EStateM IoError LogicalStream _) with
  | some header =>
    accept header.check
    return header
  | none => throw (.io (.noLastSegment offset))

/-- The data of the segment whose header was read. -/
def readPayload (header : SegmentHeader) : Reading (List UInt8) := do
  let body ← (gather read header.bodyLength : EStateM IoError LogicalStream _)
  if body.length < header.bodyLength then throw (.io .bodyCut)
  accept (header.payload body)

/-- The data of the segments behind `header`, as long as each says that one follows.  There are no
more than `most`, the number of bytes of the medium. -/
def readSuccessors (offset : Nat) (type : UInt8) : (most : Nat) → SegmentHeader →
    Reading (List UInt8)
  | 0, _ => return []
  | most + 1, header => do
    if !header.flags.successor then return []
    else
      let next ← requireHeader offset
      if next.recordType != type then
        Logged.note .debug (s!"Segment type {next.recordType.toNat} "
          ++ s!"differs from record type {type.toNat} at offset {offset}")
      let data ← readPayload next
      return data ++ (← readSuccessors offset type most next)

/-- The number of bytes of the medium, which no loop over the stream can outrun. -/
def extent (s : LogicalStream) : Nat := s.track.reader.medium.bytes.size

/-- The record at a logical offset. -/
def readRecord (offset : Nat) : Reading Record := do
  seek offset
  let first ← requireHeader offset
  let data ← readPayload first
  let more ← readSuccessors offset first.recordType (← Logged.state).extent first
  return ⟨offset, first.recordType, first.flags.explicit, first.flags.encrypted, data ++ more⟩

/-- The record at a logical offset, or nothing, with a note, where the data is damaged.  Only
failures of the medium remain failures. -/
def readIntact (offset : Nat) (what : String) : Reading (Option Record) := do
  match ← attempt (readRecord offset) with
  | .ok record => return some record
  | .error e =>
    if e.isStructural then
      Logged.note .warning s!"Skipping unreadable {what} at offset {offset}: {e.message}"
      return none
    else throw e

/-- The records at the offsets that can be read. -/
def extractRecords (offsets : List Nat) : Reading (List Record) := do
  let records ← offsets.filterMapM (readIntact · "record")
  Logged.note .debug s!"Extracted {records.length} of {offsets.length} records"
  return records

end LogicalStream

end WellLog
