import WellLog.Record
/-!
# Finding the records of a logical file

`LogicalStream.findRecords` passes once over the stream and notes where records begin.  It stops at
the header of the next logical file, at a file mark, at the end of the medium, or where the bytes
are no record.
-/

namespace WellLog

/-- Why a scan stopped. -/
inductive ScanEnd where
  /-- The next logical file begins. -/
  | boundary
  /-- A file mark ends the logical file. -/
  | fileMark
  /-- The medium ends. -/
  | mediumEnd
  /-- The bytes are no record. -/
  | broken
  deriving DecidableEq, Repr

/-- The records of one logical file. -/
structure RecordIndex where
  /-- The offsets of explicit records. -/
  explicits : List Nat
  /-- The offsets of implicit records. -/
  implicits : List Nat
  /-- Why the scan stopped. -/
  ending : ScanEnd
  /-- Where the next logical file is taken up. -/
  resume : Place
  deriving DecidableEq, Repr

namespace RecordIndex

/-- The number of records. -/
def size (index : RecordIndex) : Nat := index.explicits.length + index.implicits.length

/-- There are no records. -/
def isEmpty (index : RecordIndex) : Bool := index.size == 0

/-- The scan stopped at bytes that are no record. -/
def isBroken (index : RecordIndex) : Bool := index.ending == .broken

end RecordIndex

/-- What a scan meets next. -/
inductive Found where
  /-- A record, explicit or implicit. -/
  | record (offset : Nat) (explicit : Bool)
  /-- The file header of the next logical file, in the visible record at `place`. -/
  | boundary (place : Place)
  /-- The end. -/
  | nothing
  deriving DecidableEq, Repr

namespace LogicalStream

/-- Passes over the segments of the record at `offset` that begin with `header`.  There are no more
than `most`, the number of bytes of the medium. -/
def skipSegments (offset : Nat) : (most : Nat) → SegmentHeader → Reading Unit
  | 0, _ => return ()
  | most + 1, header => do
    (skip header.bodyLength : EStateM IoError LogicalStream Unit)
    if header.flags.successor then
      let next ← requireHeader offset
      if !next.flags.predecessor then refuse (.segment (.unlinked offset))
      skipSegments offset most next

/-- Passes over the next record.  A file header other than that of the `first` record opens another
logical file, and has to begin a visible record. -/
def nextRecord (first : Bool) : Reading Found := do
  if !(← (fill : EStateM IoError LogicalStream Bool)) then return .nothing
  let s ← Logged.state
  match ← (SegmentHeader.read : EStateM IoError LogicalStream _) with
  | none => return .nothing
  | some header =>
    accept header.check
    if header.flags.predecessor then refuse (.segment (.orphan s.tell))
    let opens := header.flags.explicit && header.recordType == Record.fileHeader && !first
    match if opens then s.visiblePosition else none with
    | some (place, atStart) =>
      if atStart then return .boundary place else refuse (.segment (.headerInside s.tell))
    | none =>
      skipSegments s.tell s.extent header
      return .record s.tell header.flags.explicit

/-- Collects records until the scan stops, at most `most` of them, behind those already found. -/
def collect : (most : Nat) → (explicits implicits : Array Nat) → Reading RecordIndex
  | 0, explicits, implicits =>
    return ⟨explicits.toList, implicits.toList, .mediumEnd, (← Logged.state).track.place⟩
  | most + 1, explicits, implicits => do
    let count := explicits.size + implicits.size
    let finish (ending : ScanEnd) (resume : Place) : RecordIndex :=
      ⟨explicits.toList, implicits.toList, ending, resume⟩
    match ← attempt (nextRecord (count == 0)) with
    | .ok (.record offset explicit) =>
      if explicit then collect most (explicits.push offset) implicits
      else collect most explicits (implicits.push offset)
    | .ok (.boundary place) =>
      Logged.note .debug s!"Logical file boundary after {count} records"
      return finish .boundary place
    | .ok .nothing =>
      let track := (← Logged.state).track
      return finish (if track.stop = some .fileMark then .fileMark else .mediumEnd) track.place
    | .error e =>
      if e.isStructural then
        let s ← Logged.state
        Logged.note .warning
          s!"Broken record at logical offset {s.tell}, {count} records kept: {e.message}"
        return finish .broken s.track.place
      else throw e

/-- The records from here to the end of the logical file.  A medium of `n` bytes holds fewer than
`n + 1` records. -/
def findRecords : Reading RecordIndex := do
  collect ((← Logged.state).extent + 1) #[] #[]

end LogicalStream

end WellLog
