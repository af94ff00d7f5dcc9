import WellLog.TapeMark
/-!
# Tracks

A `Track` is the data of a medium as one stream of bytes.  On a plain medium that is every byte; on
a tape image the tape marks are stepped over, and a file mark stops the track although more may
follow.

A `Place` says where a track can be taken up again.  On a tape it names the mark in front of a
record and the bytes of the record that are already read, so a track opened there reads the mark
first.
-/

namespace WellLog

/-- Where a track can be taken up. -/
structure Place where
  /-- The offset on the medium; on a tape, that of a tape mark. -/
  offset : Nat
  /-- On a tape, the bytes of the record to skip. -/
  skip : Nat
  deriving DecidableEq, Repr

namespace Place

/-- The place at an offset with nothing to skip. -/
def start (offset : Nat) : Place := ⟨offset, 0⟩

/-- Places are ordered by offset, then by the bytes to skip. -/
def le (p q : Place) : Bool := p.offset < q.offset || (p.offset == q.offset && p.skip ≤ q.skip)

end Place

/-- Why a track delivers nothing more. -/
inductive Stop where
  /-- A file mark was reached. -/
  | fileMark
  /-- The medium, or the tape record, has no more bytes. -/
  | mediumEnd
  deriving DecidableEq, Repr

/-- The tape record that a track is in. -/
structure TapeRecord where
  /-- The offset of its mark. -/
  start : Nat
  /-- The offset of the next mark. -/
  next : Nat
  /-- How many of its bytes are read. -/
  consumed : Nat
  deriving DecidableEq, Repr

namespace TapeRecord

/-- The offset of the next byte to read. -/
def tell (s : TapeRecord) : Nat := s.start + TapeMark.size + s.consumed

/-- The bytes up to the next mark. -/
def remaining (s : TapeRecord) : Nat := s.next - s.tell

end TapeRecord

/-- How data lies on the medium. -/
inductive Framing where
  /-- Every byte is data. -/
  | plain (position : Nat)
  /-- Tape records behind tape marks. -/
  | tape (record : TapeRecord)
  deriving DecidableEq, Repr

/-- The data of a medium as a stream of bytes. -/
structure Track where
  /-- The reader on the medium. -/
  reader : Reader
  /-- Where the track is, in terms of the framing. -/
  framing : Framing
  /-- Why the track stopped, if it did. -/
  stop : Option Stop

namespace Track

/-- Tape marks are stepped over. -/
def isFramed (t : Track) : Bool :=
  match t.framing with
  | .plain _ => false
  | .tape _ => true

/-- The place of the next byte.  Behind the last byte of a tape record that is the next mark. -/
def place (t : Track) : Place :=
  match t.framing with
  | .plain position => .start position
  | .tape s => if s.next ≤ s.tell then .start s.next else ⟨s.start, s.consumed⟩

/-- The offset on the medium of the next byte. -/
def tell (t : Track) : Nat :=
  match t.framing with
  | .plain position => position
  | .tape s => s.tell

/-- Finds the tape record that holds the next byte, reading tape marks while the record at hand is
used up.  Nothing is returned when the track stops before the next byte. -/
def toData (reader : Reader) (s : TapeRecord) : EStateM.Result IoError Track (Option TapeRecord) :=
  if s.remaining ≠ 0 then .ok (some s) ⟨reader, .tape s, none⟩
  else
    match TapeMark.read reader with
    | .error e reader => .error e ⟨reader, .tape s, none⟩
    | .ok none reader => .ok none ⟨reader, .tape s, some .mediumEnd⟩
    | .ok (some m) reader =>
      if _fits : m.Fits s.next then
        if m.IsFileMark then
          .ok none ⟨reader, .tape ⟨s.next, m.next.toNat, m.dataLength s.next⟩, some .fileMark⟩
        else toData reader ⟨s.next, m.next.toNat, 0⟩
      else .error (.malformed (m.misfit s.next)) ⟨reader, .tape s, none⟩
termination_by UInt32.size - s.next
decreasing_by
  have := _fits.next
  have := m.next.toNat_lt
  simp only [TapeMark.size, UInt32.size] at *
  omega

/-- One read of at most `n` bytes, which come from one tape record.  Nothing comes once the track
has stopped. -/
def read (n : Nat) : EStateM IoError Track (List UInt8) := fun t =>
  if n = 0 ∨ t.stop ≠ none then .ok [] t
  else
    match t.framing with
    | .plain position =>
      match t.reader.read n with
      | .error e reader => .error e { t with reader }
      | .ok got reader =>
        .ok got ⟨reader, .plain (position + got.length),
          if got.isEmpty then some .mediumEnd else none⟩
    | .tape s =>
      match toData t.reader s with
      | .error e t => .error e t
      | .ok none t => .ok [] t
      | .ok (some s) t =>
        match t.reader.read (min n s.remaining) with
        | .error e reader => .error e { t with reader }
        | .ok got reader =>
          if got.isEmpty then .ok [] { t with reader, stop := some .mediumEnd }
          else
            let s := { s with consumed := s.consumed + got.length }
            .ok got { t with reader, framing := .tape s }

/-- Moves to a place, whatever stopped the track before.  A file mark or the end of the medium at
that place stops it again. -/
def moveTo (place : Place) : EStateM FormatError Track Unit := do
  modify ({ · with stop := none })
  match (← get).framing with
  | .plain _ =>
    let target := place.offset + place.skip
    modify fun t => { t with reader := t.reader.seek target, framing := .plain target }
  | .tape s =>
    let reader := (← get).reader.seek place.offset
    match TapeMark.read reader with
    | .error e reader =>
      modify ({ · with reader })
      throw (.io e)
    | .ok none reader =>
      set (⟨reader, .tape ⟨place.offset, place.offset, 0⟩, some .mediumEnd⟩ : Track)
    | .ok (some m) reader =>
      modify ({ · with reader })
      if m.Fits place.offset then
        let length := m.dataLength place.offset
        let enter (consumed : Nat) : TapeRecord := ⟨place.offset, m.next.toNat, consumed⟩
        if m.IsFileMark then
          set (⟨reader, .tape (enter length), some .fileMark⟩ : Track)
        else if length < place.skip then
          modify ({ · with framing := .tape (enter s.consumed) })
          throw (.defect (.segmentOverrun place.offset place.skip length))
        else
          set (⟨reader.seek (reader.position + place.skip), .tape (enter place.skip), none⟩ : Track)
      else throw (.defect (m.misfit place.offset))

/-- A track on a medium, taken up at a place. -/
def openAt (reader : Reader) (framed : Bool) (place : Place) : Except FormatError Track :=
  let framing : Framing :=
    if framed then .tape ⟨place.offset, place.offset, 0⟩ else .plain place.offset
  match moveTo place ⟨reader, framing, none⟩ with
  | .ok _ t => .ok t
  | .error e _ => .error e

/-- What comes next on a track. -/
inductive Ahead where
  /-- A byte of data. -/
  | byte (b : UInt8)
  /-- The track stops. -/
  | stop (s : Stop)
  deriving DecidableEq, Repr

/-- Looks at what comes next.  A byte is still to be read afterwards. -/
def peek : EStateM FormatError Track Ahead := do
  let here := (← get).place
  let got ← read 1
  match got with
  | [] => return .stop ((← get).stop.getD .mediumEnd)
  | b :: _ =>
    moveTo here
    return .byte b

/-- Everything up to the next stop, with the failure that ended it if there was one. -/
def readAll (t : Track) : (List UInt8 × Option IoError) × Track :=
  drain read (t.reader.medium.bytes.size + 1) t

end Track

end WellLog
