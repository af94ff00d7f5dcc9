import WellLog.VisibleRecord
/-!
# The logical stream

Behind their headers the visible records hold one continuous stream of segments.  A `LogicalStream`
is that stream over a track.  Its offsets count the bytes behind headers, from the first visible
record on.

The stream remembers the visible records it has passed, so that going back to a known offset reads
at most one visible record again; every other offset is reached by reading forward.
-/

namespace WellLog

/-- A visible record in the stream. -/
structure VisibleRecord where
  /-- The logical offset of its first byte. -/
  start : Nat
  /-- The place of its header. -/
  place : Place
  /-- The number of its bytes, without the header. -/
  length : Nat
  deriving DecidableEq, Repr

/-- The bodies of visible records as one stream. -/
structure LogicalStream where
  /-- The track that the visible records are on. -/
  track : Track
  /-- The place of the first visible record. -/
  origin : Place
  /-- The visible records passed so far, the last one first. -/
  passed : List VisibleRecord
  /-- The visible record that the stream is in. -/
  current : Option VisibleRecord
  /-- The logical offset of the next byte. -/
  tell : Nat
  /-- The bytes left in the visible record. -/
  remaining : Nat

namespace LogicalStream

/-- A step of the track below. -/
def onTrack {ε α : Type} (x : EStateM ε Track α) : EStateM ε LogicalStream α := fun s =>
  match x s.track with
  | .ok a track => .ok a { s with track }
  | .error e track => .error e { s with track }

/-- The stream that begins with the visible record at `origin`. -/
def openAt (track : Track) (origin : Place) : Except FormatError LogicalStream :=
  match track.moveTo origin with
  | .ok _ track => .ok ⟨track, origin, [], none, 0, 0⟩
  | .error e _ => .error e

/-- The visible record that holds the next byte, and whether that is its first byte. -/
def visiblePosition (s : LogicalStream) : Option (Place × Bool) :=
  s.current.map fun record => (record.place, s.remaining == record.length)

/-- Enters the next visible record; there is none if the track stops before its header. -/
def nextVisible : EStateM IoError LogicalStream Bool := do
  let place := (← get).track.place
  match ← onTrack (gather Track.read VisibleHeader.size) with
  | [] => return false
  | [a, b, c, d] =>
    let header := VisibleHeader.ofBytes a b c d
    if header.IsValid then
      modify fun s =>
        let record : VisibleRecord := ⟨s.tell, place, header.bodyLength⟩
        let isNew := match s.passed with
          | [] => true
          | last :: _ => last.start < record.start
        { s with
          passed := if isNew then record :: s.passed else s.passed
          current := some record
          remaining := record.length }
      return true
    else throw (.malformed header.invalid)
  | _ => throw (.headerCut place.offset)

/-- Makes sure that a byte is left in the visible record, and enters the next one if not.  A valid
visible record is never empty.  The answer is no when the track stops at the end of a visible
record. -/
def fill : EStateM IoError LogicalStream Bool := do
  if (← get).remaining = 0 then nextVisible else return true

/-- One read of at most `n` bytes, which come from one visible record. -/
def read (n : Nat) : EStateM IoError LogicalStream (List UInt8) := do
  if n = 0 then return []
  else if !(← fill) then return []
  else
    let remaining := (← get).remaining
    let got ← onTrack (Track.read (min n remaining))
    if got.isEmpty then throw (.recordCut remaining)
    else
      modify fun s =>
        { s with tell := s.tell + got.length, remaining := s.remaining - got.length }
      return got

/-- Passes over `n` bytes. -/
def skip (n : Nat) : EStateM IoError LogicalStream Unit := do
  let got ← gather read n
  if got.length < n then throw (.skipCut (n - got.length))

/-- Moves to a logical offset: to the last passed visible record that begins at or before it, and
forward from there. -/
def seek (offset : Nat) : EStateM FormatError LogicalStream Unit := do
  let s ← get
  let (place, base) :=
    match s.passed.find? fun record => record.start ≤ offset with
    | some record => (record.place, record.start)
    | none => (s.origin, 0)
  onTrack (Track.moveTo place)
  modify ({ · with tell := base, remaining := 0, current := none })
  let _ ← (fill : EStateM IoError LogicalStream Bool)
  skip (offset - base)

/-- Everything up to the end, with the failure that ended it if there was one. -/
def readAll (s : LogicalStream) : (List UInt8 × Option IoError) × LogicalStream :=
  drain read (s.track.reader.medium.bytes.size + 1) s

end LogicalStream

end WellLog
