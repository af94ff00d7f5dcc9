import WellLog.Journal
import WellLog.Track
/-!
# Visible records

A visible record is the unit of the physical file: four bytes of header, and then a piece of the
stream of segments.  The header has the length of the whole record, a byte `FF` and the version 1.

`Track.findVisible` looks for the first header within a window.  The window is kept in one piece of
memory, every byte with its place, and all of this memory is claimed before the first byte is read.
So where the window is wider than any piece of memory, the search fails whatever the track has.
-/

namespace WellLog

/-- The header of a visible record. -/
structure VisibleHeader where
  /-- The length of the record with its header. -/
  length : Nat
  /-- The byte that is always `FF`. -/
  pad : UInt8
  /-- The version. -/
  version : UInt8
  deriving DecidableEq, Repr

namespace VisibleHeader

/-- The number of bytes of a header. -/
def size : Nat := 4

/-- The length of the smallest visible record. -/
def minLength : Nat := 20

/-- The header in four bytes. -/
def ofBytes (a b c d : UInt8) : VisibleHeader := ⟨bigEndian [a, b], c, d⟩

/-- Pad byte, version and length are those of a visible record. -/
def IsValid (h : VisibleHeader) : Prop := h.pad = 0xFF ∧ h.version = 1 ∧ minLength ≤ h.length

instance (h : VisibleHeader) : Decidable h.IsValid :=
  inferInstanceAs (Decidable (_ ∧ _ ∧ _))

/-- The number of bytes behind the header. -/
def bodyLength (h : VisibleHeader) : Nat := h.length - size

/-- What is wrong with a header that is not valid. -/
def invalid (h : VisibleHeader) : Defect := .visibleRecord h.length h.pad h.version

/-- The number of bytes to search for a header that begins at most `limit` bytes ahead. -/
def window (limit : Nat) : Nat := limit + size

/-- The memory for one byte of the window: a word for the byte, and one for each number of its
place. -/
def cellSize : Nat := 24

/-- The size of the largest piece of memory, which is the largest signed word. -/
def maxMemory : Nat := UInt64.size / 2 - 1

/-- There are pieces of memory as large as the window.  Whether one of them is free is not modelled. -/
def WindowFits (limit : Nat) : Prop := window limit * cellSize ≤ maxMemory

instance (limit : Nat) : Decidable (WindowFits limit) := inferInstanceAs (Decidable (_ ≤ _))

end VisibleHeader

/-- Why no visible record is found. -/
inductive SearchError where
  /-- The window is wider than any piece of memory. -/
  | tooWide (limit : Nat)
  /-- The data or the reading of it failed. -/
  | format (error : FormatError)
  deriving DecidableEq, Repr

namespace Track

/-- Reads up to `budget` bytes, one by one, until the last four are a valid header, and returns the
place of the first of them.  `recent` has the bytes before, at most three, the latest first, and
`searched` counts all of them; without a header, the number of bytes read is returned. -/
def searchVisible : (budget : Nat) → (recent : List (Place × UInt8)) → (searched : Nat) →
    EStateM IoError Track (Except Nat Place)
  | 0, _, searched => return .error searched
  | budget + 1, recent, searched => do
    let here := (← get).place
    match ← read 1 with
    | [] => return .error searched
    | d :: _ =>
      match recent with
      | [(atC, c), (atB, b), (atA, a)] =>
        if (VisibleHeader.ofBytes a b c d).IsValid then return .ok atA
        else searchVisible budget [(here, d), (atC, c), (atB, b)] (searched + 1)
      | _ => searchVisible budget ((here, d) :: recent) (searched + 1)

/-- Moves to the first visible record whose header lies in the window of `limit`. -/
def searchWindow (limit : Nat) : EStateM FormatError Track Place := do
  let start := (← get).tell
  match ← searchVisible (VisibleHeader.window limit) [] 0 with
  | .ok place =>
    moveTo place
    return place
  | .error searched => throw (.defect (.noVisibleRecord start searched))

/-- As `searchWindow`, if there can be memory for the window. -/
def findVisible (limit : Nat) : EStateM SearchError Track Place :=
  if VisibleHeader.WindowFits limit then EStateM.adaptExcept .format (searchWindow limit)
  else throw (.tooWide limit)

/-- As `findVisible`, with a note of the place. -/
def locateVisible (limit : Nat) : Logged SearchError Track Place := do
  let place ← (findVisible limit : EStateM SearchError Track Place)
  Logged.note .debug s!"Visible record at offset {place.offset} (+{place.skip})"
  return place

end Track

end WellLog
