import WellLog.ObjectSet.Parser
/-!
# Frame data

Every implicit record with samples begins with the name of the frame that it belongs to.  A
`FrameIndex` has the offsets of these records by frame, in the order of the file.
-/

namespace WellLog

/-- The offsets of sample records for every frame that has some. -/
abbrev FrameIndex := List (Fingerprint × List Nat)

namespace FrameIndex

/-- The offsets of one frame. -/
def offsets (index : FrameIndex) (frame : Fingerprint) : List Nat :=
  ((index.find? (·.1 == frame)).map (·.2)).getD []

/-- The offsets of records by their frames, in the order in which the frames first appear. -/
def ofList (found : List (Fingerprint × Nat)) : FrameIndex :=
  (found.map (·.1)).eraseDups.map fun frame =>
    (frame, (found.filter (·.1 == frame)).map (·.2))

/-- The entries by the order of fingerprints. -/
def sorted (index : FrameIndex) : FrameIndex := index.mergeSort fun p q => p.1.le q.1

/-- The number of records. -/
def size (index : FrameIndex) : Nat := index.foldl (fun n p => n + p.2.length) 0

end FrameIndex

namespace Record

/-- The record has samples that can be read. -/
def isFrameData (r : Record) : Bool := !r.explicit && !r.encrypted && r.type == frameData

/-- The frame that a record with samples belongs to. -/
def frame (r : Record) : Except Defect Fingerprint :=
  match Decode.objectName (.ofList r.body) with
  | .ok n _ => .ok (.ofName "FRAME" n)
  | .error d _ => .error d

end Record

namespace LogicalStream

/-- The frame of the record at an offset, if it has samples that can be read. -/
def frameAt (offset : Nat) : Reading (Option Fingerprint) := do
  match ← readIntact offset "sample record" with
  | none => return none
  | some record =>
    if !record.isFrameData then return none
    else
      match record.frame with
      | .ok frame => return some frame
      | .error d =>
        Logged.note .warning s!"FDATA record at offset {offset} has no frame name: {d.message}"
        return none

/-- The records at the offsets by frame. -/
def indexFrames (offsets : List Nat) : Reading FrameIndex := do
  let found ← offsets.filterMapM fun offset => return (← frameAt offset).map (·, offset)
  let index := FrameIndex.ofList found
  Logged.note .debug
    s!"Indexed {FrameIndex.size index} sample records across {index.length} frames"
  return index

end LogicalStream

end WellLog
