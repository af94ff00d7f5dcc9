import WellLog.FrameData
import WellLog.Pool.Link
import WellLog.StorageLabel
/-!
# Logical files

A `LogicalFile` is one of the independent files that a physical file bundles.  It has a stream of
its own, the pool of its objects and an index of its sample records.
-/

namespace WellLog

/-- Why loading failed. -/
inductive LoadError where
  /-- The physical file cannot be opened. -/
  | io (error : IoError)
  /-- The physical file cannot be read, or is malformed where nothing can be saved. -/
  | format (error : FormatError)
  /-- The search for a visible record asks for more than any piece of memory. -/
  | tooWide (limit : Nat)
  deriving DecidableEq, Repr

/-- The wording of a failure to load. -/
def LoadError.message : LoadError → String
  | io e => "I/O error: " ++ e.message
  | format e => "format error: " ++ e.message
  | tooWide _ => "capacity overflow"

/-- The failure of a search as one to load. -/
def LoadError.ofSearch : SearchError → LoadError
  | .tooWide limit => .tooWide limit
  | .format e => .format e

/-- One logical file. -/
structure LogicalFile where
  /-- The stream over the file, which begins with its first visible record. -/
  stream : LogicalStream
  /-- The last storage unit label before the file. -/
  label : Option StorageLabel
  /-- The objects. -/
  pool : Pool
  /-- The sample records by frame. -/
  frames : FrameIndex
  /-- The file ends in bytes that are no record. -/
  broken : Bool

namespace LogicalFile

/-- The place of the first visible record. -/
def place (f : LogicalFile) : Place := f.stream.origin

/-- A step of the pool. -/
def onPool {ε α : Type} (x : Logged ε Pool α) : Logged ε LogicalFile α :=
  x.within pool fun f pool => { f with pool }

/-- A step of the stream. -/
def onStream {α : Type} (x : LogicalStream.Reading α) : Logged LoadError LogicalFile α :=
  EStateM.adaptExcept .format (x.within stream fun f stream => { f with stream })

/-- The sample records of a frame. -/
def frameRecords (frame : Fingerprint) : Logged LoadError LogicalFile (List Record) := do
  let offsets := (← Logged.state).frames.offsets frame
  onStream (offsets.mapM LogicalStream.readRecord)

/-- Notes that a file is not used any more. -/
def close {ε σ : Type} (f : LogicalFile) : Logged ε σ Unit :=
  Logged.note .debug s!"Closing logical file at offset {f.place.offset} (+{f.place.skip})"

end LogicalFile

end WellLog
