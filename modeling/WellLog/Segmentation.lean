import WellLog.LoadSettings
import WellLog.LogicalFile
import WellLog.Record.Scan
/-!
# Segmentation

A `Segmentation` walks over a physical file once and splits it into logical files.  It goes on in
turns.  Every turn opens the file anew, at the place where the turn before left off, and reads up to
the end of a logical file, or up to a file mark in front of one.

`Segmentation.nextFile` takes turns until there is a logical file with records.  A logical file that
ends in bytes that are no record is the last one; so is one that is followed by bytes without a
visible record.
-/

namespace WellLog

/-- A physical file that is being split into logical files. -/
structure Segmentation where
  /-- The physical file. -/
  source : Source
  /-- How often it was opened. -/
  openings : Nat
  /-- The settings. -/
  settings : LoadSettings
  /-- The schemas for the objects of every logical file. -/
  registry : Registry
  /-- It is a tape image. -/
  framed : Bool
  /-- Where the next turn takes up. -/
  next : Place
  /-- The last storage unit label. -/
  label : Option StorageLabel
  /-- The number of logical files so far. -/
  emitted : Nat
  /-- There are no more logical files. -/
  done : Bool

namespace Segmentation

/-- The steps of a segmentation. -/
abbrev Segmenting := Logged LoadError Segmentation

/-- What a turn leads to. -/
inductive Turn where
  /-- Another turn. -/
  | again
  /-- The end. -/
  | finished
  /-- A logical file. -/
  | file (f : LogicalFile)

/-- The segmentation of a physical file, from its start.  The file is a tape image if it begins with
a tape mark. -/
def start (source : Source) (settings : LoadSettings) (registry : Registry) :
    Logged LoadError Unit Segmentation := do
  match source.reader 0 with
  | .error e => throw (.io e)
  | .ok reader =>
    match TapeMark.detect reader with
    | .error e _ => throw (.format (.io e))
    | .ok mark _ =>
      let framed := mark.isSome
      Logged.note .debug ("Physical file is " ++ if framed then "tape framed" else "unframed")
      return ⟨source, 1, settings, registry, framed, .start 0, none, 0, false⟩

/-- A step with a stream or a track of its own. -/
def aside {σ α : Type} (s : σ) (x : Logged FormatError σ α) : Segmenting (α × σ) :=
  EStateM.adaptExcept .format (Logged.apart s x)

/-- Changes the segmentation. -/
def update (f : Segmentation → Segmentation) : Segmenting Unit :=
  modify fun j => { j with state := f j.state }

/-- Accepts what did not fail. -/
def accept {ε α : Type} (wrap : ε → LoadError) : Except ε α → Segmenting α
  | .ok a => return a
  | .error e => throw (wrap e)

/-- The next opening of the physical file, taken up at the next place. -/
def openTrack : Segmenting Track := do
  let s ← Logged.state
  update ({ · with openings := s.openings + 1 })
  let reader ← accept .io (s.source.reader s.openings)
  accept .format (Track.openAt reader s.framed s.next)

/-- What comes next on a track. -/
def ahead (track : Track) : Segmenting (Track.Ahead × Track) := aside track Track.peek

/-- Ends a turn where the track stops, which is behind a file mark or at the end of the medium. -/
def stopAt (stop : Stop) (track : Track) : Segmenting Turn := do
  update ({ · with next := track.place })
  match stop with
  | .fileMark => return .again
  | .mediumEnd =>
    update ({ · with done := true })
    return .finished

/-- Reads the storage unit label if there is one.  Only the first logical file is expected to have
one. -/
def readLabel (track : Track) : Segmenting Track := do
  let s ← Logged.state
  let first := s.emitted == 0 && s.label.isNone
  let (probe, track) ← aside track Track.findLabel
  match probe with
  | .found label =>
    if !first then
      Logged.note .warning
        s!"Storage unit label after logical file {s.emitted}, replacing the previous one"
    Logged.note .debug ("Storage unit label: " ++ label.toText)
    update ({ · with label := some label })
  | .cut available =>
    Logged.note .info s!"Storage unit label truncated to {available} bytes, ignored"
  | .missing =>
    if first then Logged.note .error "No storage unit label at the start of the file"
  return track

/-- Searches for the first visible record on a track. -/
def search (limit : Nat) (track : Track) : Segmenting (Place × Track) :=
  EStateM.adaptExcept .ofSearch (Logged.apart track (Track.locateVisible limit))

/-- Finds the first visible record of a logical file.  Behind the last logical file there may be
bytes without one. -/
def locate (track : Track) : Segmenting (Option (Place × Track)) := do
  let s ← Logged.state
  match ← attempt (search s.settings.searchLimit track) with
  | .ok found => return some found
  | .error e@(.format (.defect missing@(.noVisibleRecord ..))) =>
    if s.emitted = 0 then throw e
    Logged.note .warning
      s!"Trailing bytes after logical file {s.emitted} ignored: {missing.message}"
    update ({ · with next := track.place, done := true })
    return none
  | .error e => throw e

/-- Finds the records of a logical file.  The next turn takes up behind them, unless nothing can be
read there. -/
def indexRecords (stream : LogicalStream) : Segmenting (RecordIndex × LogicalStream) := do
  let (index, stream) ← aside stream LogicalStream.findRecords
  update ({ · with next := index.resume })
  if index.resume.le stream.origin then
    Logged.note .warning
      s!"Logical file at offset {stream.origin.offset} does not advance the read position, stopping"
    update ({ · with done := true })
  if index.isBroken then
    Logged.note .warning
      s!"Logical file at offset {stream.origin.offset} ends in a broken record, stopping after it"
    update ({ · with done := true })
  return (index, stream)

/-- The file with its references resolved, if the settings ask for it. -/
def linkOnLoad (f : LogicalFile) : Segmenting LogicalFile := do
  if (← Logged.state).settings.linkOnLoad then
    return (← Logged.apart f (LogicalFile.onPool Pool.link)).2
  else return f

/-- The logical file with the records of an index. -/
def loadFile (index : RecordIndex) (stream : LogicalStream) : Segmenting LogicalFile := do
  let (records, stream) ← aside stream (LogicalStream.extractRecords index.explicits)
  let sets ← Record.objectSets records
  let (frames, stream) ← aside stream (LogicalStream.indexFrames index.implicits)
  let s ← Logged.state
  let ((), pool) ← Logged.apart (.empty s.registry) (Pool.addSets sets)
  let file ← linkOnLoad
    ⟨stream, s.label, pool.setCaching s.settings.cacheMetadata, frames, index.isBroken⟩
  update ({ · with emitted := s.emitted + 1 })
  Logged.note .info (s!"Logical file {s.emitted + 1} at offset {file.place.offset}: "
    ++ s!"{index.explicits.length} metadata records, "
    ++ s!"{index.implicits.length} frame data records")
  return file

/-- One turn. -/
def turn : Segmenting Turn := do
  match ← ahead (← openTrack) with
  | (.stop stop, track) =>
    if stop = .fileMark then
      Logged.note .debug s!"File mark before offset {track.place.offset}, skipping"
    stopAt stop track
  | (.byte _, track) =>
    match ← ahead (← readLabel track) with
    | (.stop stop, track) => stopAt stop track
    | (.byte _, track) =>
      match ← locate track with
      | none => return .finished
      | some (origin, track) =>
        let stream ← accept .format (LogicalStream.openAt track origin)
        let (index, stream) ← indexRecords stream
        if index.isEmpty then
          Logged.note .debug s!"Empty logical file at offset {origin.offset}, skipping"
          return .again
        else return .file (← loadFile index stream)

/-- Turns until there is a logical file or the end, at most `most` of them. -/
def turns : (most : Nat) → Segmenting (Option LogicalFile)
  | 0 => return none
  | most + 1 => do
    if (← Logged.state).done then return none
    else
      match ← turn with
      | .again => turns most
      | .finished => return none
      | .file f => return some f

/-- The next logical file; none when there are no more.  Every turn that asks for another one reads
bytes that none has read before, so there are no more turns than bytes.  Nothing follows a
failure. -/
def nextFile : Segmenting (Option LogicalFile) := do
  match ← attempt (turns ((← Logged.state).source.image.size + 2)) with
  | .ok file => return file
  | .error e =>
    update ({ · with done := true })
    throw e

/-- All logical files from here on, at most `most` of them. -/
def files : (most : Nat) → Segmenting (List LogicalFile)
  | 0 => return []
  | most + 1 => do
    match ← nextFile with
    | none => return []
    | some f => return f :: (← files most)

/-- All logical files of a physical file.  There are fewer of them than bytes. -/
def load (source : Source) (settings : LoadSettings) (registry : Registry) :
    Logged LoadError Unit (List LogicalFile) := do
  let s ← start source settings registry
  let (files, _) ← Logged.apart s (files (source.image.size + 1))
  return files

end Segmentation

end WellLog
