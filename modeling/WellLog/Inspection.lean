import WellLog.CommandLine
import WellLog.LoadSettings.Json
import WellLog.Report.Json
import WellLog.Schema.Standard
import WellLog.Segmentation
/-!
# Inspection

`Invocation.run` does what a command line asks for: it reads the settings, loads the physical file
and writes a report.  Files are given by a function from paths to their bytes.
-/

namespace WellLog

/-- The files that can be read, by path. -/
abbrev Files := String → Except IoError (Array UInt8)

/-- Why there is no report. -/
inductive InspectionError where
  /-- The settings cannot be read. -/
  | unreadableSettings (path : String)
  /-- The settings are not in the form of settings. -/
  | badSettings (path : String)
  /-- The physical file cannot be loaded. -/
  | loading (path : String) (cause : LoadError)
  /-- A query text is no pattern. -/
  | badPattern
  deriving DecidableEq, Repr

/-- The wording of a failure. -/
def InspectionError.message : InspectionError → String
  | unreadableSettings path => "reading " ++ path
  | badSettings path => "parsing " ++ path
  | loading path _ => "loading " ++ path
  | badPattern => QueryError.badPattern.message

/-- The steps of an inspection. -/
abbrev Inspecting := Logged InspectionError Unit

/-- The source of a file.  Opening it fails if the file cannot be read. -/
def Files.source (files : Files) (path : String) : Source :=
  match files path with
  | .ok image => .ofBytes image
  | .error e => ⟨#[], fun _ => .error e⟩

namespace Invocation

/-- The settings in a file. -/
def readSettings (files : Files) (path : String) : Inspecting LoadSettings :=
  match files path with
  | .error _ => throw (.unreadableSettings path)
  | .ok bytes =>
    match String.fromUTF8? ⟨bytes⟩ with
    | none => throw (.unreadableSettings path)
    | some text =>
      match LoadSettings.ofJson? text with
      | none => throw (.badSettings path)
      | some settings => return settings

/-- The settings in the file that is given, as the options change them. -/
def settings (i : Invocation) (files : Files) : Inspecting LoadSettings := do
  let base : LoadSettings ← match i.config with
    | some path => readSettings files path
    | none => pure {}
  return {
    cacheMetadata := base.cacheMetadata && !i.noCache
    searchLimit := i.searchLimit.getD base.searchLimit
    linkOnLoad := base.linkOnLoad }

/-- The logical files of the physical file. -/
def load (i : Invocation) (files : Files) (settings : LoadSettings) :
    Inspecting (List LogicalFile) := do
  Logged.note .info ("Loading " ++ i.path)
  let loaded ← EStateM.adaptExcept (.loading i.path)
    (Segmentation.load (files.source i.path) settings .standard)
  Logged.note .debug (s!"{i.path}: {loaded.length} logical files")
  return loaded

/-- A query, which can only fail for its texts. -/
def query {α : Type} (x : Logged QueryError Pool α) : Logged InspectionError LogicalFile α :=
  EStateM.adaptExcept (fun _ => .badPattern) (LogicalFile.onPool x)

/-- The number of objects of every type. -/
def countObjects : Logged InspectionError LogicalFile (List (String × Nat)) := do
  (← Logged.state).pool.types.mapM fun type => do
    return (type, (← query (Pool.find type none .exact)).length)

/-- A logical file in short. -/
def summarizeFile (index : Nat) : Logged InspectionError LogicalFile FileSummary := do
  let counts ← countObjects
  let f ← Logged.state
  return ⟨index, f.place, f.broken, f.label, counts.foldl (fun n c => n + c.2) 0, f.frames.size⟩

/-- An instance with its links. -/
def summarizeObject (file : Nat) (pool : Pool) (id : InstanceId) : Option ObjectSummary :=
  (pool.instance? id).map fun i =>
    { file
      fingerprint := i.raw.fingerprint
      known := (pool.registry.shape i.raw).isSome
      attributes := i.raw.attributes
      links := (pool.linkedLabels id).map fun label =>
        (label, (pool.linked id label).map fun slot =>
          (slot.bind pool.instance?).map (·.raw.fingerprint)) }

/-- The objects of a file that a query asks for. -/
def summarizeObjects (type : String) (name : Option String) (exact links : Bool) (file : Nat) :
    Logged InspectionError LogicalFile (List ObjectSummary) := do
  if links then let _ ← query Pool.link
  let found ← query (Pool.find type name (if exact then .exact else .pattern))
  let pool := (← Logged.state).pool
  return found.filterMap (summarizeObject file pool)

/-- The outcome of linking a file. -/
def summarizeLinks (index : Nat) : Logged InspectionError LogicalFile LinkSummary := do
  return ⟨index, ← query Pool.link⟩

/-- The same for every logical file, with its number. -/
def forFiles {α : Type} (x : Nat → Logged InspectionError LogicalFile α)
    (files : List LogicalFile) : Inspecting (List α) :=
  files.zipIdx.mapM fun (f, index) => return (← Logged.apart f (x index)).1

/-- The report on logical files. -/
def report (command : Command) (files : List LogicalFile) : Inspecting Report :=
  match command with
  | .files => .files <$> forFiles summarizeFile files
  | .types => .types <$> forFiles (fun index => return ⟨index, ← countObjects⟩) files
  | .objects type name exact links => do
    return .objects (← forFiles (summarizeObjects type name exact links) files).flatten
  | .link => .links <$> forFiles summarizeLinks files

/-- The text of a report in a format. -/
def write (r : Report) : ReportFormat → String
  | .text => r.toText
  | .json => r.toDocument.toText

/-- Does what the command line asks for.  The settings that were used and the text of the report are
returned. -/
def run (i : Invocation) (files : Files) : Inspecting (LoadSettings × String) := do
  let settings ← i.settings files
  let loaded ← i.load files settings
  return (settings, write (← report i.command loaded) i.format)

end Invocation

end WellLog
