import WellLog.Inspection
/-!
# The program

`main` reads the files that the command line names, and prints the report.  Warnings go to the error
output.
-/

namespace WellLog

/-- The bytes of a file. -/
def readBytes (path : String) : IO (Except IoError (Array UInt8)) := do
  try
    return .ok (← IO.FS.readBinFile path).data
  catch e =>
    match e with
    | .noFileOrDirectory .. =>
      return .error (.medium .notFound "No such file or directory (os error 2)")
    | e => return .error (.medium .other e.toString)

/-- The notes that are printed. -/
def printNotes (notes : Array Note) : IO Unit :=
  for note in notes do
    match note.level with
    | .warning => IO.eprintln (" WARN " ++ note.message)
    | .error => IO.eprintln ("ERROR " ++ note.message)
    | _ => pure ()

/-- How to call the program. -/
def usage : String :=
  String.join ["usage: welllog [-o text|json] [--config FILE] [--search-limit BYTES] [--no-cache]",
    "\n         files FILE | types FILE | link FILE |",
    "\n         objects FILE -t TYPE [-n NAME] [--exact] [--links]"]

end WellLog

open WellLog in
/-- Runs one command line. -/
def main (words : List String) : IO UInt32 := do
  match Invocation.ofWords? words with
  | none =>
    IO.eprintln usage
    return 2
  | some i =>
    let image ← readBytes i.path
    let settings ← match i.config with
      | some path => readBytes path
      | none => pure image
    let files : Files := fun path => if path = i.path then image else settings
    match i.run files ⟨(), #[]⟩ with
    | .ok result j =>
      printNotes j.notes
      IO.print result.2
      return 0
    | .error e j =>
      printNotes j.notes
      IO.eprintln ("Error: " ++ e.message)
      if let .loading _ cause := e then IO.eprintln ("\nCaused by:\n    " ++ cause.message)
      return 1
