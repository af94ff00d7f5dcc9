import WellLog.Text.Blank
import WellLog.Text.Quoted
import WellLog.Track
/-!
# Storage unit labels

A storage unit may begin with a label of 80 characters: the sequence number (4), the version (5),
the structure (6), the largest visible record (5) and the identifier of the storage set (60).

`Track.findLabel` looks for one and consumes it whole or not at all.
-/

namespace WellLog

/-- The label of a storage unit.  The texts have no white space at their ends. -/
structure StorageLabel where
  /-- The sequence number, unless the field is no number. -/
  sequence : Option Nat
  /-- The version of the format. -/
  version : String
  /-- The structure of the storage unit. -/
  unitStructure : String
  /-- The length of the largest visible record, unless the field is no number. -/
  maxRecord : Option Nat
  /-- The identifier of the storage set. -/
  setId : String
  deriving DecidableEq, Repr

namespace StorageLabel

/-- The number of bytes of a label. -/
def size : Nat := 80

/-- The first fifteen bytes show whether this is a label: the version begins with `V1.` and the
structure is `RECORD`. -/
def looksLike (bytes : List UInt8) : Bool :=
  15 ≤ bytes.length && (bytes.drop 4).take 3 == Utf8.encode "V1."
    && (bytes.drop 9).take 6 == Utf8.encode "RECORD"

/-- The label written in 80 bytes. -/
def ofBytes (bytes : List UInt8) : StorageLabel :=
  let field (start length : Nat) : String :=
    Text.trim (Utf8.decode ((bytes.drop start).take length))
  { sequence := Text.number? UInt32.size (field 0 4)
    version := field 4 5
    unitStructure := field 9 6
    maxRecord := Text.number? UInt32.size (field 15 5)
    setId := field 20 60 }

/-- A number that may be missing. -/
def optionalText : Option Nat → String
  | some n => s!"Some({n})"
  | none => "None"

/-- All fields on one line. -/
def toText (l : StorageLabel) : String :=
  "StorageUnitLabel \x7b sequence_number: " ++ optionalText l.sequence
    ++ ", version: " ++ Text.quoted l.version
    ++ ", structure: " ++ Text.quoted l.unitStructure
    ++ ", max_record_length: " ++ optionalText l.maxRecord
    ++ ", storage_set_id: " ++ Text.quoted l.setId ++ " \x7d"

end StorageLabel

/-- What was found where a label could be. -/
inductive LabelProbe where
  /-- A label, which is now behind. -/
  | found (label : StorageLabel)
  /-- The beginning of a label, of which only so many bytes are there. -/
  | cut (available : Nat)
  /-- No label. -/
  | missing
  deriving DecidableEq, Repr

/-- Looks for a label at the track's place. -/
def Track.findLabel : EStateM FormatError Track LabelProbe := do
  let start := (← get).place
  let bytes ← gather Track.read StorageLabel.size
  if bytes.length = StorageLabel.size ∧ StorageLabel.looksLike bytes then
    return .found (.ofBytes bytes)
  else
    moveTo start
    if bytes.length < StorageLabel.size ∧ StorageLabel.looksLike bytes then
      return .cut bytes.length
    else return .missing

end WellLog
