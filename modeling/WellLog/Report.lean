import WellLog.LogicalFile
/-!
# Reports

What can be reported about the logical files of a physical file: a line for each file, the number of
objects of every type, objects with their attributes, or the outcome of linking.

`Report.toText` writes a report for reading.
-/

namespace WellLog

/-- A logical file in short. -/
structure FileSummary where
  /-- Its number, from 0. -/
  index : Nat
  /-- Its place. -/
  place : Place
  /-- It ends in bytes that are no record. -/
  broken : Bool
  /-- The last storage unit label before it. -/
  label : Option StorageLabel
  /-- The number of its objects. -/
  objects : Nat
  /-- The number of its sample records. -/
  frameRecords : Nat
  deriving Repr

/-- The types of a logical file. -/
structure TypeSummary where
  /-- The number of the file. -/
  index : Nat
  /-- The number of objects of every type, in the order of types. -/
  counts : List (String × Nat)
  deriving Repr

/-- An object of a logical file. -/
structure ObjectSummary where
  /-- The number of the file. -/
  file : Nat
  /-- The name of the object. -/
  fingerprint : Fingerprint
  /-- Its type has a schema. -/
  known : Bool
  /-- Its attributes. -/
  attributes : List Attribute
  /-- The targets of its references by label; one that is not there is missing. -/
  links : List (String × List (Option Fingerprint))
  deriving Repr

/-- The outcome of linking a logical file. -/
structure LinkSummary where
  /-- The number of the file. -/
  index : Nat
  /-- The outcome. -/
  report : LinkReport
  deriving Repr

/-- A report. -/
inductive Report where
  /-- All logical files. -/
  | files (lines : List FileSummary)
  /-- The types of all logical files. -/
  | types (lines : List TypeSummary)
  /-- Objects. -/
  | objects (lines : List ObjectSummary)
  /-- The outcomes of linking. -/
  | links (lines : List LinkSummary)
  deriving Repr

/-- A line. -/
def FileSummary.toText (s : FileSummary) : String :=
  Text.padLeft 3 (toString s.index) ' '
    ++ s!"  offset {s.place.offset}+{s.place.skip}  {s.objects} objects"
    ++ s!"  {s.frameRecords} frame records"
    ++ (match s.label with
      | some label => "  set " ++ Text.trim label.setId
      | none => "")
    ++ (if s.broken then "  (broken)" else "") ++ "\n"

/-- A heading and a line for every type. -/
def TypeSummary.toText (s : TypeSummary) : String :=
  s!"logical file {s.index}\n" ++ String.join (s.counts.map fun c =>
    "  " ++ Text.padRight 28 c.1 ' ' ++ Text.padLeft 6 (toString c.2) ' ' ++ "\n")

/-- The line of an attribute: its label, its values and its units if it has some. -/
def Attribute.toText (a : Attribute) : String :=
  "    " ++ Text.padRight 24 a.label ' ' ++ ", ".intercalate (a.values.map Value.toText)
    ++ (if a.units.isEmpty then "" else " [" ++ a.units ++ "]") ++ "\n"

/-- A heading, and a line for every attribute and every label with links. -/
def ObjectSummary.toText (s : ObjectSummary) : String :=
  s!"[{s.file}] {s.fingerprint.toText}\n" ++ String.join (s.attributes.map Attribute.toText)
    ++ String.join (s.links.map fun link =>
      let targets := link.2.map fun target => (target.map Fingerprint.toText).getD "<missing>"
      "    " ++ link.1 ++ " -> " ++ ", ".intercalate targets ++ "\n")

/-- A heading, and a line for every dangling reference. -/
def LinkSummary.toText (s : LinkSummary) : String :=
  s!"logical file {s.index}: {s.report.resolved} resolved, "
    ++ s!"{s.report.dangling.length} dangling\n"
    ++ String.join (s.report.dangling.map fun d =>
      s!"    {d.source.toText} {d.label} -> {d.target.toText}\n")

/-- The report for reading. -/
def Report.toText : Report → String
  | files lines => String.join (lines.map FileSummary.toText)
  | types lines => String.join (lines.map TypeSummary.toText)
  | objects lines => String.join (lines.map ObjectSummary.toText)
  | links lines => String.join (lines.map LinkSummary.toText)

end WellLog
