import WellLog.Json.Document
import WellLog.Report
/-!
# Reports in JSON

`Report.toDocument` has the same data as the report for reading, for other programs.
-/

namespace WellLog

open Json

/-- Offset and bytes to skip. -/
def Place.toDocument (p : Place) : Document :=
  .object [("offset", .ofNat p.offset), ("skip", .ofNat p.skip)]

/-- The fields of a label. -/
def StorageLabel.toDocument (l : StorageLabel) : Document :=
  .object [("sequence_number", .ofOption .ofNat l.sequence), ("version", .string l.version),
    ("structure", .string l.unitStructure), ("max_record_length", .ofOption .ofNat l.maxRecord),
    ("storage_set_id", .string l.setId)]

/-- The parts of a fingerprint. -/
def Fingerprint.toDocument (f : Fingerprint) : Document :=
  .object [("object_type", .string f.type), ("name", .string f.name), ("origin", .ofNat f.origin),
    ("copy", .ofNat f.copy.toNat)]

/-- The parts of an object name. -/
def ObjectName.toDocument (n : ObjectName) : Document :=
  .object [("origin", .ofNat n.origin), ("copy", .ofNat n.copy.toNat), ("id", .string n.id)]

/-- The parts of a date and time. -/
def DateTime.toDocument (t : DateTime) : Document :=
  .object [("year", .ofNat t.year), ("time_zone", .ofNat t.zone.toNat),
    ("month", .ofNat t.month.toNat), ("day", .ofNat t.day.toNat), ("hour", .ofNat t.hour.toNat),
    ("minute", .ofNat t.minute.toNat), ("second", .ofNat t.second.toNat),
    ("millisecond", .ofNat t.millisecond)]

/-- A number.  NaN and the infinities have no form in JSON. -/
def Binary64.toDocument (x : Binary64) : Document := .ofOption .number x.toCompact?

/-- A value under the name of its kind. -/
def Value.toDocument : Value → Document
  | int n => .object [("Int", .number (toString n))]
  | float x => .object [("Float", x.toDocument)]
  | validated x bounds => .object [("Validated", .object
      [("value", x.toDocument), ("bounds", .array (bounds.map Binary64.toDocument))])]
  | complex re im => .object [("Complex", .object
      [("re", re.toDocument), ("im", im.toDocument)])]
  | text s => .object [("Text", .string s)]
  | time t => .object [("Time", t.toDocument)]
  | name n => .object [("Name", n.toDocument)]
  | reference type n => .object [("Reference", .object
      [("object_type", .string type), ("name", n.toDocument)])]
  | attributeReference type n label => .object [("AttributeReference", .object
      [("object_type", .string type), ("name", n.toDocument), ("label", .string label)])]
  | status b => .object [("Status", .bool b)]

/-- Label, units and values. -/
def Attribute.toDocument (a : Attribute) : Document :=
  .object [("label", .string a.label), ("units", .string a.units),
    ("values", .array (a.values.map Value.toDocument))]

/-- All of a summary. -/
def FileSummary.toDocument (s : FileSummary) : Document :=
  .object [("index", .ofNat s.index), ("offset", s.place.toDocument), ("broken", .bool s.broken),
    ("storage_unit_label", .ofOption StorageLabel.toDocument s.label),
    ("objects", .ofNat s.objects), ("frame_records", .ofNat s.frameRecords)]

/-- All of a summary. -/
def TypeSummary.toDocument (s : TypeSummary) : Document :=
  .object [("index", .ofNat s.index),
    ("types", .object (s.counts.map fun c => (c.1, .ofNat c.2)))]

/-- All of a summary.  Without links there is no member for them. -/
def ObjectSummary.toDocument (s : ObjectSummary) : Document :=
  let target : Option Fingerprint → Document := .ofOption fun f => .string f.toText
  let links := s.links.map fun link => (link.1, Document.array (link.2.map target))
  .object ([("file", .ofNat s.file), ("fingerprint", .string s.fingerprint.toText),
    ("known", .bool s.known), ("attributes", .array (s.attributes.map Attribute.toDocument))]
    ++ if links.isEmpty then [] else [("links", .object links)])

/-- The objects and the label of a dangling reference. -/
def Dangling.toDocument (d : Dangling) : Document :=
  .object [("from", d.source.toDocument), ("label", .string d.label),
    ("target", d.target.toDocument)]

/-- All of a summary. -/
def LinkSummary.toDocument (s : LinkSummary) : Document :=
  .object [("index", .ofNat s.index), ("resolved", .ofNat s.report.resolved),
    ("dangling", .array (s.report.dangling.map Dangling.toDocument))]

/-- The summaries of a report in order. -/
def Report.toDocument : Report → Document
  | files lines => .array (lines.map FileSummary.toDocument)
  | types lines => .array (lines.map TypeSummary.toDocument)
  | objects lines => .array (lines.map ObjectSummary.toDocument)
  | links lines => .array (lines.map LinkSummary.toDocument)

end WellLog
