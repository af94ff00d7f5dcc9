import WellLog.Text.Pad
/-!
# What can be wrong with a file

Three kinds of failure.  A `Defect` is data that breaks the rules of the format.  An `IoError` is a
read that did not deliver: the medium refused, or the data ended inside a header, or the bytes read
were a defect.  A `FormatError` is either.

`IsStructural` failures say that the data is unusable from here on; the others are the medium's, and
say nothing about the data.
-/

namespace WellLog

/-- What is wrong with a segment or with the order of segments. -/
inductive SegmentDefect where
  /-- The declared length leaves no room for the smallest segment. -/
  | tooShort (length : Nat)
  /-- Pad bytes are announced where there is no byte to count them. -/
  | noPadCount
  /-- The trailer is longer than the body. -/
  | trailerTooLong (trailer body : Nat)
  /-- A record begins with a segment that continues another. -/
  | orphan (offset : Nat)
  /-- A file header begins inside a visible record. -/
  | headerInside (offset : Nat)
  /-- A record goes on with a segment that does not continue it. -/
  | unlinked (offset : Nat)
  deriving DecidableEq, Repr

/-- Data that breaks the rules of the format. -/
inductive Defect where
  /-- A tape mark does not fit the place it stands at. -/
  | tapeMark (offset kind previous next : Nat)
  /-- A position lies outside its tape segment. -/
  | segmentOverrun (offset skip length : Nat)
  /-- No visible record begins within the bytes searched. -/
  | noVisibleRecord (offset searched : Nat)
  /-- A visible record header is malformed. -/
  | visibleRecord (length : Nat) (pad version : UInt8)
  /-- A segment is malformed or out of order. -/
  | segment (defect : SegmentDefect)
  /-- No representation code has this number. -/
  | unknownCode (code : UInt8)
  /-- A value goes on beyond the end of its record. -/
  | truncated (needed position available : Nat)
  /-- A component stands where its role is not allowed. -/
  | misplaced (role context : String)
  /-- A set has no type. -/
  | untypedSet
  /-- A template attribute has no label. -/
  | unlabelled (index : Nat)
  /-- An object has no name. -/
  | unnamedObject
  deriving DecidableEq, Repr

/-- The kinds of failure of a read. -/
inductive IoKind where
  /-- The file does not exist. -/
  | notFound
  /-- Access was denied. -/
  | permissionDenied
  /-- The data ended too early. -/
  | unexpectedEof
  /-- The data is malformed. -/
  | invalidData
  /-- Anything else. -/
  | other
  deriving DecidableEq, Repr

/-- A read that did not deliver. -/
inductive IoError where
  /-- The medium refused. -/
  | medium (kind : IoKind) (message : String)
  /-- The data ended inside a tape mark. -/
  | tapeMarkCut (got : Nat)
  /-- The data ended inside a visible record header. -/
  | headerCut (offset : Nat)
  /-- The data ended inside a visible record. -/
  | recordCut (missing : Nat)
  /-- The data ended before the end of a skip. -/
  | skipCut (missing : Nat)
  /-- The data ended inside a segment header. -/
  | segmentHeaderCut
  /-- The data ended before the last segment of a record. -/
  | noLastSegment (offset : Nat)
  /-- The data ended inside a segment body. -/
  | bodyCut
  /-- The bytes read are malformed. -/
  | malformed (defect : Defect)
  deriving DecidableEq, Repr

/-- Either the data or the reading of it failed. -/
inductive FormatError where
  /-- The data breaks the rules of the format. -/
  | defect (defect : Defect)
  /-- A read did not deliver. -/
  | io (error : IoError)
  deriving DecidableEq, Repr

/-- The wording of a segment's defect. -/
def SegmentDefect.message : SegmentDefect → String
  | tooShort length => s!"length {length} below minimum 16"
  | noPadCount => "padding flag set on empty segment"
  | trailerTooLong trailer body =>
    s!"trailer of {trailer} bytes exceeds segment body of {body} bytes"
  | orphan offset => s!"record at offset {offset} starts with a continuation segment"
  | headerInside offset => s!"FILE-HEADER at offset {offset} does not start a visible record"
  | unlinked offset =>
    s!"record at offset {offset} continues with a segment lacking the predecessor bit"

/-- The wording of a defect. -/
def Defect.message : Defect → String
  | tapeMark offset kind previous next =>
    s!"invalid tape mark at offset {offset}: type={kind}, prev={previous}, next={next}"
  | segmentOverrun offset skip length =>
    s!"resume position {skip} is outside tape segment at offset {offset} ({length} bytes)"
  | noVisibleRecord offset searched =>
    s!"no visible record found within {searched} bytes of offset {offset}"
  | visibleRecord length pad version =>
    s!"invalid visible record header: length={length}, pad=0x" ++ Text.hexByte pad
      ++ ", version=" ++ toString version.toNat
  | segment defect => "invalid logical record segment: " ++ defect.message
  | unknownCode code => "unknown representation code: " ++ toString code.toNat
  | truncated needed position available =>
    s!"truncated data: needed {needed} bytes at position {position}, {available} available"
  | misplaced role context => s!"unexpected {role} component in {context}"
  | untypedSet => "set component has no type"
  | unlabelled index => s!"template attribute {index} has no label"
  | unnamedObject => "object component has no name"

namespace IoError

/-- The kind of a failed read: what ends too early is an unexpected end, what is malformed is
invalid data, and the medium has kinds of its own. -/
def kind : IoError → IoKind
  | medium kind _ => kind
  | malformed _ => .invalidData
  | _ => .unexpectedEof

/-- The wording of a failed read. -/
def message : IoError → String
  | medium _ message => message
  | tapeMarkCut got => s!"tape mark truncated after {got} bytes"
  | headerCut offset => s!"visible record header truncated at offset {offset}"
  | recordCut missing => s!"visible record truncated, {missing} bytes missing"
  | skipCut missing => s!"stream ended {missing} bytes short of skip target"
  | segmentHeaderCut => "segment header truncated"
  | noLastSegment offset => s!"record at offset {offset} ends before its last segment"
  | bodyCut => "failed to fill whole buffer"
  | malformed defect => defect.message

end IoError

namespace FormatError

/-- The wording of a failure. -/
def message : FormatError → String
  | defect d => d.message
  | io e => "I/O error: " ++ e.message

/-- Whether the data is to blame: it is malformed or ends too early. -/
def isStructural : FormatError → Bool
  | defect _ => true
  | io e => e.kind == .unexpectedEof || e.kind == .invalidData

/-- The failure as that of a read. -/
def toIo : FormatError → IoError
  | defect d => .malformed d
  | io e => e

end FormatError

end WellLog
