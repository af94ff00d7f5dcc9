import WellLog.Image.Record
import WellLog.TapeMark
/-!
# Writing tape images

A tape image is a sequence of tape records and file marks.  Every one of them begins with a tape
mark, which points back to the one before and ahead to the one after.
-/

namespace WellLog.Image

/-- One part of a tape. -/
inductive TapePart where
  /-- A record. -/
  | record (data : List UInt8)
  /-- A file mark. -/
  | fileMark
  deriving DecidableEq, Repr

namespace TapePart

/-- The kind of the mark in front. -/
def kind : TapePart → UInt32
  | record _ => 0
  | fileMark => 1

/-- The bytes behind the mark. -/
def data : TapePart → List UInt8
  | record data => data
  | fileMark => []

/-- The tape mark of a part that stands at `offset`. -/
def mark (part : TapePart) (previous offset : Nat) : TapeMark :=
  ⟨part.kind, UInt32.ofNat previous,
    UInt32.ofNat (offset + TapeMark.size + part.data.length)⟩

/-- Data in tape records of at most `size` bytes. -/
def records (data : List UInt8) (size : Nat) : List TapePart := (pieces size data).map record

end TapePart

/-- The parts of a tape from `offset` on, behind a mark at `previous`. -/
def tapeFrom (previous offset : Nat) : List TapePart → List UInt8
  | [] => []
  | part :: others =>
    (part.mark previous offset).toBytes ++ part.data
      ++ tapeFrom offset (offset + TapeMark.size + part.data.length) others

/-- A tape image. -/
def tape (parts : List TapePart) : List UInt8 := tapeFrom 0 0 parts

end WellLog.Image
