import WellLog.Cursor
import WellLog.Medium
/-!
# Tape marks

A tape image puts twelve bytes in front of every tape record: the kind of the mark, the offset of
the mark before it and the offset of the mark after it, each in four bytes with the low one first.
A mark of kind 1 is a file mark and has no record.

A mark `Fits` an offset when it can stand there: its kind is known, the next mark comes after it and
the previous one before it.
-/

namespace WellLog

/-- The twelve bytes in front of a tape record. -/
structure TapeMark where
  /-- 0 in front of a record, 1 for a file mark. -/
  kind : UInt32
  /-- The offset of the mark before. -/
  previous : UInt32
  /-- The offset of the mark after. -/
  next : UInt32
  deriving DecidableEq, Repr

namespace TapeMark

/-- The number of bytes of a mark. -/
def size : Nat := 12

/-- The mark written in twelve bytes. -/
def ofBytes (bytes : List UInt8) : TapeMark :=
  let word (i : Nat) : UInt32 := UInt32.ofNat (littleEndian ((bytes.drop (4 * i)).take 4))
  ⟨word 0, word 1, word 2⟩

/-- Four bytes, the low one first. -/
def wordBytes (w : UInt32) : List UInt8 :=
  let byte (i : Nat) : UInt8 := UInt8.ofNat (w.toNat >>> (8 * i))
  [byte 0, byte 1, byte 2, byte 3]

/-- The twelve bytes of a mark. -/
def toBytes (m : TapeMark) : List UInt8 :=
  wordBytes m.kind ++ wordBytes m.previous ++ wordBytes m.next

/-- The mark ends a file. -/
def IsFileMark (m : TapeMark) : Prop := m.kind = 1

instance (m : TapeMark) : Decidable m.IsFileMark := inferInstanceAs (Decidable (m.kind = 1))

/-- The mark can stand at `offset`. -/
structure Fits (m : TapeMark) (offset : Nat) : Prop where
  /-- The kind is one of the two. -/
  kind : m.kind = 0 ∨ m.kind = 1
  /-- The next mark does not overlap this one. -/
  next : offset + size ≤ m.next.toNat
  /-- The previous mark comes before; the first mark has none. -/
  previous : if offset = 0 then m.previous.toNat = 0 else m.previous.toNat < offset

theorem fits_iff {m : TapeMark} {offset : Nat} :
    m.Fits offset ↔ (m.kind = 0 ∨ m.kind = 1) ∧ offset + size ≤ m.next.toNat ∧
      if offset = 0 then m.previous.toNat = 0 else m.previous.toNat < offset :=
  ⟨fun h => ⟨h.kind, h.next, h.previous⟩, fun h => ⟨h.1, h.2.1, h.2.2⟩⟩

instance (m : TapeMark) (offset : Nat) : Decidable (m.Fits offset) :=
  decidable_of_iff _ fits_iff.symm

/-- The number of bytes between a mark at `offset` and the next one. -/
def dataLength (m : TapeMark) (offset : Nat) : Nat := m.next.toNat - (offset + size)

/-- What is wrong with a mark that does not fit. -/
def misfit (m : TapeMark) (offset : Nat) : Defect :=
  .tapeMark offset m.kind.toNat m.previous.toNat m.next.toNat

/-- Accepts a mark that can stand at `offset`. -/
def check (m : TapeMark) (offset : Nat) : Except Defect Unit :=
  if m.Fits offset then .ok () else .error (m.misfit offset)

/-- Reads a mark, or nothing exactly at the end. -/
def read : EStateM IoError Reader (Option TapeMark) := do
  let bytes ← gather Reader.read size
  if bytes.length = 0 then return none
  else if bytes.length = size then return some (ofBytes bytes)
  else throw (.tapeMarkCut bytes.length)

/-- The mark at the reader's place if there is one that fits it.  The reader stays where it is. -/
def detect : EStateM IoError Reader (Option TapeMark) := do
  let start := (← get).position
  let outcome ← attempt read
  modify (·.seek start)
  match outcome with
  | .ok (some m) => return if m.Fits start then some m else none
  | .ok none => return none
  | .error e => if (FormatError.io e).isStructural then return none else throw e

end TapeMark

end WellLog
