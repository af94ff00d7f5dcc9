import WellLog.Error
import WellLog.Text.Utf8
import WellLog.Value
/-!
# Reading a record body

A `Cursor` stands in a record body: it has the bytes that are left and knows how many it has passed.
A decoder moves the cursor forward; when it fails, the cursor stays behind the parts that were read.

This module holds the decoders of the elementary parts: whole numbers, identifiers, strings, object
names and times.  Multi-byte numbers have their high byte first.
-/

namespace WellLog

/-- A place in a record body. -/
structure Cursor where
  /-- The number of bytes passed. -/
  position : Nat
  /-- The bytes that are left. -/
  rest : List UInt8
  deriving DecidableEq, Repr

/-- A decoder: it moves a cursor, and keeps its place when it fails. -/
abbrev Decode := EStateM Defect Cursor

/-- The number written by bytes, the high one first. -/
def bigEndian (bytes : List UInt8) : Nat := bytes.foldl (fun n b => n * 256 + b.toNat) 0

/-- The number written by bytes, the low one first. -/
def littleEndian (bytes : List UInt8) : Nat := bytes.foldr (fun b n => b.toNat + 256 * n) 0

/-- Whether a list has `n` elements or more; it looks no further than that. -/
def hasAtLeast {α : Type} (n : Nat) (l : List α) : Bool := n == 0 || !(l.drop (n - 1)).isEmpty

theorem hasAtLeast_iff {α : Type} {n : Nat} {l : List α} : hasAtLeast n l ↔ n ≤ l.length := by
  simp only [hasAtLeast, Bool.or_eq_true, beq_iff_eq, Bool.not_eq_true', List.isEmpty_eq_false_iff,
    ne_eq, List.drop_eq_nil_iff]
  omega

namespace Cursor

/-- The start of a body. -/
def ofList (body : List UInt8) : Cursor := ⟨0, body⟩

/-- The number of bytes left. -/
def remaining (c : Cursor) : Nat := c.rest.length

/-- Nothing is left. -/
def isEmpty (c : Cursor) : Bool := c.rest.isEmpty

/-- The next byte, which stays where it is. -/
def peek? (c : Cursor) : Option UInt8 := c.rest.head?

end Cursor

namespace Decode

/-- The next `n` bytes. -/
def take (n : Nat) : Decode (List UInt8) := do
  let c ← get
  if hasAtLeast n c.rest then
    set (⟨c.position + n, c.rest.drop n⟩ : Cursor)
    return c.rest.take n
  else throw (.truncated n c.position c.remaining)

/-- One byte. -/
def byte : Decode UInt8 := return UInt8.ofNat (bigEndian (← take 1))

/-- A whole number of `width` bytes. -/
def unsigned (width : Nat) : Decode Nat := return bigEndian (← take width)

/-- A whole number of `width` bytes in two's complement. -/
def signed (width : Nat) : Decode Int :=
  return Int.bmod (Int.ofNat (← unsigned width)) (1 <<< (8 * width))

/-- A whole number of one, two or four bytes, as the two high bits of the first byte say: below 128,
below `2 ^ 14` or below `2 ^ 30`. -/
def varying : Decode Nat := do
  let c ← get
  match c.peek? with
  | none => throw (.truncated 1 c.position 0)
  | some first =>
    if first < 0x80 then unsigned 1
    else if first < 0xC0 then return (← unsigned 2) % 0x4000
    else return (← unsigned 4) % 0x40000000

/-- An identifier: its length in one byte, then its text. -/
def identifier : Decode String := do
  let length ← byte
  return Utf8.decode (← take length.toNat)

/-- A string: its length as a varying number, then its text. -/
def string : Decode String := do
  let length ← varying
  return Utf8.decode (← take length)

/-- The name of an object. -/
def objectName : Decode ObjectName := do
  let origin ← varying
  let copy ← byte
  let id ← identifier
  return ⟨origin, copy, id⟩

/-- A date and time in eight bytes: the years from 1900, the time zone and the month in one byte,
day, hour, minute and second, and two bytes for the milliseconds. -/
def dateTime : Decode DateTime := do
  let year ← byte
  let zoneMonth ← byte
  let day ← byte
  let hour ← byte
  let minute ← byte
  let second ← byte
  let millisecond ← unsigned 2
  return ⟨year.toNat + 1900, zoneMonth / 16, zoneMonth % 16, day, hour, minute, second,
    millisecond⟩

/-- A single precision number. -/
def single : Decode Binary32 := return ⟨UInt32.ofNat (← unsigned 4)⟩

/-- A double precision number. -/
def double : Decode Binary64 := return ⟨UInt64.ofNat (← unsigned 8)⟩

end Decode

end WellLog
