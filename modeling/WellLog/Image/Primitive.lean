import WellLog.Text.Utf8
import WellLog.Value
/-!
# Writing elementary parts

The bytes of whole numbers, identifiers, strings and object names, as a cursor reads them.  Every
number is written in a field of fixed width and keeps only what fits into it: an identifier of 256
bytes or more gets a length that is too small.
-/

namespace WellLog.Image

/-- The low `width` bytes of a number, the high one first. -/
def bigEndianBytes : (width : Nat) → Nat → List UInt8
  | 0, _ => []
  | width + 1, n => UInt8.ofNat (n >>> (8 * width)) :: bigEndianBytes width n

/-- A number in one, two or four bytes.  The two high bits say how many; of a number that needs them
only the others are kept. -/
def varying (n : Nat) : List UInt8 :=
  if n < 0x80 then bigEndianBytes 1 n
  else if n < 0x4000 then bigEndianBytes 2 (n + 0x8000)
  else bigEndianBytes 4 (n ||| 0xC0000000)

/-- An identifier: a length of one byte and the text. -/
def identifier (text : String) : List UInt8 :=
  let bytes := Utf8.encode text
  bigEndianBytes 1 bytes.length ++ bytes

/-- A string: a length of varying width and the text. -/
def string (text : String) : List UInt8 :=
  let bytes := Utf8.encode text
  varying bytes.length ++ bytes

/-- An object name. -/
def objectName (n : ObjectName) : List UInt8 := varying n.origin ++ n.copy :: identifier n.id

/-- A signed integer of four bytes. -/
def signedLong (n : Int) : List UInt8 := bigEndianBytes 4 (n % 4294967296).toNat

/-- A double precision number. -/
def double (x : Binary64) : List UInt8 := bigEndianBytes 8 x.bits.toNat

end WellLog.Image
