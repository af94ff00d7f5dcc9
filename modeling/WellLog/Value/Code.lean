/-!
# Representation codes

A representation code says how the bytes of a value are to be read.  There are 27 of them, numbered
from 1.
-/

namespace WellLog

/-- How a value is written. -/
inductive Code where
  /-- Low precision floating point. -/
  | fshort
  /-- Single precision floating point. -/
  | fsingl
  /-- Single precision with one bound. -/
  | fsing1
  /-- Single precision with two bounds. -/
  | fsing2
  /-- Single precision of base 16. -/
  | isingl
  /-- Single precision with its 16-bit words swapped. -/
  | vsingl
  /-- Double precision floating point. -/
  | fdoubl
  /-- Double precision with one bound. -/
  | fdoub1
  /-- Double precision with two bounds. -/
  | fdoub2
  /-- Single precision complex. -/
  | csingl
  /-- Double precision complex. -/
  | cdoubl
  /-- Signed integer of one byte. -/
  | sshort
  /-- Signed integer of two bytes. -/
  | snorm
  /-- Signed integer of four bytes. -/
  | slong
  /-- Unsigned integer of one byte. -/
  | ushort
  /-- Unsigned integer of two bytes. -/
  | unorm
  /-- Unsigned integer of four bytes. -/
  | ulong
  /-- Unsigned integer of one, two or four bytes. -/
  | uvari
  /-- Identifier. -/
  | ident
  /-- String. -/
  | ascii
  /-- Date and time. -/
  | dtime
  /-- Number of an origin. -/
  | origin
  /-- Object name. -/
  | obname
  /-- Reference to an object. -/
  | objref
  /-- Reference to an attribute. -/
  | attref
  /-- Yes or no. -/
  | status
  /-- Units expression. -/
  | units
  deriving DecidableEq, Repr

namespace Code

/-- All codes in the order of their numbers. -/
def all : List Code :=
  [fshort, fsingl, fsing1, fsing2, isingl, vsingl, fdoubl, fdoub1, fdoub2, csingl, cdoubl, sshort,
    snorm, slong, ushort, unorm, ulong, uvari, ident, ascii, dtime, origin, obname, objref, attref,
    status, units]

/-- The code with a given number. -/
def ofByte? (b : UInt8) : Option Code := if b = 0 then none else all[b.toNat - 1]?

/-- The number of a code. -/
def toByte (c : Code) : UInt8 := UInt8.ofNat (all.idxOf c + 1)

theorem ofByte?_toByte (c : Code) : ofByte? c.toByte = some c := by cases c <;> rfl

end Code

end WellLog
