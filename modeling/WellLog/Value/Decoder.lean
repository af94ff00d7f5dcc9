import WellLog.Cursor
import WellLog.Value.Code
/-!
# Decoding values

`Decode.value` reads one value of a given representation code and `Decode.values` a number of them.
The three floating point formats without hardware are `lowPrecision`, `base16` and `wordSwapped`;
all their numbers are doubles, so nothing is rounded.
-/

namespace WellLog

namespace Binary64

/-- Low precision: the high twelve bits are a fraction in two's complement with eleven places, the
low four a power of two. -/
def lowPrecision (word : Nat) : Binary64 :=
  let fraction := Int.bmod (Int.ofNat (word / 16)) 4096
  ofScaled (decide (fraction < 0)) fraction.natAbs (Int.ofNat (word % 16) - 11)

/-- Base 16: a sign, seven bits of exponent in excess 64, and a fraction of 24 bits. -/
def base16 (word : Nat) : Binary64 :=
  ofScaled (word.testBit 31) (word % (1 <<< 24))
    (4 * (Int.ofNat (word >>> 24 % 128) - 64) - 24)

/-- Swapped words: each pair of bytes changes places; then come a sign, eight bits of exponent in
excess 128, and a fraction of 24 bits whose first bit is not written.  An exponent of zero is the
number zero. -/
def wordSwapped : List UInt8 → Binary64
  | [b0, b1, b2, b3] =>
    let word := bigEndian [b1, b0, b3, b2]
    let exponent := word >>> 23 % 256
    if exponent = 0 then zero
    else ofScaled (word.testBit 31) (1 <<< 23 + word % (1 <<< 23)) (Int.ofNat exponent - 152)
  | _ => zero

end Binary64

namespace Decode

/-- One value of a known code. -/
def valueOf : Code → Decode Value
  | .fshort => return .float (.lowPrecision (← unsigned 2))
  | .fsingl => return .float (← single).widen
  | .fsing1 => do
    let x ← single
    let a ← single
    return .validated x.widen [a.widen]
  | .fsing2 => do
    let x ← single
    let a ← single
    let b ← single
    return .validated x.widen [a.widen, b.widen]
  | .isingl => return .float (.base16 (← unsigned 4))
  | .vsingl => return .float (.wordSwapped (← take 4))
  | .fdoubl => return .float (← double)
  | .fdoub1 => do
    let x ← double
    let a ← double
    return .validated x [a]
  | .fdoub2 => do
    let x ← double
    let a ← double
    let b ← double
    return .validated x [a, b]
  | .csingl => do
    let re ← single
    let im ← single
    return .complex re.widen im.widen
  | .cdoubl => do
    let re ← double
    let im ← double
    return .complex re im
  | .sshort => return .int (← signed 1)
  | .snorm => return .int (← signed 2)
  | .slong => return .int (← signed 4)
  | .ushort => return .int (Int.ofNat (← unsigned 1))
  | .unorm => return .int (Int.ofNat (← unsigned 2))
  | .ulong => return .int (Int.ofNat (← unsigned 4))
  | .uvari => return .int (Int.ofNat (← varying))
  | .origin => return .int (Int.ofNat (← varying))
  | .ident => return .text (← identifier)
  | .units => return .text (← identifier)
  | .ascii => return .text (← string)
  | .dtime => return .time (← dateTime)
  | .obname => return .name (← objectName)
  | .objref => do
    let type ← identifier
    let n ← objectName
    return .reference type n
  | .attref => do
    let type ← identifier
    let n ← objectName
    let label ← identifier
    return .attributeReference type n label
  | .status => return .status ((← byte) != 0)

/-- One value of the code with a given number. -/
def value (code : UInt8) : Decode Value :=
  match Code.ofByte? code with
  | some c => valueOf c
  | none => throw (.unknownCode code)

/-- `count` values of one code. -/
def values (code : UInt8) : Nat → Decode (List Value)
  | 0 => return []
  | count + 1 => do
    let v ← value code
    let vs ← values code count
    return v :: vs

end Decode

end WellLog
