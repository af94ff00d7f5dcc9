import WellLog.Decimal.Notation
/-!
# Double precision numbers as bit patterns

Every floating point code of a record decodes to a double.  The bits are kept as they are, so two
values are the same when all bits agree (`=`), and may compare equal as numbers without that
(`Binary64.sameNumber`).  Narrower codes are widened exactly: none of them rounds.
-/

namespace WellLog

/-- A double by its bits. -/
structure Binary64 where
  /-- Sign, eleven bits of exponent, 52 bits of fraction. -/
  bits : UInt64
  deriving DecidableEq, Repr

namespace Binary64

/-- The double with the given sign, exponent field and fraction field. -/
def ofFields (negative : Bool) (exponent fraction : Nat) : Binary64 :=
  ⟨UInt64.ofNat ((if negative then 1 <<< 63 else 0) + exponent <<< 52 + fraction)⟩

/-- The sign bit. -/
def negative (x : Binary64) : Bool := x.bits.toNat.testBit 63

/-- The exponent field. -/
def exponentField (x : Binary64) : Nat := x.bits.toNat >>> 52 % 2048

/-- The fraction field. -/
def fractionField (x : Binary64) : Nat := x.bits.toNat % (1 <<< 52)

/-- Not a number: the largest exponent and a fraction. -/
def isNaN (x : Binary64) : Bool := x.exponentField == 2047 && x.fractionField != 0

/-- Either infinity. -/
def isInfinite (x : Binary64) : Bool := x.exponentField == 2047 && x.fractionField == 0

/-- Either zero. -/
def isZero (x : Binary64) : Bool := x.exponentField == 0 && x.fractionField == 0

/-- Equality of numbers: no NaN is equal to anything, and the two zeros are equal. -/
def sameNumber (x y : Binary64) : Bool :=
  !x.isNaN && !y.isNaN && (x == y || (x.isZero && y.isZero))

/-- Positive zero. -/
def zero : Binary64 := ⟨0⟩

/-- The double `± significand * 2 ^ exponent`, for a significand of at most 53 bits and a result
that is neither too large nor subnormal. -/
def ofScaled (negative : Bool) (significand : Nat) (exponent : Int) : Binary64 :=
  if significand = 0 then ofFields negative 0 0
  else
    let top := significand.log2
    ofFields negative (Int.ofNat top + exponent + 1023).toNat
      (significand <<< (52 - top) - 1 <<< 52)

/-- The finite number without its sign, with the interval that rounds to it. -/
def rounding (x : Binary64) : Decimal.Rounding :=
  if x.exponentField = 0 then ⟨x.fractionField, -1074, false⟩
  else ⟨1 <<< 52 + x.fractionField, Int.ofNat x.exponentField - 1075,
    x.fractionField == 0 && x.exponentField != 1⟩

/-- The number without its sign, in positional notation. -/
def magnitudeText (x : Binary64) : String :=
  if x.isInfinite then "inf"
  else if x.isZero then "0"
  else (Decimal.shortest x.rounding .up).positional

/-- The fewest digits that read back, never with an exponent. -/
def toText (x : Binary64) : String :=
  if x.isNaN then "NaN" else (if x.negative then "-" else "") ++ x.magnitudeText

/-- As `toText`, with a sign in front of positive numbers too. -/
def toSignedText (x : Binary64) : String :=
  if x.isNaN then "NaN" else (if x.negative then "-" else "+") ++ x.magnitudeText

/-- The number in report data, where NaN and the infinities have no form. -/
def toCompact? (x : Binary64) : Option String :=
  if x.exponentField == 2047 then none
  else
    let sign := if x.negative then "-" else ""
    if x.isZero then some (sign ++ "0.0")
    else some (sign ++ (Decimal.shortest x.rounding .even).compact)

end Binary64

/-- A single precision number by its bits. -/
structure Binary32 where
  /-- Sign, eight bits of exponent, 23 bits of fraction. -/
  bits : UInt32
  deriving DecidableEq, Repr

namespace Binary32

/-- The sign bit. -/
def negative (x : Binary32) : Bool := x.bits.toNat.testBit 31

/-- The exponent field. -/
def exponentField (x : Binary32) : Nat := x.bits.toNat >>> 23 % 256

/-- The fraction field. -/
def fractionField (x : Binary32) : Nat := x.bits.toNat % (1 <<< 23)

/-- Not a number. -/
def isNaN (x : Binary32) : Bool := x.exponentField == 255 && x.fractionField != 0

/-- The same number in double precision.  A NaN keeps its payload and becomes a quiet one. -/
def widen (x : Binary32) : Binary64 :=
  if x.exponentField = 255 then
    if x.fractionField = 0 then .ofFields x.negative 2047 0
    else .ofFields x.negative 2047 (1 <<< 51 + (x.fractionField % (1 <<< 22)) <<< 29)
  else if x.exponentField = 0 then .ofScaled x.negative x.fractionField (-149)
  else .ofScaled x.negative (1 <<< 23 + x.fractionField) (Int.ofNat x.exponentField - 150)

end Binary32

end WellLog
