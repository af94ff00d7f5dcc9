import WellLog.Binary64
import WellLog.Text.Pad
/-!
# Attribute values

What a record says about an object is a list of values.  A value keeps the kind of information of
its representation code and forgets the width: all integer codes give `Value.int`, all plain
floating point codes give `Value.float`.

`Value.toText` is the one-line form of a value, and `Value.sameNumbers` compares two values with
floating point numbers taken as numbers rather than as bits.
-/

namespace WellLog

/-- The name of an object: which origin it belongs to, which copy it is, and its identifier. -/
structure ObjectName where
  /-- The origin that defines the object. -/
  origin : Nat
  /-- The copy number. -/
  copy : UInt8
  /-- The identifier. -/
  id : String
  deriving DecidableEq, Repr

/-- Origin, copy and identifier joined by points. -/
def ObjectName.toText (n : ObjectName) : String :=
  toString n.origin ++ "." ++ toString n.copy.toNat ++ "." ++ n.id

/-- A date and time of day. -/
structure DateTime where
  /-- The year. -/
  year : Nat
  /-- Local standard time (0), local daylight saving time (1) or Greenwich mean time (2). -/
  zone : UInt8
  /-- The month, from 1. -/
  month : UInt8
  /-- The day of the month. -/
  day : UInt8
  /-- The hour. -/
  hour : UInt8
  /-- The minute. -/
  minute : UInt8
  /-- The second. -/
  second : UInt8
  /-- The millisecond. -/
  millisecond : Nat
  deriving DecidableEq, Repr

/-- Date, time and milliseconds; the time zone is not shown. -/
def DateTime.toText (t : DateTime) : String :=
  Text.zeroPadded 4 t.year ++ "-" ++ Text.zeroPadded 2 t.month.toNat ++ "-"
    ++ Text.zeroPadded 2 t.day.toNat ++ " " ++ Text.zeroPadded 2 t.hour.toNat ++ ":"
    ++ Text.zeroPadded 2 t.minute.toNat ++ ":" ++ Text.zeroPadded 2 t.second.toNat ++ "."
    ++ Text.zeroPadded 3 t.millisecond

/-- A decoded value. -/
inductive Value where
  /-- An integer of any width. -/
  | int (n : Int)
  /-- A floating point number of any format. -/
  | float (x : Binary64)
  /-- A number with the bounds, one or two, of the interval it lies in. -/
  | validated (x : Binary64) (bounds : List Binary64)
  /-- A complex number. -/
  | complex (re im : Binary64)
  /-- An identifier, a string or a units expression. -/
  | text (s : String)
  /-- A date and time. -/
  | time (t : DateTime)
  /-- The name of an object, of a type that is not said here. -/
  | name (n : ObjectName)
  /-- A reference to an object. -/
  | reference (type : String) (n : ObjectName)
  /-- A reference to an attribute of an object. -/
  | attributeReference (type : String) (n : ObjectName) (label : String)
  /-- A yes or a no. -/
  | status (yes : Bool)
  deriving DecidableEq, Repr

namespace Value

/-- The text of a value that is text. -/
def asText? : Value → Option String
  | text s => some s
  | _ => none

/-- The integer of a value that is one. -/
def asInt? : Value → Option Int
  | int n => some n
  | _ => none

/-- A value on one line. -/
def toText : Value → String
  | int n => toString n
  | float x => x.toText
  | validated x bounds => x.toText ++ String.join (bounds.map fun b => " +/-" ++ b.toText)
  | complex re im => re.toText ++ im.toSignedText ++ "i"
  | text s => s
  | time t => t.toText
  | name n => n.toText
  | reference type n => type ++ "(" ++ n.toText ++ ")"
  | attributeReference type n label => type ++ "(" ++ n.toText ++ "):" ++ label
  | status yes => toString yes

/-- Equality with floating point numbers compared as numbers. -/
def sameNumbers : Value → Value → Bool
  | float x, float y => x.sameNumber y
  | validated x bs, validated y cs =>
    x.sameNumber y && bs.length == cs.length && (bs.zip cs).all fun p => p.1.sameNumber p.2
  | complex a b, complex c d => a.sameNumber c && b.sameNumber d
  | v, w => v == w

end Value

end WellLog
