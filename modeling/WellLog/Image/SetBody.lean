import WellLog.Image.Primitive
import WellLog.Value.Code
/-!
# Writing sets

The body of an explicit record: a set, the attributes of its template and its objects with their
attributes, component by component.
-/

namespace WellLog.Image

/-- The values of an attribute, all with the same representation code. -/
inductive Items where
  /-- Identifiers. -/
  | identifiers (l : List String)
  /-- Strings. -/
  | strings (l : List String)
  /-- Object names. -/
  | names (l : List ObjectName)
  /-- References to objects, with their types. -/
  | references (l : List (String × ObjectName))
  /-- Signed integers of four bytes. -/
  | longs (l : List Int)
  /-- Double precision numbers. -/
  | doubles (l : List Binary64)
  /-- Unsigned integers of one byte. -/
  | bytes (l : List UInt8)
  deriving Repr

namespace Items

/-- The representation code. -/
def code : Items → Code
  | identifiers _ => .ident
  | strings _ => .ascii
  | names _ => .obname
  | references _ => .objref
  | longs _ => .slong
  | doubles _ => .fdoubl
  | bytes _ => .ushort

/-- The number of values. -/
def count : Items → Nat
  | identifiers l => l.length
  | strings l => l.length
  | names l => l.length
  | references l => l.length
  | longs l => l.length
  | doubles l => l.length
  | bytes l => l.length

/-- The values alone. -/
def valueBytes : Items → List UInt8
  | identifiers l => l.flatMap identifier
  | strings l => l.flatMap string
  | names l => l.flatMap objectName
  | references l => l.flatMap fun r => identifier r.1 ++ objectName r.2
  | longs l => l.flatMap signedLong
  | doubles l => l.flatMap double
  | bytes l => l

/-- Count, representation code and values. -/
def toBytes (items : Items) : List UInt8 :=
  varying items.count ++ items.code.toByte :: items.valueBytes

end Items

/-- A component behind the set component. -/
inductive SetPart where
  /-- A template attribute with a label only. -/
  | template (label : String)
  /-- A template attribute with the same values for all objects. -/
  | invariant (label : String) (items : Items)
  /-- An object. -/
  | object (name : ObjectName)
  /-- The next attribute of an object. -/
  | value (items : Items)
  /-- The next attribute of an object, which it does not have. -/
  | absent
  deriving Repr

/-- The bytes of a component: its descriptor and its characteristics. -/
def SetPart.toBytes : SetPart → List UInt8
  | template label => 0x30 :: identifier label
  | invariant label items => 0x5D :: identifier label ++ items.toBytes
  | object name => 0x70 :: objectName name
  | value items => 0x2D :: items.toBytes
  | absent => [0x00]

/-- The body of a record with a set that may have a name. -/
def setBody (type : String) (name : Option String) (parts : List SetPart) : List UInt8 :=
  let opening := match name with
    | none => 0xF0 :: identifier type
    | some name => 0xF8 :: identifier type ++ identifier name
  opening ++ parts.flatMap SetPart.toBytes

end WellLog.Image
