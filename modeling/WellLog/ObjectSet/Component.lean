import WellLog.Error
/-!
# Components

The body of an explicit record is a sequence of components.  Each begins with a descriptor byte: its
three high bits are the role of the component, its five low bits say which characteristics follow.
-/

namespace WellLog

/-- The role of a component. -/
inductive Role where
  /-- An attribute that the object does not have. -/
  | absent
  /-- An attribute. -/
  | ordinary
  /-- An attribute with the same values for all objects. -/
  | invariant
  /-- An object. -/
  | object
  /-- A set that repeats objects. -/
  | redundantSet
  /-- A set that supersedes attributes. -/
  | replacementSet
  /-- A set. -/
  | set
  deriving DecidableEq, Repr

namespace Role

/-- The role in a descriptor; 100 is reserved. -/
def ofDescriptor (descriptor : UInt8) : Except Defect Role :=
  match descriptor.toNat / 32 with
  | 0 => .ok absent
  | 1 => .ok ordinary
  | 2 => .ok invariant
  | 3 => .ok object
  | 5 => .ok redundantSet
  | 6 => .ok replacementSet
  | 7 => .ok set
  | _ => .error (.misplaced "reserved" "record body")

/-- The short name of a role. -/
def name : Role → String
  | absent => "ABSATR"
  | ordinary => "ATTRIB"
  | invariant => "INVATR"
  | object => "OBJECT"
  | redundantSet => "RDSET"
  | replacementSet => "RSET"
  | set => "SET"

end Role

/-- The characteristics that follow a descriptor, from the high bit to the low one.  Sets use the
first two for type and name, objects the first for the name. -/
structure Characteristics where
  /-- The label of an attribute, the type of a set or the name of an object. -/
  label : Bool
  /-- The count of an attribute or the name of a set. -/
  count : Bool
  /-- The representation code. -/
  code : Bool
  /-- The units. -/
  units : Bool
  /-- The values. -/
  value : Bool
  deriving DecidableEq, Repr

/-- The characteristics announced by a descriptor. -/
def Characteristics.ofDescriptor (descriptor : UInt8) : Characteristics :=
  let bit (i : Nat) : Bool := descriptor.toNat.testBit i
  ⟨bit 4, bit 3, bit 2, bit 1, bit 0⟩

end WellLog
