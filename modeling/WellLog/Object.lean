import WellLog.Value
/-!
# Objects

An object is declared by a set: it has the type of the set, a name, and attributes.  Type and name
together, with origin and copy, are its `Fingerprint`.
-/

namespace WellLog

/-- The identity of an object. -/
structure Fingerprint where
  /-- The type of the object. -/
  type : String
  /-- The identifier of the object. -/
  name : String
  /-- The origin that defines it. -/
  origin : Nat
  /-- The copy number. -/
  copy : UInt8
  deriving DecidableEq, Repr

namespace Fingerprint

/-- The identity of the object of a type with a name. -/
def ofName (type : String) (n : ObjectName) : Fingerprint := ⟨type, n.id, n.origin, n.copy⟩

/-- All four parts on one line. -/
def toText (f : Fingerprint) : String :=
  "T." ++ f.type ++ "-I." ++ f.name ++ "-O." ++ toString f.origin ++ "-C."
    ++ toString f.copy.toNat

/-- The order by type, name, origin and copy. -/
def compare (f g : Fingerprint) : Ordering :=
  (Ord.compare f.type g.type).then ((Ord.compare f.name g.name).then
    ((Ord.compare f.origin g.origin).then (Ord.compare f.copy.toNat g.copy.toNat)))

/-- Not behind in the order. -/
def le (f g : Fingerprint) : Bool := (f.compare g).isLE

/-- In order and without repetitions. -/
def sorted (fs : List Fingerprint) : List Fingerprint := (fs.mergeSort le).eraseReps

end Fingerprint

/-- An attribute of an object. -/
structure Attribute where
  /-- The label. -/
  label : String
  /-- How many values there are said to be. -/
  count : Nat
  /-- The representation code of the values. -/
  code : UInt8
  /-- The units of the values. -/
  units : String
  /-- The values. -/
  values : List Value
  deriving DecidableEq, Repr

/-- Equality with floating point numbers compared as numbers. -/
def Attribute.sameNumbers (a b : Attribute) : Bool :=
  a.label == b.label && a.count == b.count && a.code == b.code && a.units == b.units
    && a.values.length == b.values.length
    && (a.values.zip b.values).all fun p => p.1.sameNumbers p.2

/-- An object as its set declares it. -/
structure RawObject where
  /-- The identity. -/
  fingerprint : Fingerprint
  /-- The attributes in the order of the template. -/
  attributes : List Attribute
  deriving DecidableEq, Repr

namespace RawObject

/-- The first attribute with a label. -/
def attribute? (o : RawObject) (label : String) : Option Attribute :=
  o.attributes.find? (·.label == label)

/-- The position of the first attribute with a label. -/
def position? (o : RawObject) (label : String) : Option Nat :=
  o.attributes.findIdx? (·.label == label)

/-- The values of the first attribute with a label, none without one. -/
def values (o : RawObject) (label : String) : List Value :=
  match o.attribute? label with
  | some a => a.values
  | none => []

/-- The attributes agree, with floating point numbers compared as numbers. -/
def sameAttributes (o p : RawObject) : Bool :=
  o.attributes.length == p.attributes.length
    && (o.attributes.zip p.attributes).all fun q => q.1.sameNumbers q.2

/-- The same type, name and attributes, of whatever origin and copy. -/
def sameContent (o p : RawObject) : Bool :=
  o.fingerprint.type == p.fingerprint.type && o.fingerprint.name == p.fingerprint.name
    && o.sameAttributes p

/-- The same identity and attributes. -/
def same (o p : RawObject) : Bool := o.fingerprint == p.fingerprint && o.sameAttributes p

end RawObject

/-- What a set is there for. -/
inductive SetRole where
  /-- It declares objects. -/
  | plain
  /-- It repeats objects that are declared elsewhere. -/
  | redundant
  /-- It supersedes attributes of earlier objects. -/
  | replacement
  deriving DecidableEq, Repr

/-- The objects of one explicit record. -/
structure ObjectSet where
  /-- The type of the objects. -/
  type : String
  /-- The name of the set. -/
  name : Option String
  /-- What the set is there for. -/
  role : SetRole
  /-- The type of the record. -/
  recordType : UInt8
  /-- The objects in order. -/
  objects : List RawObject
  deriving DecidableEq, Repr

end WellLog
