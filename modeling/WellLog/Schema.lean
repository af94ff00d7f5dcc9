import WellLog.Object
/-!
# Schemas

A schema lists the attributes that objects of a type can have, and says which of them name other
objects.  A `Registry` has the schemas that are known; objects of other types are kept as they are.

`Registry.references` says which objects an object refers to.
-/

namespace WellLog

/-- What the values of an attribute are. -/
inductive FieldKind where
  /-- Anything but names of objects. -/
  | plain
  /-- Names of objects of one type. -/
  | naming (type : String)
  /-- Names of objects of the type that another attribute of the same object says. -/
  | typedBy (label : String)
  deriving DecidableEq, Repr

/-- An attribute in a schema. -/
structure Field where
  /-- The label of the attribute. -/
  label : String
  /-- What its values are. -/
  kind : FieldKind
  deriving DecidableEq, Repr

namespace Field

/-- An attribute that names nothing. -/
def plain (label : String) : Field := ⟨label, .plain⟩

/-- An attribute that names objects of a type. -/
def naming (label type : String) : Field := ⟨label, .naming type⟩

end Field

/-- The attributes of the objects of a type. -/
structure Schema where
  /-- The type of the objects. -/
  type : String
  /-- The attributes in order. -/
  fields : List Field
  deriving DecidableEq, Repr

namespace Schema

/-- The first attribute with a label. -/
def field? (s : Schema) (label : String) : Option Field := s.fields.find? (·.label == label)

/-- What the values of an attribute are; those of an attribute that is not listed are plain. -/
def kind (s : Schema) (label : String) : FieldKind :=
  match s.field? label with
  | some field => field.kind
  | none => .plain

end Schema

/-- The schemas that are known, at most one for each type. -/
structure Registry where
  /-- The schemas. -/
  schemas : List Schema
  deriving DecidableEq, Repr

namespace Registry

/-- No schema is known. -/
def empty : Registry := ⟨[]⟩

/-- The schema of a type. -/
def get? (r : Registry) (type : String) : Option Schema := r.schemas.find? (·.type == type)

/-- Without the schema of a type. -/
def unregister (r : Registry) (type : String) : Registry :=
  ⟨r.schemas.filter (·.type != type)⟩

/-- With a schema, in place of the one of the same type. -/
def register (r : Registry) (s : Schema) : Registry := ⟨(r.unregister s.type).schemas ++ [s]⟩

/-- The number of schemas. -/
def size (r : Registry) : Nat := r.schemas.length

/-- The type of the objects that an attribute names, if it names any. -/
def namedType (r : Registry) (o : RawObject) (label : String) : Option String :=
  match r.get? o.fingerprint.type with
  | none => none
  | some schema =>
    match schema.kind label with
    | .plain => none
    | .naming type => some type
    | .typedBy other => (o.values other).head?.bind Value.asText?

/-- The object that a value refers to, when names are those of objects of `named`. -/
def target (named : Option String) : Value → Option Fingerprint
  | .reference type n => some (.ofName type n)
  | .name n => named.map fun type => .ofName type n
  | _ => none

/-- The objects that an object refers to, for each attribute that refers to some. -/
def references (r : Registry) (o : RawObject) : List (String × List Fingerprint) :=
  let all := o.attributes.map fun a =>
    (a.label, a.values.filterMap (target (r.namedType o a.label)))
  all.filter fun p => !p.2.isEmpty

/-- The schema of an object with the positions of the attributes it has of those listed, or nothing
for an object of an unknown type. -/
def shape (r : Registry) (o : RawObject) : Option (Schema × List (String × Nat)) :=
  (r.get? o.fingerprint.type).map fun schema =>
    (schema, schema.fields.filterMap fun field =>
      (o.position? field.label).map fun i => (field.label, i))

/-- The attribute with a label, if the schema of the object lists it. -/
def field? (r : Registry) (o : RawObject) (label : String) : Option Attribute :=
  match r.get? o.fingerprint.type with
  | none => none
  | some schema => if (schema.field? label).isSome then o.attribute? label else none

end Registry

end WellLog
