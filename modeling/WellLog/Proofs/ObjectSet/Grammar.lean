import WellLog.ObjectSet.Parser
import WellLog.Proofs.Decode.Spelling
/-!
# How sets are written

A set is written as a set component, the components of its template, and groups of an object
component with attribute components behind it.  A `SetSyntax` has what these components say, and
`SetSyntax.SpelledBy` the bytes that they are written in.

* `SetSyntax.toSet` : the set that is declared.
* `Attribute.spelledBy_iff` : an attribute component is read as it is written.
-/

namespace WellLog

open Decode

/-- Some bytes are the characteristic that is announced; if it is not, there are none, and the value
is that of `base`. -/
def Announced {α : Type} (announced : Bool) (x : Decode α) (base : α) (bytes : List UInt8) (a : α) :
    Prop :=
  if announced then Spells x bytes a else bytes = [] ∧ a = base

/-- The values of an attribute without values of its own: those of `base`, unless the component says
that there are none. -/
def Attribute.inherited (c : Characteristics) (base : Attribute) (count : Nat) : List Value :=
  if (c.count || c.code) && count == 0 then [] else base.values

/-- Some bytes are the characteristics of an attribute component over `base`.  The values are written
in the code that is in force, and there are as many as the count that is in force. -/
def Attribute.SpelledBy (a : Attribute) (c : Characteristics) (base : Attribute)
    (bytes : List UInt8) : Prop :=
  ∃ label count code units values, bytes = label ++ (count ++ (code ++ (units ++ values))) ∧
    Announced c.label identifier base.label label a.label ∧
    Announced c.count varying base.count count a.count ∧
    Announced c.code byte base.code code a.code ∧
    Announced c.units identifier base.units units a.units ∧
    Announced c.value (Decode.values a.code a.count) (base.inherited c a.count) values a.values

/-- Some bytes are a component of the template. -/
def TemplateEntry.SpelledBy (bytes : List UInt8) (e : TemplateEntry) : Prop :=
  ∃ descriptor characteristics, bytes = descriptor :: characteristics ∧
    Role.ofDescriptor descriptor = .ok (if e.invariant then .invariant else .ordinary) ∧
    (Characteristics.ofDescriptor descriptor).label = true ∧
    e.base.SpelledBy (.ofDescriptor descriptor) blank characteristics

namespace TemplateEntry

/-- The attributes of a template that objects may have components for. -/
def ordinary (template : List TemplateEntry) : List Attribute :=
  (template.filter (!·.invariant)).map (·.base)

/-- The attributes of a template that are the same for all objects. -/
def invariants (template : List TemplateEntry) : List Attribute :=
  (template.filter (·.invariant)).map (·.base)

end TemplateEntry

/-- What a component says of an attribute of an object. -/
inductive Given where
  /-- The object does not have it. -/
  | absent
  /-- The component has some characteristics, and this is what it makes of the attribute. -/
  | own (c : Characteristics) (a : Attribute)
  deriving DecidableEq, Repr

/-- Some bytes are an attribute component of an object, over the attribute `base` of the template. -/
def Given.SpelledBy (base : Attribute) (bytes : List UInt8) : Given → Prop
  | absent => ∃ descriptor, bytes = [descriptor] ∧ Role.ofDescriptor descriptor = .ok .absent
  | own c a => ∃ descriptor characteristics, bytes = descriptor :: characteristics ∧
    Role.ofDescriptor descriptor = .ok .ordinary ∧ Characteristics.ofDescriptor descriptor = c ∧
    a.SpelledBy c base characteristics

/-- The attributes of an object: those that its components give, under the labels of the template,
and then the others of the template. -/
def Given.attributes : List Attribute → List Given → List Attribute
  | bases, [] => bases
  | [], _ :: _ => []
  | _ :: bases, absent :: given => attributes bases given
  | base :: bases, own _ a :: given => { a with label := base.label } :: attributes bases given

/-- Some bytes are the attribute components of an object, of which there are no more than attributes
in the template. -/
def Given.RowSpelledBy : List Attribute → List UInt8 → List Given → Prop
  | _, bytes, [] => bytes = []
  | [], _, _ :: _ => False
  | base :: bases, bytes, g :: given => ∃ first behind, bytes = first ++ behind ∧
    g.SpelledBy base first ∧ RowSpelledBy bases behind given

theorem Given.rowSpelledBy_nil {bases : List Attribute} {bytes : List UInt8} :
    RowSpelledBy bases bytes [] ↔ bytes = [] := by
  cases bases <;> exact Iff.rfl

/-- An object in a set. -/
structure ObjectGroup where
  /-- The role of the component that it begins with. -/
  opener : Role
  /-- The name of the object. -/
  name : ObjectName
  /-- What its attribute components say. -/
  given : List Given
  deriving DecidableEq, Repr

/-- The object that is declared in a set of some type. -/
def ObjectGroup.object (type : String) (template : List TemplateEntry) (g : ObjectGroup) :
    RawObject :=
  ⟨.ofName type g.name, Given.attributes (TemplateEntry.ordinary template) g.given ++
    TemplateEntry.invariants template⟩

/-- Some bytes are an object with its attributes, over those of the template. -/
def ObjectGroup.SpelledBy (bases : List Attribute) (bytes : List UInt8) (g : ObjectGroup) : Prop :=
  ∃ descriptor name given, bytes = descriptor :: (name ++ given) ∧
    Role.ofDescriptor descriptor = .ok g.opener ∧
    (Characteristics.ofDescriptor descriptor).label = true ∧
    Spells objectName name g.name ∧ Given.RowSpelledBy bases given g.given

/-- A set as it is written. -/
structure SetSyntax where
  /-- What the set is there for. -/
  role : SetRole
  /-- The type of the objects. -/
  type : String
  /-- The name of the set. -/
  name : Option String
  /-- The template. -/
  template : List TemplateEntry
  /-- The objects. -/
  groups : List ObjectGroup
  deriving DecidableEq, Repr

namespace SetSyntax

/-- The set that is declared. -/
def toSet (recordType : UInt8) (t : SetSyntax) : ObjectSet :=
  ⟨t.type, t.name, t.role, recordType, t.groups.map (·.object t.type t.template)⟩

/-- Some bytes are the set. -/
def SpelledBy (body : List UInt8) (t : SetSyntax) : Prop :=
  ∃ descriptor type name template groups,
    body = descriptor :: (type ++ (name ++ (template ++ groups))) ∧
    (∃ role, Role.ofDescriptor descriptor = .ok role ∧ setRole role = .ok t.role) ∧
    (Characteristics.ofDescriptor descriptor).label = true ∧
    Spells identifier type t.type ∧
    Announced (Characteristics.ofDescriptor descriptor).count (some <$> identifier) none name
      t.name ∧
    Row TemplateEntry.SpelledBy template t.template ∧
    Row (ObjectGroup.SpelledBy (TemplateEntry.ordinary t.template)) groups t.groups

end SetSyntax

/-! ### Attributes are read as they are written -/

section

variable {α : Type} {announced : Bool} {x : Decode α} {base a : α} {bytes : List UInt8}

theorem spells_orElse_iff :
    Spells (orElse announced x base) bytes a ↔ Announced announced x base bytes a := by
  cases announced with
  | true => exact Iff.rfl
  | false => exact spells_pure_iff

instance [SelfContained x] : SelfContained (orElse announced x base) := by
  unfold orElse
  infer_instance

end

instance (c : Characteristics) (base : Attribute) : SelfContained (attributeOver c base) := by
  unfold attributeOver
  infer_instance

/-- **An attribute component is read as it is written.** -/
theorem Attribute.spelledBy_iff {c : Characteristics} {base a : Attribute} {bytes : List UInt8} :
    a.SpelledBy c base bytes ↔ Spells (attributeOver c base) bytes a := by
  simp only [attributeOver, spells_bind_iff, spells_orElse_iff, spells_pure_iff]
  constructor
  · rintro ⟨label, count, code, units, values, rfl, hlabel, hcount, hcode, hunits, hvalues⟩
    exact ⟨label, _, _, rfl, hlabel, count, _, _, rfl, hcount, code, _, _, rfl, hcode, units, _, _,
      rfl, hunits, values, [], _, (List.append_nil _).symm, hvalues, rfl, rfl⟩
  · rintro ⟨label, _, _, rfl, hlabel, count, _, _, rfl, hcount, code, _, _, rfl, hcode, units, _, _,
      rfl, hunits, values, _, _, rfl, hvalues, rfl, rfl⟩
    rw [List.append_nil]
    exact ⟨label, count, code, units, values, rfl, hlabel, hcount, hcode, hunits, hvalues⟩

end WellLog
