import WellLog.Object
import WellLog.ObjectSet.Component
import WellLog.Record
import WellLog.Value.Decoder
/-!
# Parsing explicit records

A body is a set component, then the template, then objects.  The template lists the attributes of
the objects with their defaults.  The attributes of an object are matched to the template by
position: each component replaces the characteristics it has, an absent attribute is left out, and
the attributes that an object does not mention are those of the template.  Invariant attributes
come last.

Behind the first object a component that is no attribute begins the next object.
-/

namespace WellLog

/-- An attribute of a template. -/
structure TemplateEntry where
  /-- All objects have these very values. -/
  invariant : Bool
  /-- The attribute with its default values. -/
  base : Attribute
  deriving DecidableEq, Repr

namespace Decode

/-- Accepts what has no defect. -/
def accept {α : Type} : Except Defect α → Decode α
  | .ok a => return a
  | .error d => throw d

/-- Decodes items until there is none, at most `most`, behind the first `index`. -/
def itemsFrom {α : Type} (item : Nat → Decode (Option α)) : (most : Nat) → (index : Nat) →
    Decode (List α)
  | 0, _ => return []
  | most + 1, index => do
    match ← item index with
    | none => return []
    | some a => return a :: (← itemsFrom item most (index + 1))

/-- Decodes items, given their number, until there is none.  An item takes at least one byte, so
there are no more items than bytes. -/
def items {α : Type} (item : Nat → Decode (Option α)) : Decode (List α) := do
  itemsFrom item (← get).remaining 0

/-- The characteristic if it is announced, and otherwise that of `base`. -/
def orElse {α : Type} (announced : Bool) (x : Decode α) (base : α) : Decode α :=
  if announced then x else return base

/-- The attribute that a component makes of `base`.  Count and code are those of the component when
its values are decoded.  Without values of its own, an attribute whose count becomes zero has
none. -/
def attributeOver (c : Characteristics) (base : Attribute) : Decode Attribute := do
  let label ← orElse c.label identifier base.label
  let count ← orElse c.count varying base.count
  let code ← orElse c.code byte base.code
  let units ← orElse c.units identifier base.units
  let values ← orElse c.value (values code count)
    (if (c.count || c.code) && count == 0 then [] else base.values)
  return ⟨label, count, code, units, values⟩

/-- What a template attribute is before its component: one identifier without a value. -/
def blank : Attribute := ⟨"", 1, Code.ident.toByte, "", []⟩

/-- The next attribute of the template, unless the first object or the end comes. -/
def templateEntry (index : Nat) : Decode (Option TemplateEntry) := do
  match (← get).peek? with
  | none => return none
  | some descriptor =>
    let role ← accept (Role.ofDescriptor descriptor)
    match role with
    | .object => return none
    | .ordinary | .invariant =>
      let _ ← byte
      let c := Characteristics.ofDescriptor descriptor
      if !c.label then throw (.unlabelled index)
      return some ⟨role == .invariant, ← attributeOver c blank⟩
    | other => throw (.misplaced other.name "template")

/-- The template. -/
def template : Decode (List TemplateEntry) := items templateEntry

/-- The attribute component that comes next, which an object may have, if one comes. -/
def attributeAhead : Decode (Option (Role × Characteristics)) := do
  match (← get).peek? with
  | none => return none
  | some descriptor =>
    match ← accept (Role.ofDescriptor descriptor) with
    | .invariant => throw (.misplaced Role.invariant.name "object")
    | .absent => return some (.absent, .ofDescriptor descriptor)
    | .ordinary => return some (.ordinary, .ofDescriptor descriptor)
    | _ => return none

/-- The attributes of an object over those of the template that are still to come. -/
def objectAttributes : List Attribute → Decode (List Attribute)
  | [] => do
    match ← attributeAhead with
    | none => return []
    | some (role, _) => throw (.misplaced role.name "object beyond its template")
  | base :: others => do
    match ← attributeAhead with
    | none => return base :: others
    | some (role, c) =>
      let _ ← byte
      if role = .absent then objectAttributes others
      else
        let own ← attributeOver c base
        return { own with label := base.label } :: (← objectAttributes others)

/-- An object of a set. -/
def object (type : String) (template : List TemplateEntry) : Decode RawObject := do
  let c := Characteristics.ofDescriptor (← byte)
  if !c.label then throw .unnamedObject
  let n ← objectName
  let ordinary := (template.filter (!·.invariant)).map (·.base)
  let invariants := (template.filter (·.invariant)).map (·.base)
  return ⟨.ofName type n, (← objectAttributes ordinary) ++ invariants⟩

/-- The role of a set component. -/
def setRole : Role → Except Defect SetRole
  | .set => .ok .plain
  | .redundantSet => .ok .redundant
  | .replacementSet => .ok .replacement
  | other => .error (.misplaced other.name "set position")

/-- A whole body: one set. -/
def objectSet (recordType : UInt8) : Decode ObjectSet := do
  let descriptor ← byte
  let role ← accept (Role.ofDescriptor descriptor)
  let role ← accept (setRole role)
  let c := Characteristics.ofDescriptor descriptor
  if !c.label then throw .untypedSet
  let type ← identifier
  let name ← if c.count then some <$> identifier else pure none
  let template ← template
  let objects ← items fun _ => do
    if (← get).isEmpty then return none else return some (← object type template)
  return ⟨type, name, role, recordType, objects⟩

end Decode

namespace ObjectSet

/-- The set that a body declares. -/
def parse (recordType : UInt8) (body : List UInt8) : Except Defect ObjectSet :=
  match Decode.objectSet recordType (.ofList body) with
  | .ok set _ => .ok set
  | .error d _ => .error d

end ObjectSet

namespace Record

variable {ε σ : Type}

/-- The set that an explicit record declares. -/
def objectSet (r : Record) : Logged ε σ (Except Defect ObjectSet) := do
  let outcome := ObjectSet.parse r.type r.body
  if let .ok set := outcome then
    Logged.note .debug (s!"Parsed {set.type} set with {set.objects.length} objects "
      ++ s!"from record at offset {r.offset}")
  return outcome

/-- The set of one record, or nothing, with a note, where the record does not declare objects that
can be read. -/
def objectSet? (r : Record) : Logged ε σ (Option ObjectSet) := do
  if !r.explicit then return none
  else if r.encrypted then
    Logged.note .info s!"Skipping encrypted record at offset {r.offset} (type {r.type.toNat})"
    return none
  else if r.type == update then
    Logged.note .warning
      s!"UPDATE record at offset {r.offset} is not applied, objects it modifies may be stale"
    return none
  else
    match ← r.objectSet with
    | .ok set =>
      if set.role = .replacement then
        Logged.note .warning (s!"Replacement set {set.type} at offset {r.offset} "
          ++ "is kept as-is, replacement is not applied")
      return some set
    | .error d =>
      Logged.note .warning s!"Skipping unparseable record at offset {r.offset}: {d.message}"
      return none

/-- The sets of all records that declare one. -/
def objectSets (records : List Record) : Logged ε σ (List ObjectSet) :=
  records.filterMapM objectSet?

end Record

end WellLog
