import Mathlib
import WellLog.Image.SetBody
import WellLog.Proofs.Image.Primitive
import WellLog.Proofs.ObjectSet.Parsing
/-!
# Sets are read as they are written

A `SetLayout` has what a set is built from: the labels of a template, some of them with values that
all objects share, and objects with values for some of the labels.  Whatever the order of the
labels, its body is parsed into the set that it stands for, `SetLayout.set`.  Object names are those
that can be written: wherever one stands, its origin is below `2 ^ 30`.

The proof does not run the parser.  It names the components of the body, a `SetSyntax`, and shows
that they are spelled by the bytes that are written and that they declare the set.

* `Image.Items.row_valueBytes` : values of every kind are read as they are written.
* `Image.Items.spelledBy_under` : so is an attribute with its count and its code.
* `SetLayout.objectSet_body` : **a set is read as it is written**, to the last byte.
-/

namespace WellLog

open Decode

/-! ### Values -/

namespace Image.Items

/-- What is read where the items are written. -/
def values : Items → List Value
  | identifiers l => l.map .text
  | strings l => l.map .text
  | names l => l.map .name
  | references l => l.map fun r => .reference r.1 r.2
  | longs l => l.map .int
  | doubles l => l.map .float
  | bytes l => l.map fun b => .int b.toNat

/-- Each of the items fits where it is written. -/
def ItemsFit : Items → Prop
  | identifiers l => ∀ text ∈ l, IdentifierFits text
  | strings l => ∀ text ∈ l, StringFits text
  | names l => ∀ n ∈ l, NameFits n
  | references l => ∀ r ∈ l, IdentifierFits r.1 ∧ NameFits r.2
  | longs l => ∀ n ∈ l, LongFits n
  | doubles _ => True
  | bytes _ => True

/-- The items and their number fit where they are written. -/
structure Fits (items : Items) : Prop where
  /-- There are not too many. -/
  count : items.count < 2 ^ 30
  /-- None is too large. -/
  items : items.ItemsFit

/-- The attribute with a label that has the items for values. -/
def under (label : String) (items : Items) : Attribute :=
  ⟨label, items.count, items.code.toByte, "", items.values⟩

/-- The characteristics of an attribute that is written with its values. -/
def characteristics (labelled : Bool) : Characteristics := ⟨labelled, true, true, false, true⟩

variable {items : Items}

theorem length_values : items.values.length = items.count := by
  cases items <;> exact List.length_map _

theorem value_toByte (code : Code) : value code.toByte = valueOf code := by
  rw [value, Code.ofByte?_toByte]

/-- **Values of every kind are read as they are written.** -/
theorem row_valueBytes (h : items.ItemsFit) :
    Row (Spells (value items.code.toByte)) items.valueBytes items.values := by
  rw [value_toByte]
  cases items with
  | identifiers l => exact row_flatMap fun text htext => (spells_identifier (h text htext)).map
  | strings l => exact row_flatMap fun text htext => (spells_string (h text htext)).map
  | names l => exact row_flatMap fun n hn => (spells_objectName (h n hn)).map
  | references l =>
    exact row_flatMap fun r hr =>
      (spells_identifier (h r hr).1).bind (spells_objectName (h r hr).2).map
  | longs l => exact row_flatMap fun n hn => (spells_signedLong (h n hn)).map
  | doubles l => exact row_flatMap fun x _ => (spells_double x).map
  | bytes l =>
    have hbytes : l.flatMap (fun b => [b]) = l := List.flatMap_singleton' l
    have hbyte : ∀ b ∈ l, Spells (valueOf .ushort) [b] (.int b.toNat) := fun b _ =>
      (spells_unsigned_iff.2 ⟨rfl, by simp [bigEndian]⟩ : Spells (unsigned 1) [b] b.toNat).map
    have hrow := row_flatMap hbyte
    rwa [hbytes] at hrow

/-- **An attribute is read as it is written**, behind its label if it has one. -/
theorem spelledBy_under (h : items.Fits) {labelled : Bool} {base : Attribute} {label : String}
    {bytes : List UInt8} (hlabel : Announced labelled Decode.identifier base.label bytes label)
    (hunits : base.units = "") :
    (items.under label).SpelledBy (characteristics labelled) base (bytes ++ items.toBytes) :=
  ⟨bytes, varying items.count, [items.code.toByte], [], items.valueBytes, rfl, hlabel,
    spells_varying h.count, spells_byte_iff.2 rfl, ⟨rfl, hunits.symm⟩,
    spells_values_iff.2 ⟨length_values, row_valueBytes h.items⟩⟩

end Image.Items

/-! ### What sets are built from -/

/-- An attribute of a template. -/
structure AttributeLayout where
  /-- The label. -/
  label : String
  /-- The values, if all objects share them. -/
  shared : Option Image.Items
  /-- The label is short enough. -/
  label_fits : Image.IdentifierFits label
  /-- The values fit. -/
  shared_fits : ∀ items ∈ shared, items.Fits

/-- An object with values for attributes of a template, in their order. -/
structure ObjectLayout where
  /-- The name. -/
  name : ObjectName
  /-- The values, or nothing for an attribute that the object does not have. -/
  entries : List (Option Image.Items)
  /-- The name fits. -/
  name_fits : Image.NameFits name
  /-- The values fit. -/
  entries_fit : ∀ items, some items ∈ entries → items.Fits

/-- The labels of a template that objects may have values for. -/
def AttributeLayout.openLabels (template : List AttributeLayout) : List String :=
  (template.filter (·.shared.isNone)).map (·.label)

/-- A set that can be written. -/
structure SetLayout where
  /-- The type of the objects. -/
  type : String
  /-- The name of the set. -/
  name : Option String
  /-- The template. -/
  template : List AttributeLayout
  /-- The objects. -/
  objects : List ObjectLayout
  /-- The type is short enough. -/
  type_fits : Image.IdentifierFits type
  /-- So is the name. -/
  name_fits : ∀ text ∈ name, Image.IdentifierFits text
  /-- No object has more entries than there are labels for. -/
  entries_length : ∀ o ∈ objects, o.entries.length ≤ (AttributeLayout.openLabels template).length

/-- The component of the attribute. -/
def AttributeLayout.part (e : AttributeLayout) : Image.SetPart :=
  match e.shared with
  | none => .template e.label
  | some items => .invariant e.label items

namespace ObjectLayout

/-- The component of an entry. -/
def entryPart : Option Image.Items → Image.SetPart
  | none => .absent
  | some items => .value items

/-- The components of the object. -/
def parts (o : ObjectLayout) : List Image.SetPart := .object o.name :: o.entries.map entryPart

end ObjectLayout

/-- What an attribute is without values: one identifier. -/
def Attribute.labelled (label : String) : Attribute := ⟨label, 1, Code.ident.toByte, "", []⟩

/-- The attributes of an object under the labels of its entries, without those that it does not
have, and then those of the template that it has no entry for. -/
def ObjectLayout.attributes (labels : List String) (o : ObjectLayout) : List Attribute :=
  (labels.zip o.entries).filterMap (fun p => p.2.map (·.under p.1)) ++
    (labels.drop o.entries.length).map Attribute.labelled

namespace SetLayout

/-- The labels that objects may have values for. -/
def labels (l : SetLayout) : List String := AttributeLayout.openLabels l.template

/-- The attributes that all objects share. -/
def shared (l : SetLayout) : List Attribute :=
  l.template.filterMap fun e => e.shared.map (·.under e.label)

/-- The components, first those of the template and then the objects. -/
def parts (l : SetLayout) : List Image.SetPart :=
  l.template.map (·.part) ++ l.objects.flatMap (·.parts)

/-- The bytes of the set. -/
def body (l : SetLayout) : List UInt8 := Image.setBody l.type l.name l.parts

/-- The set that the layout stands for. -/
def set (recordType : UInt8) (l : SetLayout) : ObjectSet :=
  ⟨l.type, l.name, .plain, recordType,
    l.objects.map fun o => ⟨.ofName l.type o.name, o.attributes l.labels ++ l.shared⟩⟩

end SetLayout

/-! ### The components that are written -/

/-- The component in the template. -/
def AttributeLayout.entry (e : AttributeLayout) : TemplateEntry :=
  match e.shared with
  | none => ⟨false, .labelled e.label⟩
  | some items => ⟨true, items.under e.label⟩

/-- What the component of an entry says of the attribute with a label. -/
def ObjectLayout.given : String × Option Image.Items → Given
  | (_, none) => .absent
  | (label, some items) => .own (Image.Items.characteristics false) (items.under label)

/-- The object with its attribute components. -/
def ObjectLayout.group (labels : List String) (o : ObjectLayout) : ObjectGroup :=
  ⟨.object, o.name, (labels.zip o.entries).map given⟩

/-- The components of the set. -/
def SetLayout.syntaxTree (l : SetLayout) : SetSyntax :=
  ⟨.plain, l.type, l.name, l.template.map (·.entry), l.objects.map (·.group l.labels)⟩

theorem AttributeLayout.spelledBy_entry (e : AttributeLayout) :
    e.entry.SpelledBy e.part.toBytes := by
  obtain ⟨label, shared, hlabel, hshared⟩ := e
  have hspelled := Image.spells_identifier hlabel
  cases shared with
  | none =>
    refine ⟨0x30, Image.identifier label, rfl, rfl, by decide, Image.identifier label, [], [], [],
      [], by simp, hspelled, ⟨rfl, rfl⟩, ⟨rfl, rfl⟩, ⟨rfl, rfl⟩, ⟨rfl, rfl⟩⟩
  | some items =>
    exact ⟨0x5D, Image.identifier label ++ items.toBytes, rfl, rfl, by decide,
      Image.Items.spelledBy_under (hshared items rfl) hspelled rfl⟩

/-- The labels without values are those that objects have components for. -/
theorem AttributeLayout.ordinary_entries (template : List AttributeLayout) :
    TemplateEntry.ordinary (template.map (·.entry)) =
      (AttributeLayout.openLabels template).map .labelled := by
  induction template with
  | nil => rfl
  | cons e template ih =>
    obtain ⟨label, shared, -, -⟩ := e
    cases shared with
    | none => exact congrArg (Attribute.labelled label :: ·) ih
    | some items => exact ih

/-- The labels with values are invariant. -/
theorem AttributeLayout.invariants_entries (template : List AttributeLayout) :
    TemplateEntry.invariants (template.map (·.entry)) =
      template.filterMap fun e => e.shared.map (·.under e.label) := by
  induction template with
  | nil => rfl
  | cons e template ih =>
    obtain ⟨label, shared, -, -⟩ := e
    cases shared with
    | none => exact ih
    | some items => exact congrArg (items.under label :: ·) ih

namespace ObjectLayout

variable {labels : List String}

/-- The entry for a label is spelled over the attribute of the template. -/
theorem spelledBy_given {label : String} {entry : Option Image.Items}
    (hfit : ∀ items ∈ entry, items.Fits) :
    (given (label, entry)).SpelledBy (.labelled label) (entryPart entry).toBytes := by
  cases entry with
  | none => exact ⟨0x00, rfl, rfl⟩
  | some items =>
    have hlabel : Announced false Decode.identifier label [] label := ⟨rfl, rfl⟩
    have hspelled : (items.under label).SpelledBy (.ofDescriptor 0x2D) (.labelled label)
        ([] ++ items.toBytes) := Image.Items.spelledBy_under (hfit items rfl) hlabel rfl
    exact ⟨0x2D, items.toBytes, rfl, rfl, by decide, hspelled⟩

/-- The entries of an object are spelled over the attributes of the template. -/
theorem rowSpelledBy_given {entries : List (Option Image.Items)}
    (hfit : ∀ items, some items ∈ entries → items.Fits) (hlength : entries.length ≤ labels.length) :
    Given.RowSpelledBy (labels.map .labelled) ((entries.map entryPart).flatMap (·.toBytes))
      ((labels.zip entries).map given) := by
  induction entries generalizing labels with
  | nil => rw [List.zip_nil_right]; exact Given.rowSpelledBy_nil.2 rfl
  | cons entry entries ih =>
    cases labels with
    | nil => cases hlength
    | cons label labels =>
      have hentry : ∀ items ∈ entry, items.Fits := by
        rintro items rfl
        exact hfit items List.mem_cons_self
      exact ⟨_, _, List.flatMap_cons, spelledBy_given hentry,
        ih (fun items hitems => hfit items (List.mem_cons_of_mem _ hitems))
          (Nat.le_of_succ_le_succ hlength)⟩

/-- What the components say makes up the attributes of the object. -/
theorem attributes_given {o : ObjectLayout} :
    Given.attributes (labels.map .labelled) ((labels.zip o.entries).map given) =
      o.attributes labels := by
  unfold ObjectLayout.attributes
  induction o.entries generalizing labels with
  | nil => simp [Given.attributes]
  | cons entry entries ih =>
    cases labels with
    | nil => rfl
    | cons label labels =>
      cases entry with
      | none => exact ih
      | some items => exact congrArg (items.under label :: ·) ih

theorem spelledBy_group {o : ObjectLayout} (hlength : o.entries.length ≤ labels.length) :
    ObjectGroup.SpelledBy (labels.map .labelled) (o.parts.flatMap (·.toBytes)) (o.group labels) :=
  ⟨0x70, Image.objectName o.name, _, rfl, rfl, by decide, Image.spells_objectName o.name_fits,
    rowSpelledBy_given o.entries_fit hlength⟩

end ObjectLayout

namespace SetLayout

variable (l : SetLayout)

/-- The components that are written spell the set. -/
theorem spelledBy_syntaxTree : l.syntaxTree.SpelledBy l.body := by
  have hparts : l.parts.flatMap (·.toBytes) = l.template.flatMap (·.part.toBytes) ++
      l.objects.flatMap fun o => o.parts.flatMap (·.toBytes) := by
    rw [parts, List.flatMap_append, List.flatMap_map, List.flatMap_assoc]
  have htemplate : Row TemplateEntry.SpelledBy (l.template.flatMap (·.part.toBytes))
      l.syntaxTree.template := row_flatMap fun e _ => e.spelledBy_entry
  have hgroups : Row (ObjectGroup.SpelledBy (TemplateEntry.ordinary l.syntaxTree.template))
      (l.objects.flatMap fun o => o.parts.flatMap (·.toBytes)) l.syntaxTree.groups := by
    rw [syntaxTree, AttributeLayout.ordinary_entries]
    exact row_flatMap fun o ho => ObjectLayout.spelledBy_group (l.entries_length o ho)
  have htype := Image.spells_identifier l.type_fits
  unfold body Image.setBody
  rw [hparts]
  cases hname : l.name with
  | none =>
    refine ⟨0xF0, Image.identifier l.type, [], _, _, rfl, ⟨.set, rfl, rfl⟩, by decide, htype,
      ⟨rfl, hname⟩, htemplate, hgroups⟩
  | some name =>
    have hspelled : Spells (some <$> Decode.identifier) (Image.identifier name) l.name := by
      rw [hname]
      exact (Image.spells_identifier (l.name_fits name hname)).map
    refine ⟨0xF8, Image.identifier l.type, Image.identifier name, _, _, ?_, ⟨.set, rfl, rfl⟩,
      by decide, htype, hspelled, htemplate, hgroups⟩
    simp only [List.cons_append, List.append_assoc]

/-- The components declare the set. -/
theorem toSet_syntaxTree (recordType : UInt8) :
    l.syntaxTree.toSet recordType = l.set recordType := by
  have hobject : ∀ o : ObjectLayout, (o.group l.labels).object l.type (l.template.map (·.entry)) =
      ⟨.ofName l.type o.name, o.attributes l.labels ++ l.shared⟩ := by
    intro o
    rw [ObjectGroup.object, AttributeLayout.ordinary_entries, AttributeLayout.invariants_entries]
    exact congrArg (fun given => RawObject.mk _ (given ++ _)) ObjectLayout.attributes_given
  rw [SetSyntax.toSet, syntaxTree, set, List.map_map]
  exact congrArg (ObjectSet.mk _ _ _ _) (List.map_congr_left fun o _ => hobject o)

/-- Every object begins with an object component. -/
theorem documented_syntaxTree : l.syntaxTree.Documented := by
  intro g hg
  obtain ⟨o, -, rfl⟩ := List.mem_map.1 hg
  rfl

/-- **A set is read as it is written**, to the last byte. -/
theorem objectSet_body (recordType : UInt8) :
    Decode.objectSet recordType (.ofList l.body) = .ok (l.set recordType) ⟨l.body.length, []⟩ ∧
      ObjectSet.parse recordType l.body = .ok (l.set recordType) := by
  have hrun : Decode.objectSet recordType (.ofList l.body) =
      .ok (l.set recordType) ⟨l.body.length, []⟩ := by
    refine (Decode.reads_objectSet recordType 0 l.body _ _).2 ⟨l.body, [], ?_, ?_, rfl,
      l.syntaxTree, l.spelledBy_syntaxTree, l.documented_syntaxTree.tolerated, ?_⟩
    · rw [List.append_nil]
    · rw [Nat.zero_add]
    · rw [toSet_syntaxTree]
  refine ⟨hrun, ?_⟩
  rw [ObjectSet.parse, hrun]

/-- A set whose objects share `U`.  Its object has a value for `A`, does not have `B` and has no
entry for `C`. -/
def partialLayout : SetLayout where
  type := "T"
  name := none
  template := [⟨"U", some (.bytes [7]), by cbv, by rintro _ ⟨⟩; exact ⟨by decide, trivial⟩⟩,
    ⟨"A", none, by cbv, nofun⟩, ⟨"B", none, by cbv, nofun⟩, ⟨"C", none, by cbv, nofun⟩]
  objects := [⟨⟨1, 0, "X"⟩, [some (.longs [-2]), none], ⟨by decide, by cbv⟩, by
    rintro items (⟨_⟩ | ⟨_, ⟨⟩ | ⟨_, ⟨⟩⟩⟩)
    exact ⟨by decide, by simp [Image.Items.ItemsFit, Image.LongFits]⟩⟩]
  type_fits := by cbv
  name_fits := nofun
  entries_length o ho := by
    obtain rfl := List.mem_singleton.1 ho
    exact Nat.le_succ 2

example : ObjectSet.parse 3 partialLayout.body = .ok ⟨"T", none, .plain, 3, [⟨⟨"T", "X", 1, 0⟩,
    [⟨"A", 1, 14, "", [.int (-2)]⟩, ⟨"C", 1, 19, "", []⟩, ⟨"U", 1, 15, "", [.int 7]⟩]⟩]⟩ := by
  cbv

end SetLayout

end WellLog
