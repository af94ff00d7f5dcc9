import WellLog.Proofs.Decode.Lookahead
import WellLog.Proofs.ObjectSet.Grammar
import WellLog.Proofs.Run
/-!
# Parsing undoes the writing of sets

The parser looks at the role of a component only where it has to tell how to go on.  In front of the
first object that is whether the template is at its end, and behind an object whether there is
another attribute of it.  So the first object is opened by an object component, and any other one by
whatever is no attribute.

* `Decode.reads_template`, `Decode.reads_objectAttributes`, `Decode.reads_object` : the parts of a
  set are read as they are written.
* `ahead_and_rowBefore_iff` : objects one behind the other are groups, and what opens them.
* `ObjectSet.parse_eq_ok_iff` : **a body is accepted exactly if it is a set whose objects are opened
  as the parser tolerates**.
-/

namespace WellLog

open Decode

/-- The component is one of those that say something of an attribute. -/
def Role.isAttribute : Role → Bool
  | absent | ordinary | invariant => true
  | _ => false

/-- Nothing is ahead, or a component of some role. -/
def Ahead (p : Role → Bool) : List UInt8 → Prop
  | [] => True
  | descriptor :: _ => ∃ role, Role.ofDescriptor descriptor = .ok role ∧ p role = true

namespace Decode

/-! ### The template -/

variable {index position : Nat} {descriptor : UInt8} {tail bytes rest : List UInt8}

@[simp] theorem byte_cons :
    byte ⟨position, descriptor :: tail⟩ = .ok descriptor ⟨position + 1, tail⟩ :=
  spells_byte_iff.2 rfl position tail

theorem accept_bind {α β : Type} {r : Except Defect α} {f : α → Decode β} {c : Cursor} :
    (accept r >>= f) c = match r with
      | .ok a => f a c
      | .error d => .error d c := by
  cases r <;> rfl

/-- A component of the template, when its descriptor is known. -/
def templateComponent (index : Nat) (descriptor : UInt8) (invariant : Bool) :
    Decode (Option TemplateEntry) := do
  let _ ← byte
  let c := Characteristics.ofDescriptor descriptor
  if !c.label then throw (.unlabelled index)
  return some ⟨invariant, ← attributeOver c blank⟩

theorem templateEntry_cons : templateEntry index ⟨position, descriptor :: tail⟩ =
    match Role.ofDescriptor descriptor with
    | .ok .object => .ok none ⟨position, descriptor :: tail⟩
    | .ok .ordinary => templateComponent index descriptor false ⟨position, descriptor :: tail⟩
    | .ok .invariant => templateComponent index descriptor true ⟨position, descriptor :: tail⟩
    | .ok other => .error (.misplaced other.name "template") ⟨position, descriptor :: tail⟩
    | .error d => .error d ⟨position, descriptor :: tail⟩ := by
  rw [templateEntry, bind_get]
  refine accept_bind.trans ?_
  cases Role.ofDescriptor descriptor with
  | error d => rfl
  | ok role => cases role <;> rfl

theorem spells_templateComponent_iff {invariant : Bool} {found : Option TemplateEntry} :
    Spells (templateComponent index descriptor invariant) bytes found ↔
      ∃ first characteristics base, bytes = first :: characteristics ∧
        (Characteristics.ofDescriptor descriptor).label = true ∧
        base.SpelledBy (.ofDescriptor descriptor) blank characteristics ∧
        found = some ⟨invariant, base⟩ := by
  simp only [templateComponent, spells_bind_iff, spells_guard_iff, spells_byte_iff,
    spells_pure_iff, Attribute.spelledBy_iff]
  constructor
  · rintro ⟨_, _, first, rfl, rfl, hlabel, characteristics, _, base, rfl, hbase, rfl, rfl⟩
    rw [List.append_nil]
    exact ⟨first, characteristics, base, rfl, hlabel, hbase, rfl⟩
  · rintro ⟨first, characteristics, base, rfl, hlabel, hbase, rfl⟩
    exact ⟨[first], _, first, rfl, rfl, hlabel, characteristics, [], base,
      (List.append_nil _).symm, hbase, rfl, rfl⟩

instance {invariant : Bool} : SelfContained (templateComponent index descriptor invariant) := by
  unfold templateComponent
  infer_instance

/-- A component of the template that is read is one that is written. -/
theorem spelledBy_of_templateComponent {invariant : Bool} {found : Option TemplateEntry}
    {c : Cursor}
    (hrole : Role.ofDescriptor descriptor = .ok (if invariant then .invariant else .ordinary))
    (h : templateComponent index descriptor invariant ⟨position, descriptor :: tail⟩ =
      .ok found c) :
    ∃ bytes rest, descriptor :: tail = bytes ++ rest ∧ c = ⟨position + bytes.length, rest⟩ ∧
      ∃ e, found = some e ∧ e.SpelledBy bytes := by
  obtain ⟨bytes, rest, hinput, rfl, hspells⟩ := SelfContained.exists_spells h
  obtain ⟨first, characteristics, base, rfl, hlabel, hbase, rfl⟩ :=
    spells_templateComponent_iff.1 hspells
  obtain ⟨rfl, -⟩ := List.cons.inj hinput
  exact ⟨_, rest, hinput, rfl, _, rfl, descriptor, characteristics, rfl, hrole, hlabel, hbase⟩

/-- A component of the template that is written is read. -/
theorem templateEntry_of_spelledBy {e : TemplateEntry} (h : e.SpelledBy bytes) :
    templateEntry index ⟨position, bytes ++ rest⟩ =
      .ok (some e) ⟨position + bytes.length, rest⟩ := by
  obtain ⟨first, characteristics, rfl, hrole, hlabel, hbase⟩ := h
  have hspells : Spells (templateComponent index first e.invariant) (first :: characteristics)
      (some e) := spells_templateComponent_iff.2 ⟨first, characteristics, e.base, rfl, hlabel,
        hbase, rfl⟩
  rw [List.cons_append, templateEntry_cons, hrole]
  cases hinvariant : e.invariant with
  | true =>
    rw [hinvariant] at hspells
    exact hspells position rest
  | false =>
    rw [hinvariant] at hspells
    exact hspells position rest

theorem reads_templateEntry : Reads (templateEntry index)
    (ItemRead (fun bytes _ e => e.SpelledBy bytes) (Ahead (· == .object))) := by
  intro position input found c
  constructor
  · intro h
    cases input with
    | nil =>
      cases h
      exact ⟨[], [], rfl, rfl, rfl, trivial⟩
    | cons first tail =>
      rw [templateEntry_cons] at h
      split at h
      · cases h
        exact ⟨[], _, rfl, rfl, rfl, _, ‹_›, rfl⟩
      · obtain ⟨bytes, rest, hinput, rfl, e, rfl, he⟩ :=
          spelledBy_of_templateComponent (by simpa using ‹_›) h
        exact ⟨bytes, rest, hinput, rfl, he⟩
      · obtain ⟨bytes, rest, hinput, rfl, e, rfl, he⟩ :=
          spelledBy_of_templateComponent (by simpa using ‹_›) h
        exact ⟨bytes, rest, hinput, rfl, he⟩
      · cases h
      · cases h
  · rintro ⟨bytes, rest, rfl, rfl, hfound⟩
    cases found with
    | none =>
      obtain ⟨rfl, hahead⟩ := hfound
      cases rest with
      | nil => rfl
      | cons first tail =>
        obtain ⟨role, hrole, hobject⟩ := hahead
        obtain rfl := beq_iff_eq.1 hobject
        rw [List.nil_append, templateEntry_cons, hrole]
        rfl
    | some e => exact templateEntry_of_spelledBy hfound

/-- The template is read as it is written, up to the first object. -/
theorem reads_template : Reads template fun bytes rest l =>
    Row TemplateEntry.SpelledBy bytes l ∧ Ahead (· == .object) rest := by
  refine (reads_items (fun _ => reads_templateEntry) ?_ trivial).congr fun bytes rest l => ?_
  · rintro _ e ⟨_, _, h, -⟩
    cases h
  · rw [rowBefore_iff_row]

/-! ### Objects -/

theorem attributeAhead_cons : attributeAhead ⟨position, descriptor :: tail⟩ =
    match Role.ofDescriptor descriptor with
    | .ok .invariant => .error (.misplaced Role.invariant.name "object") ⟨position, descriptor :: tail⟩
    | .ok .absent => .ok (some (.absent, .ofDescriptor descriptor)) ⟨position, descriptor :: tail⟩
    | .ok .ordinary => .ok (some (.ordinary, .ofDescriptor descriptor)) ⟨position, descriptor :: tail⟩
    | .ok _ => .ok none ⟨position, descriptor :: tail⟩
    | .error d => .error d ⟨position, descriptor :: tail⟩ := by
  rw [attributeAhead, bind_get]
  refine accept_bind.trans ?_
  cases Role.ofDescriptor descriptor with
  | error d => rfl
  | ok role => cases role <;> rfl

theorem attributeAhead_of_ahead (h : Ahead (!·.isAttribute) rest) :
    attributeAhead ⟨position, rest⟩ = .ok none ⟨position, rest⟩ := by
  cases rest with
  | nil => rfl
  | cons descriptor tail =>
    obtain ⟨role, hrole, hother⟩ := h
    rw [attributeAhead_cons, hrole]
    cases role with
    | absent | ordinary | invariant => cases hother
    | object | redundantSet | replacementSet | set => rfl

theorem of_attributeAhead {found : Option (Role × Characteristics)} {c : Cursor}
    (h : attributeAhead ⟨position, rest⟩ = .ok found c) : c = ⟨position, rest⟩ ∧
      match found with
      | none => Ahead (!·.isAttribute) rest
      | some (role, characteristics) => ∃ descriptor tail, rest = descriptor :: tail ∧
        Role.ofDescriptor descriptor = .ok role ∧
        Characteristics.ofDescriptor descriptor = characteristics ∧
        (role = .absent ∨ role = .ordinary) := by
  cases rest with
  | nil =>
    cases h
    exact ⟨rfl, trivial⟩
  | cons descriptor tail =>
    rw [attributeAhead_cons] at h
    cases hrole : Role.ofDescriptor descriptor with
    | error d =>
      rw [hrole] at h
      cases h
    | ok role =>
      rw [hrole] at h
      cases role with
      | invariant => cases h
      | absent =>
        cases h
        exact ⟨rfl, descriptor, tail, rfl, hrole, rfl, .inl rfl⟩
      | ordinary =>
        cases h
        exact ⟨rfl, descriptor, tail, rfl, hrole, rfl, .inr rfl⟩
      | object | redundantSet | replacementSet | set =>
        cases h
        exact ⟨rfl, _, hrole, rfl⟩

variable {base : Attribute} {bases : List Attribute}

/-- Without another component, the object has the attributes of the template. -/
theorem objectAttributes_of_ahead (h : Ahead (!·.isAttribute) rest) :
    objectAttributes bases ⟨position, rest⟩ = .ok bases ⟨position, rest⟩ := by
  cases bases with
  | nil => exact bind_eq_ok_iff.2 ⟨none, _, attributeAhead_of_ahead h, rfl⟩
  | cons base bases => exact bind_eq_ok_iff.2 ⟨none, _, attributeAhead_of_ahead h, rfl⟩

theorem objectAttributes_of_absent (h : Role.ofDescriptor descriptor = .ok .absent) :
    objectAttributes (base :: bases) ⟨position, descriptor :: tail⟩ =
      objectAttributes bases ⟨position + 1, tail⟩ := by
  have hahead := @attributeAhead_cons position descriptor tail
  rw [h] at hahead
  simp only [objectAttributes, bind, EStateM.bind, hahead, byte_cons, if_true]

/-- The next attribute of an object, and the others. -/
def ownAttributes (c : Characteristics) (base : Attribute) (others : List Attribute) :
    Decode (List Attribute) := do
  let own ← attributeOver c base
  return { own with label := base.label } :: (← objectAttributes others)

theorem objectAttributes_of_ordinary (h : Role.ofDescriptor descriptor = .ok .ordinary) :
    objectAttributes (base :: bases) ⟨position, descriptor :: tail⟩ =
      ownAttributes (.ofDescriptor descriptor) base bases ⟨position + 1, tail⟩ := by
  have hahead := @attributeAhead_cons position descriptor tail
  rw [h] at hahead
  simp only [objectAttributes, ownAttributes, bind, EStateM.bind, hahead, byte_cons, reduceCtorEq,
    if_false]

/-- There are no other ways to go on. -/
theorem of_objectAttributes {l : List Attribute} {c : Cursor}
    (h : objectAttributes bases ⟨position, rest⟩ = .ok l c) :
    Ahead (!·.isAttribute) rest ∨ ∃ base others descriptor tail, bases = base :: others ∧
      rest = descriptor :: tail ∧ (Role.ofDescriptor descriptor = .ok .absent ∨
        Role.ofDescriptor descriptor = .ok .ordinary) := by
  cases bases with
  | nil =>
    obtain ⟨found, c₁, hahead, hrest⟩ := bind_eq_ok_iff.1 h
    cases found with
    | none => exact .inl (of_attributeAhead hahead).2
    | some found => cases hrest
  | cons base bases =>
    obtain ⟨found, c₁, hahead, hrest⟩ := bind_eq_ok_iff.1 h
    cases found with
    | none => exact .inl (of_attributeAhead hahead).2
    | some found =>
      obtain ⟨-, descriptor, tail, rfl, hrole, -, hattribute⟩ := of_attributeAhead hahead
      refine .inr ⟨base, bases, descriptor, tail, rfl, rfl, ?_⟩
      rw [hrole]
      exact hattribute.imp (congrArg _) (congrArg _)

/-- Some bytes are the attribute components of an object, behind which none is ahead, and the
attributes are what they say over those of the template. -/
def AttributesRead (bases : List Attribute) (bytes rest : List UInt8) (l : List Attribute) : Prop :=
  ∃ given, Given.RowSpelledBy bases bytes given ∧ l = Given.attributes bases given ∧
    Ahead (!·.isAttribute) rest

theorem attributesRead_nil (h : Ahead (!·.isAttribute) rest) :
    AttributesRead bases [] rest bases := by
  refine ⟨[], Given.rowSpelledBy_nil.2 rfl, ?_, h⟩
  rw [Given.attributes]

section

variable {l : List Attribute} {c : Cursor}
  (hothers : Reads (objectAttributes bases) (AttributesRead bases))
include hothers

/-- An attribute and the others behind it are read as they are written. -/
theorem reads_ownAttributes (characteristics : Characteristics) :
    Reads (ownAttributes characteristics base bases) fun bytes rest l =>
      ∃ first behind, ∃ a : Attribute, ∃ others, bytes = first ++ behind ∧
        a.SpelledBy characteristics base first ∧ AttributesRead bases behind rest others ∧
        l = { a with label := base.label } :: others := by
  refine (reads_of_selfContained.bind fun own => hothers.bind fun more => .pure).congr
    fun bytes rest l => ?_
  simp only [← Attribute.spelledBy_iff]
  constructor
  · rintro ⟨first, _, a, rfl, ha, behind, _, others, rfl, hread, rfl, rfl⟩
    rw [List.append_nil]
    exact ⟨first, behind, a, others, rfl, ha, hread, rfl⟩
  · rintro ⟨first, behind, a, others, rfl, ha, hread, rfl⟩
    exact ⟨first, behind, a, rfl, ha, behind, [], others, (List.append_nil _).symm, hread, rfl, rfl⟩

/-- What is read of an object are components that are written. -/
theorem attributesRead_of_run
    (h : objectAttributes (base :: bases) ⟨position, bytes⟩ = .ok l c) :
    ∃ first rest, bytes = first ++ rest ∧ c = ⟨position + first.length, rest⟩ ∧
      AttributesRead (base :: bases) first rest l := by
  obtain hahead | ⟨_, _, descriptor, tail, ⟨⟩, rfl, hrole | hrole⟩ := of_objectAttributes h
  · rw [objectAttributes_of_ahead hahead, EStateM.Result.ok.injEq] at h
    obtain ⟨rfl, rfl⟩ := h
    exact ⟨[], bytes, rfl, rfl, attributesRead_nil hahead⟩
  · rw [objectAttributes_of_absent hrole] at h
    obtain ⟨behind, rest, rfl, rfl, given, hrow, rfl, hahead⟩ := (hothers _ _ _ _).1 h
    refine ⟨descriptor :: behind, rest, rfl, ?_, .absent :: given,
      ⟨[descriptor], behind, rfl, ⟨descriptor, rfl, hrole⟩, hrow⟩, rfl, hahead⟩
    rw [List.length_cons, Nat.add_assoc, Nat.add_comm 1]
  · rw [objectAttributes_of_ordinary hrole] at h
    obtain ⟨_, rest, rfl, rfl, first, behind, a, _, rfl, ha, ⟨given, hrow, rfl, hahead⟩, rfl⟩ :=
      (reads_ownAttributes hothers _ _ _ _ _).1 h
    refine ⟨descriptor :: (first ++ behind), rest, rfl, ?_, .own _ a :: given,
      ⟨descriptor :: first, behind, rfl, ⟨descriptor, first, rfl, hrole, rfl, ha⟩, hrow⟩, rfl,
      hahead⟩
    rw [List.length_cons, Nat.add_assoc, Nat.add_comm 1]

/-- Components that are written are read. -/
theorem run_of_attributesRead (h : AttributesRead (base :: bases) bytes rest l) :
    objectAttributes (base :: bases) ⟨position, bytes ++ rest⟩ =
      .ok l ⟨position + bytes.length, rest⟩ := by
  obtain ⟨given, hrow, rfl, hahead⟩ := h
  cases given with
  | nil =>
    cases hrow
    exact objectAttributes_of_ahead hahead
  | cons g given =>
    obtain ⟨first, behind, rfl, hg, hrow⟩ := hrow
    cases g with
    | absent =>
      obtain ⟨descriptor, rfl, hrole⟩ := hg
      refine (objectAttributes_of_absent hrole).trans
        ((hothers _ _ _ _).2 ⟨behind, rest, rfl, ?_, given, hrow, rfl, hahead⟩)
      rw [List.length_append, List.length_singleton, Nat.add_assoc]
    | own characteristics a =>
      obtain ⟨descriptor, own, rfl, hrole, rfl, ha⟩ := hg
      refine (objectAttributes_of_ordinary hrole).trans ((reads_ownAttributes hothers _ _ _ _ _).2
        ⟨own ++ behind, rest, rfl, ?_, own, behind, a, _, rfl, ha, ⟨given, hrow, rfl, hahead⟩, rfl⟩)
      rw [List.cons_append, List.length_cons, Nat.add_assoc, Nat.add_comm 1]

end

/-- The attributes of an object are read as they are written, up to the next component that is none
of them. -/
theorem reads_objectAttributes (bases : List Attribute) :
    Reads (objectAttributes bases) (AttributesRead bases) := by
  induction bases with
  | nil =>
    intro position input l c
    constructor
    · intro h
      obtain hahead | ⟨_, _, _, _, hbases, -⟩ := of_objectAttributes h
      · rw [objectAttributes_of_ahead hahead, EStateM.Result.ok.injEq] at h
        obtain ⟨rfl, rfl⟩ := h
        exact ⟨[], input, rfl, rfl, attributesRead_nil hahead⟩
      · cases hbases
    · rintro ⟨bytes, rest, rfl, rfl, given, hrow, rfl, hahead⟩
      cases given with
      | nil =>
        cases hrow
        exact objectAttributes_of_ahead hahead
      | cons g given => cases hrow
  | cons base bases ih =>
    intro position input l c
    constructor
    · exact attributesRead_of_run ih
    · rintro ⟨bytes, rest, rfl, rfl, h⟩
      exact run_of_attributesRead ih h

/-- Some bytes are an object, whatever the role of the component that it begins with. -/
def ObjectAt (bases : List Attribute) (bytes : List UInt8) (g : ObjectGroup) : Prop :=
  ∃ descriptor name given, bytes = descriptor :: (name ++ given) ∧
    (Characteristics.ofDescriptor descriptor).label = true ∧
    Spells objectName name g.name ∧ Given.RowSpelledBy bases given g.given

/-- Some bytes are an object, behind which no attribute component is ahead. -/
def ObjectRead (type : String) (template : List TemplateEntry) (bytes rest : List UInt8)
    (o : RawObject) : Prop :=
  ∃ g : ObjectGroup, ObjectAt (TemplateEntry.ordinary template) bytes g ∧
    o = g.object type template ∧ Ahead (!·.isAttribute) rest

variable {type : String} {template : List TemplateEntry}

/-- An object is read as it is written. -/
theorem reads_object : Reads (object type template) (ObjectRead type template) := by
  refine (reads_of_selfContained.bind fun descriptor => Reads.guard fun _ =>
    reads_of_selfContained.bind fun name => (reads_objectAttributes _).bind fun _ => .pure).congr
    fun bytes rest o => ?_
  constructor
  · rintro ⟨_, _, descriptor, rfl, hbyte, hlabel, name, _, nameOf, rfl, hname, givenBytes, _, _, rfl,
      ⟨given, hgiven, rfl, hahead⟩, rfl, rfl⟩
    rw [spells_byte_iff.1 hbyte, List.append_nil]
    exact ⟨⟨.object, nameOf, given⟩, ⟨descriptor, name, givenBytes, rfl, hlabel, hname, hgiven⟩, rfl,
      hahead⟩
  · rintro ⟨g, ⟨descriptor, name, given, rfl, hlabel, hname, hgiven⟩, rfl, hahead⟩
    exact ⟨[descriptor], _, descriptor, rfl, spells_byte_iff.2 rfl, hlabel, name, _, g.name, rfl,
      hname, given, [], _, (List.append_nil _).symm, ⟨g.given, hgiven, rfl, hahead⟩, rfl, rfl⟩

/-- The next object, if there is one. -/
def nextObject (type : String) (template : List TemplateEntry) : Decode (Option RawObject) := do
  if (← get).isEmpty then return none else return some (← object type template)

theorem not_objectRead_nil {rest : List UInt8} {o : RawObject} :
    ¬ ObjectRead type template [] rest o := by
  rintro ⟨_, ⟨_, _, _, h, -⟩, -⟩
  cases h

theorem reads_nextObject :
    Reads (nextObject type template) (ItemRead (ObjectRead type template) (· = [])) := by
  intro position input found c
  cases input with
  | nil =>
    constructor
    · intro h
      cases h
      exact ⟨[], [], rfl, rfl, rfl, rfl⟩
    · rintro ⟨bytes, rest, hinput, rfl, hfound⟩
      obtain ⟨rfl, rfl⟩ := List.append_eq_nil_iff.1 hinput.symm
      cases found with
      | none => rfl
      | some o => exact absurd hfound not_objectRead_nil
  | cons descriptor tail =>
    refine ((reads_object.bind fun o => .pure (a := some o)) _ _ _ _).trans ?_
    refine exists_congr fun bytes => exists_congr fun rest => and_congr_right fun hinput =>
      and_congr_right fun _ => ?_
    constructor
    · rintro ⟨bytes, _, o, rfl, ho, rfl, rfl⟩
      rw [List.append_nil]
      exact ho
    · intro hfound
      cases found with
      | none =>
        obtain ⟨rfl, rfl⟩ := hfound
        cases hinput
      | some o => exact ⟨bytes, [], o, (List.append_nil _).symm, hfound, rfl, rfl⟩

/-- The template and the objects, behind the set component. -/
def setBehind (recordType : UInt8) (role : SetRole) (type : String) (name : Option String) :
    Decode ObjectSet := do
  let template ← Decode.template
  let objects ← items fun _ => nextObject type template
  return ⟨type, name, role, recordType, objects⟩

theorem objectSet_eq (recordType : UInt8) : objectSet recordType = (do
    let descriptor ← byte
    let role ← accept (Role.ofDescriptor descriptor)
    let role ← accept (setRole role)
    let c := Characteristics.ofDescriptor descriptor
    if !c.label then throw .untypedSet
    let type ← identifier
    let name ← orElse c.count (some <$> identifier) none
    setBehind recordType role type name) := by
  have hname : ∀ (descriptor : UInt8) (k : Option String → Decode ObjectSet),
      (if (Characteristics.ofDescriptor descriptor).count then some <$> identifier >>= k
        else pure none >>= k) =
      orElse (Characteristics.ofDescriptor descriptor).count (some <$> identifier) none >>= k := by
    intro descriptor k
    cases (Characteristics.ofDescriptor descriptor).count <;> rfl
  simp only [← hname]
  rfl

end Decode

/-! ### Groups -/

/-- The first group begins with a component of some role, and every other one with a component that
is not an attribute. -/
def OpenedBy (p : Role → Bool) (groups : List ObjectGroup) : Prop :=
  (∀ g ∈ groups.head?, p g.opener = true) ∧ ∀ g ∈ groups.tail, g.opener.isAttribute = false

theorem openedBy_cons {p : Role → Bool} {g : ObjectGroup} {groups : List ObjectGroup} :
    OpenedBy p (g :: groups) ↔ p g.opener = true ∧ OpenedBy (!·.isAttribute) groups := by
  cases groups with
  | nil => simp [OpenedBy]
  | cons g' groups => simp [OpenedBy]

/-- Objects in front of nothing else are groups, and their openers are as the parser expects them. -/
theorem ahead_and_rowBefore_iff {type : String} {template : List TemplateEntry} {p : Role → Bool}
    {bytes : List UInt8} {objects : List RawObject} :
    Ahead p bytes ∧ RowBefore (ObjectRead type template) [] bytes objects ↔
      ∃ groups, Row (ObjectGroup.SpelledBy (TemplateEntry.ordinary template)) bytes groups ∧
        OpenedBy p groups ∧ objects = groups.map (·.object type template) := by
  induction objects generalizing p bytes with
  | nil =>
    constructor
    · rintro ⟨-, rfl⟩
      exact ⟨[], rfl, ⟨nofun, nofun⟩, rfl⟩
    · rintro ⟨groups, hrow, -, hobjects⟩
      cases List.map_eq_nil_iff.1 hobjects.symm
      cases hrow
      exact ⟨trivial, rfl⟩
  | cons o objects ih =>
    constructor
    · rintro ⟨hahead, first, behind, rfl, ⟨g, ⟨descriptor, name, given, rfl, hlabel, hname, hgiven⟩,
        rfl, hnext⟩, hrow⟩
      rw [List.append_nil] at hnext
      obtain ⟨role, hrole, hp⟩ := hahead
      obtain ⟨groups, hgroups, hopened, rfl⟩ := ih.1 ⟨hnext, hrow⟩
      exact ⟨{ g with opener := role } :: groups, ⟨_, behind, rfl, ⟨descriptor, name, given, rfl,
        hrole, hlabel, hname, hgiven⟩, hgroups⟩, openedBy_cons.2 ⟨hp, hopened⟩, rfl⟩
    · rintro ⟨groups, hgroups, hopened, hobjects⟩
      cases groups with
      | nil => cases hobjects
      | cons g groups =>
        obtain ⟨first, behind, rfl, ⟨descriptor, name, given, rfl, hrole, hlabel, hname, hgiven⟩,
          hgroups⟩ := hgroups
        obtain ⟨hp, hopened⟩ := openedBy_cons.1 hopened
        obtain ⟨rfl, rfl⟩ := List.cons.inj hobjects
        obtain ⟨hnext, hrow⟩ := ih.2 ⟨groups, hgroups, hopened, rfl⟩
        refine ⟨⟨g.opener, hrole, hp⟩, _, behind, rfl, ⟨g, ⟨descriptor, name, given, rfl, hlabel,
          hname, hgiven⟩, rfl, ?_⟩, hrow⟩
        rwa [List.append_nil]

namespace SetSyntax

/-- The first object begins with an object component, and every other one with a component that is
not an attribute. -/
def Tolerated (t : SetSyntax) : Prop := OpenedBy (· == .object) t.groups

/-- Every object begins with an object component. -/
def Documented (t : SetSyntax) : Prop := ∀ g ∈ t.groups, g.opener = .object

theorem Documented.tolerated {t : SetSyntax} (h : t.Documented) : t.Tolerated := by
  refine ⟨fun g hg => beq_iff_eq.2 (h g (List.mem_of_mem_head? hg)), fun g hg => ?_⟩
  rw [h g (List.mem_of_mem_tail hg)]
  rfl

end SetSyntax

/-- **A set is parsed as it is written.** -/
theorem Decode.reads_objectSet (recordType : UInt8) :
    Reads (objectSet recordType) fun body rest set => rest = [] ∧
      ∃ t : SetSyntax, t.SpelledBy body ∧ t.Tolerated ∧ set = t.toSet recordType := by
  rw [objectSet_eq]
  refine (reads_of_selfContained.bind fun descriptor => Reads.accept.bind fun role =>
    Reads.accept.bind fun setRole => Reads.guard fun _ => reads_of_selfContained.bind fun type =>
    reads_of_selfContained.bind fun name => reads_template.bind fun template =>
    (reads_items (fun _ => reads_nextObject) (fun _ _ => not_objectRead_nil) rfl).bind fun objects =>
    .pure).congr fun body rest set => ?_
  simp only [spells_orElse_iff]
  constructor
  · rintro ⟨_, _, descriptor, rfl, hbyte, _, _, role, rfl, ⟨rfl, hrole⟩, _, _, setRole, rfl,
      ⟨rfl, hsetRole⟩, hlabel, typeBytes, _, type, rfl, htype, nameBytes, _, name, rfl, hname,
      templateBytes, _, template, rfl, ⟨htemplate, hahead⟩, groupBytes, _, objects, rfl,
      ⟨hobjects, hend⟩, rfl, rfl⟩
    obtain rfl : rest = [] := hend
    obtain ⟨groups, hgroups, hopened, rfl⟩ :=
      ahead_and_rowBefore_iff.1 ⟨by simpa using hahead, hobjects⟩
    refine ⟨rfl, ⟨setRole, type, name, template, groups⟩, ⟨descriptor, typeBytes, nameBytes,
      templateBytes, groupBytes, ?_, ⟨role, hrole, hsetRole⟩, hlabel, htype, hname, htemplate,
      hgroups⟩, hopened, rfl⟩
    rw [spells_byte_iff.1 hbyte, List.append_nil]
    rfl
  · rintro ⟨rfl, t, ⟨descriptor, typeBytes, nameBytes, templateBytes, groupBytes, rfl,
      ⟨role, hrole, hsetRole⟩, hlabel, htype, hname, htemplate, hgroups⟩, htolerated, rfl⟩
    obtain ⟨hahead, hobjects⟩ := ahead_and_rowBefore_iff.2 ⟨t.groups, hgroups, htolerated, rfl⟩
    refine ⟨[descriptor], _, descriptor, rfl, spells_byte_iff.2 rfl, [], _, role, rfl, ⟨rfl, hrole⟩,
      [], _, t.role, rfl, ⟨rfl, hsetRole⟩, hlabel, typeBytes, _, t.type, rfl, htype, nameBytes, _,
      t.name, rfl, hname, templateBytes, _, t.template, rfl, ⟨htemplate, ?_⟩, groupBytes, [], _,
      (List.append_nil _).symm, ⟨hobjects, rfl⟩, rfl, rfl⟩
    rwa [List.append_nil]

/-- **A body is accepted exactly if it is a set whose objects are opened as the parser tolerates**,
and the result is the set that it declares. -/
theorem ObjectSet.parse_eq_ok_iff {recordType : UInt8} {body : List UInt8} {set : ObjectSet} :
    ObjectSet.parse recordType body = .ok set ↔
      ∃ t : SetSyntax, t.SpelledBy body ∧ t.Tolerated ∧ set = t.toSet recordType := by
  have hrun : ObjectSet.parse recordType body = .ok set ↔
      ∃ c, Decode.objectSet recordType ⟨0, body⟩ = .ok set c := by
    rw [ObjectSet.parse, Cursor.ofList]
    cases Decode.objectSet recordType ⟨0, body⟩ with
    | ok set' c => simp
    | error d c => simp
  rw [hrun]
  constructor
  · rintro ⟨c, h⟩
    obtain ⟨bytes, rest, rfl, -, rfl, hset⟩ := (reads_objectSet recordType _ _ _ _).1 h
    rwa [List.append_nil]
  · intro hset
    exact ⟨_, (reads_objectSet recordType 0 body set _).2
      ⟨body, [], (List.append_nil _).symm, rfl, rfl, hset⟩⟩

end WellLog
