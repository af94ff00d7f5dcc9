import Mathlib
import WellLog.Proofs.ObjectSet.Parsing
/-!
# Which bodies are accepted

The format asks for an object component in front of every object.  The parser accepts any component
there that is no attribute, except in front of the first object.

* `SetSyntax.unique` : **no body is written in two ways**.
* `ObjectSet.parse_documented_iff` : **exactly the documented bodies are accepted**, as long as every
  object that is accepted begins with an object component.
-/

namespace WellLog

open Decode

/-! ### Bodies are written in one way only -/

theorem Decode.Reads.unique {α : Type} {x : Decode α} {R : List UInt8 → List UInt8 → α → Prop}
    (hx : Reads x R) {bytes bytes' rest rest' : List UInt8} {a a' : α} (h : R bytes rest a)
    (h' : R bytes' rest' a') (heq : bytes ++ rest = bytes' ++ rest') :
    bytes = bytes' ∧ rest = rest' ∧ a = a' := by
  have hrun := (hx.iff_of_run 0).2 h
  rw [heq, (hx.iff_of_run 0).2 h', EStateM.Result.ok.injEq, Cursor.mk.injEq] at hrun
  obtain ⟨rfl, -, rfl⟩ := hrun
  exact ⟨List.append_cancel_right heq, rfl, rfl⟩

theorem Announced.unique {α : Type} {announced : Bool} {x : Decode α} {base a a' : α}
    {bytes bytes' rest rest' : List UInt8} (h : Announced announced x base bytes a)
    (h' : Announced announced x base bytes' a') (heq : bytes ++ rest = bytes' ++ rest') :
    bytes = bytes' ∧ a = a' ∧ rest = rest' :=
  (spells_orElse_iff.2 h).unique (spells_orElse_iff.2 h') heq

namespace Given

variable {base : Attribute} {bases : List Attribute} {bytes bytes' rest rest' : List UInt8}
  {g g' : Given} {given given' : List Given}

theorem SpelledBy.exists_role (h : g.SpelledBy base bytes) : ∃ descriptor tail role,
    bytes = descriptor :: tail ∧ Role.ofDescriptor descriptor = .ok role ∧
      role.isAttribute = true := by
  cases g with
  | absent =>
    obtain ⟨descriptor, rfl, hrole⟩ := h
    exact ⟨descriptor, [], _, rfl, hrole, rfl⟩
  | own c a =>
    obtain ⟨descriptor, tail, rfl, hrole, -⟩ := h
    exact ⟨descriptor, tail, _, rfl, hrole, rfl⟩

/-- Where an attribute component stands, an object is not at its end. -/
theorem SpelledBy.not_ahead (h : g.SpelledBy base bytes) :
    ¬ Ahead (!·.isAttribute) (bytes ++ rest) := by
  obtain ⟨descriptor, tail, role, rfl, hrole, hattribute⟩ := h.exists_role
  rintro ⟨role', hrole', hother⟩
  rw [hrole] at hrole'
  cases hrole'
  simp only [hattribute, Bool.not_true, Bool.false_eq_true] at hother

theorem SpelledBy.unique (h : g.SpelledBy base bytes) (h' : g'.SpelledBy base bytes')
    (heq : bytes ++ rest = bytes' ++ rest') : bytes = bytes' ∧ g = g' ∧ rest = rest' := by
  cases g with
  | absent =>
    obtain ⟨descriptor, rfl, hrole⟩ := h
    cases g' with
    | absent =>
      obtain ⟨descriptor', rfl, -⟩ := h'
      obtain ⟨rfl, rfl⟩ := List.cons.inj heq
      exact ⟨rfl, rfl, rfl⟩
    | own c' a' =>
      obtain ⟨descriptor', tail', rfl, hrole', -⟩ := h'
      obtain ⟨rfl, -⟩ := List.cons.inj heq
      rw [hrole] at hrole'
      cases hrole'
  | own c a =>
    obtain ⟨descriptor, tail, rfl, hrole, rfl, ha⟩ := h
    cases g' with
    | absent =>
      obtain ⟨descriptor', rfl, hrole'⟩ := h'
      obtain ⟨rfl, -⟩ := List.cons.inj heq
      rw [hrole] at hrole'
      cases hrole'
    | own c' a' =>
      obtain ⟨descriptor', tail', rfl, -, rfl, ha'⟩ := h'
      obtain ⟨rfl, htail⟩ := List.cons.inj heq
      obtain ⟨rfl, rfl, rfl⟩ :=
        (Attribute.spelledBy_iff.1 ha).unique (Attribute.spelledBy_iff.1 ha') htail
      exact ⟨rfl, rfl, rfl⟩

theorem rowSpelledBy_unique (h : RowSpelledBy bases bytes given)
    (h' : RowSpelledBy bases bytes' given') (heq : bytes ++ rest = bytes' ++ rest')
    (hahead : Ahead (!·.isAttribute) rest) (hahead' : Ahead (!·.isAttribute) rest') :
    bytes = bytes' ∧ given = given' ∧ rest = rest' := by
  induction given generalizing bases bytes bytes' given' with
  | nil =>
    obtain rfl := rowSpelledBy_nil.1 h
    cases given' with
    | nil =>
      obtain rfl := rowSpelledBy_nil.1 h'
      exact ⟨rfl, rfl, heq⟩
    | cons g' given' =>
      cases bases with
      | nil => cases h'
      | cons base bases =>
        obtain ⟨first, behind, rfl, hg', -⟩ := h'
        rw [List.nil_append, List.append_assoc] at heq
        exact absurd (heq ▸ hahead) hg'.not_ahead
  | cons g given ih =>
    cases bases with
    | nil => cases h
    | cons base bases =>
      obtain ⟨first, behind, rfl, hg, hrow⟩ := h
      cases given' with
      | nil =>
        cases h'
        rw [List.nil_append, List.append_assoc] at heq
        exact absurd (heq ▸ hahead') hg.not_ahead
      | cons g' given' =>
        obtain ⟨first', behind', rfl, hg', hrow'⟩ := h'
        rw [List.append_assoc, List.append_assoc] at heq
        obtain ⟨rfl, rfl, hbehind⟩ := hg.unique hg' heq
        obtain ⟨rfl, rfl, rfl⟩ := ih hrow hrow' hbehind
        exact ⟨rfl, rfl, rfl⟩

end Given

namespace ObjectGroup

variable {bases : List Attribute} {bytes bytes' rest rest' : List UInt8} {g g' : ObjectGroup}
  {groups groups' : List ObjectGroup} {p p' : Role → Bool}

theorem SpelledBy.unique (h : g.SpelledBy bases bytes) (h' : g'.SpelledBy bases bytes')
    (heq : bytes ++ rest = bytes' ++ rest') (hahead : Ahead (!·.isAttribute) rest)
    (hahead' : Ahead (!·.isAttribute) rest') : g = g' ∧ rest = rest' := by
  obtain ⟨opener, nameOf, givenOf⟩ := g
  obtain ⟨opener', nameOf', givenOf'⟩ := g'
  obtain ⟨descriptor, name, given, rfl, hrole, -, hname, hgiven⟩ := h
  obtain ⟨descriptor', name', given', rfl, hrole', -, hname', hgiven'⟩ := h'
  obtain ⟨rfl, hbehind⟩ := List.cons.inj heq
  rw [List.append_eq, List.append_eq, List.append_assoc, List.append_assoc] at hbehind
  obtain ⟨rfl, rfl, hattributes⟩ := hname.unique hname' hbehind
  obtain ⟨rfl, rfl, rfl⟩ := Given.rowSpelledBy_unique hgiven hgiven' hattributes hahead hahead'
  rw [hrole, Except.ok.injEq] at hrole'
  obtain rfl : opener = opener' := hrole'
  exact ⟨rfl, rfl⟩

/-- What is ahead of groups is what opens the first of them. -/
theorem ahead_of_row (h : Row (ObjectGroup.SpelledBy bases) bytes groups)
    (hopened : OpenedBy p groups) : Ahead p bytes := by
  cases groups with
  | nil =>
    cases h
    trivial
  | cons g groups =>
    obtain ⟨first, behind, rfl, ⟨descriptor, name, given, rfl, hrole, -⟩, -⟩ := h
    exact ⟨g.opener, hrole, (openedBy_cons.1 hopened).1⟩

theorem row_unique (h : Row (ObjectGroup.SpelledBy bases) bytes groups)
    (h' : Row (ObjectGroup.SpelledBy bases) bytes groups') (hopened : OpenedBy p groups)
    (hopened' : OpenedBy p' groups') : groups = groups' := by
  induction groups generalizing bytes groups' p p' with
  | nil =>
    cases h
    cases groups' with
    | nil => rfl
    | cons g' groups' =>
      obtain ⟨first, behind, hnil, ⟨_, _, _, rfl, -⟩, -⟩ := h'
      cases hnil
  | cons g groups ih =>
    obtain ⟨first, behind, rfl, hg, hrow⟩ := h
    cases groups' with
    | nil =>
      obtain ⟨_, _, _, rfl, -⟩ := hg
      cases h'
    | cons g' groups' =>
      obtain ⟨first', behind', heq, hg', hrow'⟩ := h'
      have hothers := (openedBy_cons.1 hopened).2
      have hothers' := (openedBy_cons.1 hopened').2
      obtain ⟨rfl, rfl⟩ :=
        hg.unique hg' heq (ahead_of_row hrow hothers) (ahead_of_row hrow' hothers')
      rw [ih hrow hrow' hothers hothers']

end ObjectGroup

namespace SetSyntax

variable {body : List UInt8} {t t' : SetSyntax}

/-- **No body is written in two ways.** -/
theorem unique (h : t.SpelledBy body) (h' : t'.SpelledBy body) (ht : t.Tolerated)
    (ht' : t'.Tolerated) : t = t' := by
  obtain ⟨roleOf, typeOf, nameOf, templateOf, groupsOf⟩ := t
  obtain ⟨roleOf', typeOf', nameOf', templateOf', groupsOf'⟩ := t'
  obtain ⟨descriptor, type, name, template, groups, rfl, ⟨role, hrole, hset⟩, -, htype, hname,
    htemplate, hgroups⟩ := h
  obtain ⟨descriptor', type', name', template', groups', heq, ⟨role', hrole', hset'⟩, -, htype',
    hname', htemplate', hgroups'⟩ := h'
  obtain ⟨rfl, hbehind⟩ := List.cons.inj heq
  rw [hrole, Except.ok.injEq] at hrole'
  subst hrole'
  rw [hset, Except.ok.injEq] at hset'
  obtain rfl : roleOf = roleOf' := hset'
  obtain ⟨rfl, rfl, hnames⟩ := htype.unique htype' hbehind
  obtain ⟨rfl, rfl, htemplates⟩ := hname.unique hname' hnames
  obtain ⟨rfl, rfl, rfl⟩ := reads_template.unique ⟨htemplate, ObjectGroup.ahead_of_row hgroups ht⟩
    ⟨htemplate', ObjectGroup.ahead_of_row hgroups' ht'⟩ htemplates
  obtain rfl : groupsOf = groupsOf' := ObjectGroup.row_unique hgroups hgroups' ht ht'
  rfl

end SetSyntax

namespace ObjectSet

/-- **Exactly the documented bodies are accepted**, and give the objects of their object components
in order, as long as every object that is accepted begins with an object component. -/
theorem parse_documented_iff (recordType : UInt8) (body : List UInt8) :
    (∀ set, parse recordType body = .ok set ↔
      ∃ t : SetSyntax, t.SpelledBy body ∧ t.Documented ∧ set = t.toSet recordType) ↔
    ∀ t : SetSyntax, t.SpelledBy body → t.Tolerated → t.Documented := by
  constructor
  · intro h t hspelled htolerated
    obtain ⟨t', hspelled', hdocumented, -⟩ :=
      (h (t.toSet recordType)).1 (parse_eq_ok_iff.2 ⟨t, hspelled, htolerated, rfl⟩)
    rwa [SetSyntax.unique hspelled hspelled' htolerated hdocumented.tolerated]
  · intro h set
    rw [parse_eq_ok_iff]
    constructor
    · rintro ⟨t, hspelled, htolerated, rfl⟩
      exact ⟨t, hspelled, h t hspelled htolerated, rfl⟩
    · rintro ⟨t, hspelled, hdocumented, rfl⟩
      exact ⟨t, hspelled, hdocumented.tolerated, rfl⟩

/-- A set with an object, and another set component where the next object would begin. -/
def nestedSet : List UInt8 := [0xF0, 1, 0x54, 0x70, 1, 0, 1, 0x41, 0xF0, 1, 0, 1, 0x42]

/-- Its components. -/
def nestedSyntax : SetSyntax :=
  ⟨.plain, Utf8.decode [0x54], none, [],
    [⟨.object, ⟨1, 0, Utf8.decode [0x41]⟩, []⟩, ⟨.set, ⟨1, 0, Utf8.decode [0x42]⟩, []⟩]⟩

theorem spelledBy_nestedSyntax : nestedSyntax.SpelledBy nestedSet := by
  have hfirst : ObjectGroup.SpelledBy [] [0x70, 1, 0, 1, 0x41]
      ⟨.object, ⟨1, 0, Utf8.decode [0x41]⟩, []⟩ :=
    ⟨0x70, [1, 0, 1, 0x41], [], rfl, rfl, by decide, fun _ _ => rfl, rfl⟩
  have hsecond : ObjectGroup.SpelledBy [] [0xF0, 1, 0, 1, 0x42]
      ⟨.set, ⟨1, 0, Utf8.decode [0x42]⟩, []⟩ :=
    ⟨0xF0, [1, 0, 1, 0x42], [], rfl, rfl, by decide, fun _ _ => rfl, rfl⟩
  exact ⟨0xF0, [1, 0x54], [], [], [0x70, 1, 0, 1, 0x41] ++ [0xF0, 1, 0, 1, 0x42], rfl,
    ⟨.set, rfl, rfl⟩, by decide, fun _ _ => rfl, ⟨rfl, rfl⟩, rfl, _, _, rfl, hfirst, _, [], rfl,
    hsecond, rfl⟩

theorem parse_nestedSet : parse 3 nestedSet = .ok ⟨"T", none, .plain, 3,
      [⟨⟨"T", "A", 1, 0⟩, []⟩, ⟨⟨"T", "B", 1, 0⟩, []⟩]⟩ ∧
    ¬ ∃ t : SetSyntax, t.SpelledBy nestedSet ∧ t.Documented := by
  refine ⟨by cbv, ?_⟩
  rintro ⟨t, hspelled, hdocumented⟩
  have htolerated : nestedSyntax.Tolerated := by
    simp [SetSyntax.Tolerated, OpenedBy, nestedSyntax, Role.isAttribute]
  obtain rfl := SetSyntax.unique hspelled spelledBy_nestedSyntax hdocumented.tolerated htolerated
  have hset := hdocumented ⟨.set, ⟨1, 0, Utf8.decode [0x42]⟩, []⟩ (by simp [nestedSyntax])
  cases hset

end ObjectSet

end WellLog
