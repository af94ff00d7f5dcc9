import WellLog.Proofs.ObjectSet.Acceptance
/-!
# What an object takes from its template

The components of an object are matched to the ordinary attributes of the template by position, and
a position is used up by every component, that of an absent attribute too.  A component says at most
five things, its characteristics, and `Component.onto` puts them in place of those of the attribute
of the template.  An object is then a function of the template, its name and what its own components
say.

* `Given.attributes_eq` : the attributes that a row of components gives, position by position.
* `Component.sublist_labels` : labels are those of the template, in its order.
* `ObjectSet.parse_inherits` : **every object of a set has the attributes of the template under its
  own components**.
-/

namespace WellLog

open Decode

/-- What an attribute component says: those of its characteristics that it has. -/
structure Component where
  /-- The label. -/
  label : Option String
  /-- The count. -/
  count : Option Nat
  /-- The representation code. -/
  code : Option UInt8
  /-- The units. -/
  units : Option String
  /-- The values. -/
  values : Option (List Value)
  deriving DecidableEq, Repr

namespace Component

/-- The characteristics of an attribute that are announced. -/
def announced (c : Characteristics) (a : Attribute) : Component where
  label := if c.label then some a.label else none
  count := if c.count then some a.count else none
  code := if c.code then some a.code else none
  units := if c.units then some a.units else none
  values := if c.value then some a.values else none

/-- There are no values: the component has none of its own, has a count or a code, and the count in
force is zero. -/
def Empties (k : Component) (base : Attribute) : Prop :=
  k.values = none ∧ (k.count.isSome ∨ k.code.isSome) ∧ k.count.getD base.count = 0

instance (k : Component) (base : Attribute) : Decidable (k.Empties base) :=
  inferInstanceAs (Decidable
    (k.values = none ∧ (k.count.isSome ∨ k.code.isSome) ∧ k.count.getD base.count = 0))

/-- An attribute of the template with the characteristics of a component in place of its own.  The
label stays. -/
def onto (k : Component) (base : Attribute) : Attribute where
  label := base.label
  count := k.count.getD base.count
  code := k.code.getD base.code
  units := k.units.getD base.units
  values := if k.Empties base then [] else k.values.getD base.values

/-- The ordinary attributes of the template under what the components of an object say, `none` for
one that is absent: the first ones under the components at their positions, the others as they
are. -/
def matched (ordinary : List Attribute) (said : List (Option Component)) : List Attribute :=
  (ordinary.zip said).filterMap (fun p => p.2.map (·.onto p.1)) ++ ordinary.drop said.length

/-- The attributes of an object by what its components say.  The invariant ones come last. -/
def inherit (template : List TemplateEntry) (said : List (Option Component)) : List Attribute :=
  matched (TemplateEntry.ordinary template) said ++ TemplateEntry.invariants template

theorem matched_cons (base : Attribute) (ordinary : List Attribute) (k : Component)
    (said : List (Option Component)) :
    matched (base :: ordinary) (some k :: said) = k.onto base :: matched ordinary said := rfl

theorem sublist_labels_matched (ordinary : List Attribute) (said : List (Option Component)) :
    ((matched ordinary said).map (·.label)).Sublist (ordinary.map (·.label)) := by
  induction ordinary generalizing said with
  | nil => simp [matched]
  | cons base ordinary ih =>
    cases said with
    | nil => exact List.Sublist.refl _
    | cons k said =>
      cases k with
      | none => exact (ih said).cons _
      | some k => exact (ih said).cons_cons _

/-- The labels of an object are those of the template, ordinary ones first, without those of absent
attributes. -/
theorem sublist_labels (template : List TemplateEntry) (said : List (Option Component)) :
    ((inherit template said).map (·.label)).Sublist
      ((TemplateEntry.ordinary template ++ TemplateEntry.invariants template).map (·.label)) := by
  rw [inherit, List.map_append, List.map_append]
  exact (sublist_labels_matched _ said).append (List.Sublist.refl _)

end Component

/-- The characteristics that a component of an object has, none if the attribute is absent. -/
def Given.said : Given → Option Component
  | absent => none
  | own c a => some (.announced c a)

theorem Announced.getD_eq {α : Type} {announced : Bool} {x : Decode α} {base a : α}
    {bytes : List UInt8} (h : Announced announced x base bytes a) :
    (if announced then some a else none).getD base = a := by
  cases announced with
  | true => rfl
  | false => exact h.2.symm

/-- A component that is read over an attribute puts what it says in place, and nothing else. -/
theorem Attribute.SpelledBy.announced_onto {a base : Attribute} {c : Characteristics}
    {bytes : List UInt8} (h : a.SpelledBy c base bytes) :
    (Component.announced c a).onto base = { a with label := base.label } := by
  obtain ⟨_, _, _, _, _, -, -, hcount, hcode, hunits, hvalues⟩ := h
  have hemptied : (if (Component.announced c a).Empties base then []
      else (Component.announced c a).values.getD base.values) = a.values := by
    cases hc : c.value with
    | true => simp [Component.Empties, Component.announced, hc]
    | false =>
      rw [hc] at hvalues
      rw [hvalues.2, Attribute.inherited]
      simp only [Component.Empties, Component.announced, hcount.getD_eq, hc]
      cases c.count <;> cases c.code <;> simp
  rw [Component.onto, hemptied]
  simp only [Component.announced, hcount.getD_eq, hcode.getD_eq, hunits.getD_eq]

namespace Given

variable {bases : List Attribute} {bytes : List UInt8} {given : List Given}

theorem length_le_of_rowSpelledBy (h : RowSpelledBy bases bytes given) :
    given.length ≤ bases.length := by
  induction bases generalizing bytes given with
  | nil =>
    cases given with
    | nil => exact Nat.le_refl _
    | cons g given => cases h
  | cons base bases ih =>
    cases given with
    | nil => exact Nat.zero_le _
    | cons g given =>
      obtain ⟨_, _, -, -, hothers⟩ := h
      exact Nat.succ_le_succ (ih hothers)

/-- What a row of components makes of the attributes of the template, position by position. -/
theorem attributes_eq (h : RowSpelledBy bases bytes given) :
    attributes bases given = Component.matched bases (given.map said) := by
  induction bases generalizing bytes given with
  | nil =>
    cases given with
    | nil => rfl
    | cons g given => cases h
  | cons base bases ih =>
    cases given with
    | nil => rfl
    | cons g given =>
      obtain ⟨_, _, -, hg, hothers⟩ := h
      cases g with
      | absent => exact ih hothers
      | own c a =>
        obtain ⟨_, _, -, -, -, ha⟩ := hg
        rw [attributes, ih hothers, List.map_cons, said, Component.matched_cons, ha.announced_onto]

end Given

namespace ObjectSet

/-- **Every object of a set has the attributes of the template under its own components.**  There is
one way to take the body apart, and by it the objects are functions of the template and of their own
name and components alone: at each of the first positions the attribute with what the component says
in place, or none if it is absent, then the ordinary attributes without a component and the
invariant ones as they are. -/
theorem parse_inherits {recordType : UInt8} {body : List UInt8} {set : ObjectSet}
    (h : parse recordType body = .ok set) :
    ∃ t : SetSyntax, (∀ t' : SetSyntax, t'.SpelledBy body ∧ t'.Tolerated ↔ t' = t) ∧
      set.objects = t.groups.map (fun g =>
        ⟨.ofName t.type g.name, Component.inherit t.template (g.given.map Given.said)⟩) ∧
      (∀ g ∈ t.groups, g.given.length ≤ (TemplateEntry.ordinary t.template).length) ∧
      ∀ o ∈ set.objects, (o.attributes.map (·.label)).Sublist
        ((TemplateEntry.ordinary t.template ++ TemplateEntry.invariants t.template).map
          (·.label)) := by
  obtain ⟨t, hspelled, htolerated, rfl⟩ := parse_eq_ok_iff.1 h
  have hunique (t' : SetSyntax) : t'.SpelledBy body ∧ t'.Tolerated ↔ t' = t := by
    constructor
    · exact fun ⟨hspelled', htolerated'⟩ =>
        SetSyntax.unique hspelled' hspelled htolerated' htolerated
    · rintro rfl
      exact ⟨hspelled, htolerated⟩
  obtain ⟨_, _, _, _, _, -, -, -, -, -, -, hgroups⟩ := hspelled
  have hrow : ∀ g ∈ t.groups, ∃ bytes,
      Given.RowSpelledBy (TemplateEntry.ordinary t.template) bytes g.given := by
    intro g hg
    obtain ⟨_, _, _, bytes, -, -, -, -, hgiven⟩ := hgroups.exists_of_mem hg
    exact ⟨bytes, hgiven⟩
  have hobjects : (t.toSet recordType).objects = t.groups.map (fun g =>
      ⟨.ofName t.type g.name, Component.inherit t.template (g.given.map Given.said)⟩) := by
    refine List.map_congr_left fun g hg => ?_
    obtain ⟨bytes, hgiven⟩ := hrow g hg
    rw [ObjectGroup.object, Given.attributes_eq hgiven, Component.inherit]
  refine ⟨t, hunique, hobjects, fun g hg => ?_, fun o ho => ?_⟩
  · obtain ⟨bytes, hgiven⟩ := hrow g hg
    exact Given.length_le_of_rowSpelledBy hgiven
  · rw [hobjects] at ho
    obtain ⟨g, -, rfl⟩ := List.mem_map.1 ho
    exact Component.sublist_labels t.template _

/-- A set whose template has an ordinary attribute, an invariant one and two more ordinary ones.
The first object lacks the first and has another count for the second, and thereby no values.  The
second object has a value for the first and says nothing of the others. -/
def mixedSet : List UInt8 :=
  [0xF0, 1, 0x54] ++
    [0x35, 1, 0x4C, 15, 5] ++ [0x55, 1, 0x49, 15, 6] ++ [0x35, 1, 0x4D, 15, 7] ++
      [0x35, 1, 0x4E, 15, 8] ++
    [0x70, 1, 0, 1, 0x41, 0x00, 0x28, 0] ++ [0x70, 1, 0, 1, 0x42, 0x21, 9]

/-- Its objects. -/
def mixedObjects : List RawObject :=
  [⟨⟨"T", "A", 1, 0⟩,
      [⟨"M", 0, 15, "", []⟩, ⟨"N", 1, 15, "", [.int 8]⟩, ⟨"I", 1, 15, "", [.int 6]⟩]⟩,
    ⟨⟨"T", "B", 1, 0⟩, [⟨"L", 1, 15, "", [.int 9]⟩, ⟨"M", 1, 15, "", [.int 7]⟩,
      ⟨"N", 1, 15, "", [.int 8]⟩, ⟨"I", 1, 15, "", [.int 6]⟩]⟩]

theorem inherits_mixedSet :
    parse 3 mixedSet = .ok ⟨"T", none, .plain, 3, mixedObjects⟩ ∧
    ∃ t : SetSyntax, (∀ t' : SetSyntax, t'.SpelledBy mixedSet ∧ t'.Tolerated ↔ t' = t) ∧
      mixedObjects = t.groups.map (fun g =>
        ⟨.ofName t.type g.name, Component.inherit t.template (g.given.map Given.said)⟩) ∧
      (∀ g ∈ t.groups, g.given.length ≤ (TemplateEntry.ordinary t.template).length) ∧
      ∀ o ∈ mixedObjects, (o.attributes.map (·.label)).Sublist
        ((TemplateEntry.ordinary t.template ++ TemplateEntry.invariants t.template).map
          (·.label)) := by
  have hparse : parse 3 mixedSet = .ok ⟨"T", none, .plain, 3, mixedObjects⟩ := by cbv
  exact ⟨hparse, parse_inherits hparse⟩

end ObjectSet

end WellLog
