import WellLog.Proofs.ObjectSet.Acceptance
/-!
# Attributes that agree with themselves

An attribute says how many values it has and in which code.  Values that are read are read under the
count and the code in force.  A component of an object may also take the values of the template and
change count or code alone, and then the values are those of another count or another code.

* `Attribute.consistent_of_values` : **values that are read agree with count and code**.
* `Attribute.SpelledBy.consistent_iff` : which components of an object make an attribute that agrees
  with itself.
* `ObjectSet.parse_consistent_iff` : **all attributes of a set agree with themselves**, as long as no
  component of an object changes count or kind of values that it takes from the template.
-/

namespace WellLog

open Decode

/-- The code is that of values of some kind. -/
def IsOfKind (code : UInt8) (kind : ValueKind) : Prop :=
  ∃ c, Code.ofByte? code = some c ∧ c.kind = kind

/-- The attribute has no values, or it has as many as its count says, of the kind of its code. -/
def Attribute.Consistent (a : Attribute) : Prop :=
  a.values = [] ∨ a.values.length = a.count ∧ ∀ v ∈ a.values, IsOfKind a.code v.kind

/-! ### Values that are read -/

theorem isOfKind_of_spells {code : UInt8} {bytes : List UInt8} {v : Value}
    (h : Spells (value code) bytes v) : IsOfKind code v.kind := by
  have hrun := h 0 []
  rw [value] at hrun
  cases hcode : Code.ofByte? code with
  | none =>
    rw [hcode] at hrun
    cases hrun
  | some c =>
    rw [hcode] at hrun
    exact ⟨c, hcode, (kind_of_valueOf c _ _ _ hrun).symm⟩

/-- **Values that are read agree with count and code.** -/
theorem Attribute.consistent_of_values {a : Attribute} {bytes : List UInt8}
    (h : Spells (Decode.values a.code a.count) bytes a.values) : a.Consistent := by
  obtain ⟨hlen, hrow⟩ := spells_values_iff.1 h
  refine .inr ⟨hlen, fun v hv => ?_⟩
  obtain ⟨bytes, hbytes⟩ := hrow.exists_of_mem hv
  exact isOfKind_of_spells hbytes

/-! ### Values that are taken from the template -/

/-- A component leaves the values of `base` what they are: it has values of its own, or there are
none to take, or it says that there are none, or it keeps their number and their kind. -/
def Attribute.KeepsValues (a : Attribute) (c : Characteristics) (base : Attribute) : Prop :=
  c.value = true ∨ base.values = [] ∨ a.count = 0 ∨
    a.count = base.count ∧ ∀ v ∈ base.values, IsOfKind a.code v.kind

section

variable {a base : Attribute} {c : Characteristics} {bytes : List UInt8}

/-- **Which components make an attribute that agrees with itself**, where the one of the template
does. -/
theorem Attribute.SpelledBy.consistent_iff (h : a.SpelledBy c base bytes)
    (hbase : base.Consistent) : a.Consistent ↔ a.KeepsValues c base := by
  obtain ⟨_, count, _, _, values, -, -, hcount, -, -, hvalues⟩ := h
  cases hc : c.value with
  | true =>
    rw [hc] at hvalues
    exact iff_of_true (Attribute.consistent_of_values hvalues) (.inl hc)
  | false =>
    rw [hc] at hvalues
    obtain ⟨-, hvalues⟩ := hvalues
    by_cases hnone : base.values = []
    · refine iff_of_true (.inl ?_) (.inr (.inl hnone))
      rw [hvalues, Attribute.inherited, hnone, ite_self]
    · -- there are values to take, so the count of the template is not zero
      obtain ⟨hlen, -⟩ := hbase.resolve_left hnone
      have hpos : base.count ≠ 0 := by
        rw [← hlen]
        exact fun h => hnone (List.length_eq_zero_iff.1 h)
      by_cases hzero : a.count = 0
      · refine iff_of_true (.inl ?_) (.inr (.inr (.inl hzero)))
        cases hannounced : c.count with
        | true => rw [hvalues, Attribute.inherited, hannounced, hzero]; rfl
        | false =>
          rw [hannounced] at hcount
          exact absurd (hcount.2.symm.trans hzero) hpos
      · have hinherited : a.values = base.values := by
          rw [hvalues, Attribute.inherited, beq_eq_false_iff_ne.2 hzero, Bool.and_false,
            if_neg (by decide)]
        rw [Attribute.Consistent, Attribute.KeepsValues, hinherited, hlen, hc]
        simp only [hnone, hzero, Bool.false_eq_true, false_or]
        rw [eq_comm]

/-- The attributes of a template agree with themselves: there is nothing to take values from. -/
theorem TemplateEntry.SpelledBy.consistent {e : TemplateEntry} (h : e.SpelledBy bytes) :
    e.base.Consistent := by
  obtain ⟨_, _, -, -, -, hbase⟩ := h
  exact (hbase.consistent_iff (.inl rfl)).2 (.inr (.inl rfl))

end

/-- What a component of an object says leaves the values of the template what they are. -/
def Given.KeepsValues (base : Attribute) : Given → Prop
  | absent => True
  | own c a => a.KeepsValues c base

/-- All attributes of an object agree with themselves, as long as its components leave the values of
the template what they are. -/
theorem Given.consistent_iff {bases : List Attribute} {bytes : List UInt8} {given : List Given}
    (h : RowSpelledBy bases bytes given) (hbases : ∀ a ∈ bases, a.Consistent) :
    (∀ a ∈ attributes bases given, a.Consistent) ↔ ∀ p ∈ bases.zip given, p.2.KeepsValues p.1 := by
  induction bases generalizing bytes given with
  | nil =>
    cases given with
    | nil => exact iff_of_true nofun nofun
    | cons g given => cases h
  | cons base bases ih =>
    obtain ⟨hbase, hothers⟩ := List.forall_mem_cons.1 hbases
    cases given with
    | nil =>
      refine iff_of_true ?_ nofun
      simpa only [attributes] using hbases
    | cons g given =>
      obtain ⟨first, behind, -, hg, hrow⟩ := h
      rw [List.zip_cons_cons, List.forall_mem_cons, ← ih hrow hothers]
      cases g with
      | absent => exact (and_iff_right trivial).symm
      | own c a =>
        obtain ⟨_, _, -, -, -, ha⟩ := hg
        rw [attributes, List.forall_mem_cons]
        exact and_congr_left fun _ => ha.consistent_iff hbase

namespace SetSyntax

/-- No component of an object changes count or kind of values that it takes from the template. -/
def KeepsValues (t : SetSyntax) : Prop :=
  ∀ g ∈ t.groups, ∀ p ∈ (TemplateEntry.ordinary t.template).zip g.given, p.2.KeepsValues p.1

theorem SpelledBy.consistent_iff {t : SetSyntax} {body : List UInt8} (h : t.SpelledBy body)
    (recordType : UInt8) :
    (∀ o ∈ (t.toSet recordType).objects, ∀ a ∈ o.attributes, a.Consistent) ↔ t.KeepsValues := by
  obtain ⟨_, _, _, _, _, -, -, -, -, -, htemplate, hgroups⟩ := h
  have hbase : ∀ e ∈ t.template, e.base.Consistent := by
    intro e he
    obtain ⟨bytes, hbytes⟩ := htemplate.exists_of_mem he
    exact hbytes.consistent
  have hordinary : ∀ a ∈ TemplateEntry.ordinary t.template, a.Consistent :=
    List.forall_mem_map.2 fun e he => hbase e (List.mem_filter.1 he).1
  have hinvariants : ∀ a ∈ TemplateEntry.invariants t.template, a.Consistent :=
    List.forall_mem_map.2 fun e he => hbase e (List.mem_filter.1 he).1
  rw [toSet, List.forall_mem_map]
  refine forall₂_congr fun g hg => ?_
  obtain ⟨bytes, _, _, _, -, -, -, -, hgiven⟩ := hgroups.exists_of_mem hg
  rw [ObjectGroup.object, List.forall_mem_append, and_iff_left hinvariants]
  exact Given.consistent_iff hgiven hordinary

end SetSyntax

namespace ObjectSet

/-- **All attributes of a set agree with themselves**, as long as no component of an object changes
count or kind of values that it takes from the template. -/
theorem parse_consistent_iff {recordType : UInt8} {body : List UInt8} {set : ObjectSet}
    (h : parse recordType body = .ok set) :
    (∀ o ∈ set.objects, ∀ a ∈ o.attributes, a.Consistent) ↔
      ∀ t : SetSyntax, t.SpelledBy body → t.Tolerated → t.KeepsValues := by
  obtain ⟨t, hspelled, htolerated, rfl⟩ := parse_eq_ok_iff.1 h
  rw [hspelled.consistent_iff]
  constructor
  · intro hkeeps t' hspelled' htolerated'
    rwa [SetSyntax.unique hspelled' hspelled htolerated' htolerated]
  · exact fun hkeeps => hkeeps t hspelled htolerated

/-- A set with an attribute of one byte.  The first object takes it from the template, the second has
another value, and the third has no value. -/
def keepingSet : List UInt8 :=
  [0xF0, 1, 0x54, 0x35, 1, 0x4C, 15, 5] ++ [0x70, 1, 0, 1, 0x41] ++ [0x70, 1, 0, 1, 0x42, 0x21, 7] ++
    [0x70, 1, 0, 1, 0x43, 0x28, 0]

theorem consistent_keepingSet :
    parse 3 keepingSet = .ok ⟨"T", none, .plain, 3,
      [⟨⟨"T", "A", 1, 0⟩, [⟨"L", 1, 15, "", [.int 5]⟩]⟩,
        ⟨⟨"T", "B", 1, 0⟩, [⟨"L", 1, 15, "", [.int 7]⟩]⟩,
        ⟨⟨"T", "C", 1, 0⟩, [⟨"L", 0, 15, "", []⟩]⟩]⟩ ∧
    ∀ t : SetSyntax, t.SpelledBy keepingSet → t.Tolerated → t.KeepsValues := by
  have hparse : parse 3 keepingSet = .ok ⟨"T", none, .plain, 3,
      [⟨⟨"T", "A", 1, 0⟩, [⟨"L", 1, 15, "", [.int 5]⟩]⟩,
        ⟨⟨"T", "B", 1, 0⟩, [⟨"L", 1, 15, "", [.int 7]⟩]⟩,
        ⟨⟨"T", "C", 1, 0⟩, [⟨"L", 0, 15, "", []⟩]⟩]⟩ := by cbv
  refine ⟨hparse, (parse_consistent_iff hparse).1 ?_⟩
  have hbyte : IsOfKind 15 .int := ⟨.ushort, rfl, rfl⟩
  simp [Attribute.Consistent, Value.kind, hbyte]

/-- A set with an attribute of one byte, which an object takes from the template under another
code. -/
def recodedSet : List UInt8 :=
  [0xF0, 1, 0x54, 0x35, 1, 0x4C, 15, 5] ++ [0x70, 1, 0, 1, 0x41, 0x24, 20]

theorem parse_recodedSet :
    parse 3 recodedSet = .ok ⟨"T", none, .plain, 3,
      [⟨⟨"T", "A", 1, 0⟩, [⟨"L", 1, 20, "", [.int 5]⟩]⟩]⟩ ∧
    ¬ ∀ set, parse 3 recodedSet = .ok set →
      ∀ o ∈ set.objects, ∀ a ∈ o.attributes, a.Consistent := by
  have hparse : parse 3 recodedSet = .ok ⟨"T", none, .plain, 3,
      [⟨⟨"T", "A", 1, 0⟩, [⟨"L", 1, 20, "", [.int 5]⟩]⟩]⟩ := by cbv
  refine ⟨hparse, fun hall => ?_⟩
  rcases hall _ hparse _ (List.mem_singleton.2 rfl) _ (List.mem_singleton.2 rfl) with
    hnone | ⟨-, hkind⟩
  · cases hnone
  · obtain ⟨code, hcode, htext⟩ := hkind (.int 5) (List.mem_singleton.2 rfl)
    obtain rfl : Code.ascii = code := Option.some.inj hcode
    cases htext

end ObjectSet

end WellLog
