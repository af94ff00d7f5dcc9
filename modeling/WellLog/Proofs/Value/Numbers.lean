import Mathlib.Tactic.Tauto
import WellLog.Object
/-!
# Equality of numbers and equality of bits

Values are compared with floating point numbers taken as numbers.  That is finer than equality of
bits where there is a NaN, which is not equal to itself, and coarser at zero, whose two signs are
equal.  There is no other difference: without NaN, the comparison is equality once all zeros are
positive.

* `Binary64.sameNumber_iff`, `Value.sameNumbers_iff`, `Attribute.sameNumbers_iff` : what the
  comparison says of numbers, values and attributes.
* `all_zip_iff` : a list is compared like its elements.
* `RawObject.sameAttributes_iff` : **what it says of the attributes of objects**.
-/

namespace WellLog

/-- A comparison that is refused by some things, and otherwise is equality of a part of them, is such
a comparison of lists, too. -/
theorem all_zip_iff {α β : Type} {same : α → α → Bool} {odd : α → Bool} {part : α → β}
    (h : ∀ a b, same a b = true ↔ odd a = false ∧ odd b = false ∧ part a = part b) (as bs : List α) :
    (as.length == bs.length && (as.zip bs).all fun p => same p.1 p.2) = true ↔
      as.any odd = false ∧ bs.any odd = false ∧ as.map part = bs.map part := by
  induction as generalizing bs with
  | nil => cases bs <;> simp
  | cons a as ih =>
    cases bs with
    | nil => simp
    | cons b bs =>
      have hrest := ih bs
      rw [Bool.and_eq_true, beq_iff_eq] at hrest
      simp only [List.zip_cons_cons, List.all_cons, List.any_cons, List.map_cons, List.cons.injEq,
        List.length_cons, Bool.and_eq_true, Bool.or_eq_false_iff, beq_iff_eq, Nat.add_right_cancel_iff,
        h]
      constructor
      · rintro ⟨hlength, ⟨ha, hb, hab⟩, hall⟩
        obtain ⟨has, hbs, hmap⟩ := hrest.1 ⟨hlength, hall⟩
        exact ⟨⟨ha, has⟩, ⟨hb, hbs⟩, hab, hmap⟩
      · rintro ⟨⟨ha, has⟩, ⟨hb, hbs⟩, hab, hmap⟩
        obtain ⟨hlength, hall⟩ := hrest.2 ⟨has, hbs, hmap⟩
        exact ⟨hlength, ⟨ha, hb, hab⟩, hall⟩

namespace Binary64

/-- The number, with a positive sign if it is zero. -/
def withoutZeroSign (x : Binary64) : Binary64 := if x.isZero then zero else x

theorem isZero_zero : zero.isZero = true := by decide

theorem withoutZeroSign_eq_iff {x y : Binary64} :
    x.withoutZeroSign = y.withoutZeroSign ↔ x = y ∨ x.isZero = true ∧ y.isZero = true := by
  unfold withoutZeroSign
  cases hx : x.isZero with
  | true =>
    cases hy : y.isZero with
    | true => simp
    | false =>
      have hne : zero ≠ y := fun heq => by rw [← heq, isZero_zero] at hy; cases hy
      have hxy : x ≠ y := fun heq => by rw [heq, hy] at hx; cases hx
      simp [hne, hxy]
  | false =>
    cases hy : y.isZero with
    | true =>
      have hne : x ≠ zero := fun heq => by rw [heq, isZero_zero] at hx; cases hx
      have hxy : x ≠ y := fun heq => by rw [heq, hy] at hx; cases hx
      simp [hne, hxy]
    | false => simp

theorem sameNumber_iff (x y : Binary64) : x.sameNumber y = true ↔
    x.isNaN = false ∧ y.isNaN = false ∧ x.withoutZeroSign = y.withoutZeroSign := by
  rw [withoutZeroSign_eq_iff]
  simp [sameNumber, and_assoc]

end Binary64

namespace Value

/-- A number in the value is a NaN. -/
def hasNaN : Value → Bool
  | float x => x.isNaN
  | validated x bounds => x.isNaN || bounds.any (·.isNaN)
  | complex re im => re.isNaN || im.isNaN
  | _ => false

/-- The value with all zeros positive. -/
def withoutZeroSigns : Value → Value
  | float x => float x.withoutZeroSign
  | validated x bounds => validated x.withoutZeroSign (bounds.map (·.withoutZeroSign))
  | complex re im => complex re.withoutZeroSign im.withoutZeroSign
  | v => v

theorem sameNumbers_iff (v w : Value) : v.sameNumbers w = true ↔
    v.hasNaN = false ∧ w.hasNaN = false ∧ v.withoutZeroSigns = w.withoutZeroSigns := by
  cases v with
  | float x =>
    cases w with
    | float y => simp [sameNumbers, hasNaN, withoutZeroSigns, Binary64.sameNumber_iff]
    | _ => simp [sameNumbers, withoutZeroSigns]
  | validated x bounds =>
    cases w with
    | validated y bounds' =>
      have hbounds := all_zip_iff Binary64.sameNumber_iff bounds bounds'
      rw [sameNumbers, Bool.and_assoc, Bool.and_eq_true, hbounds, Binary64.sameNumber_iff]
      simp only [hasNaN, withoutZeroSigns, Bool.or_eq_false_iff, validated.injEq]
      tauto
    | _ => simp [sameNumbers, withoutZeroSigns]
  | complex re im =>
    cases w with
    | complex re' im' =>
      simp only [sameNumbers, hasNaN, withoutZeroSigns, Bool.and_eq_true, Binary64.sameNumber_iff,
        Bool.or_eq_false_iff, complex.injEq]
      tauto
    | _ => simp [sameNumbers, withoutZeroSigns]
  | _ => cases w <;> simp [sameNumbers, hasNaN, withoutZeroSigns]

end Value

namespace Attribute

/-- A number in a value is a NaN. -/
def hasNaN (a : Attribute) : Bool := a.values.any (·.hasNaN)

/-- The attribute with all zeros positive. -/
def withoutZeroSigns (a : Attribute) : Attribute :=
  { a with values := a.values.map (·.withoutZeroSigns) }

theorem sameNumbers_iff (a b : Attribute) : a.sameNumbers b = true ↔
    a.hasNaN = false ∧ b.hasNaN = false ∧ a.withoutZeroSigns = b.withoutZeroSigns := by
  have hvalues := all_zip_iff Value.sameNumbers_iff a.values b.values
  rw [sameNumbers, Bool.and_assoc, Bool.and_eq_true, hvalues]
  simp only [Bool.and_eq_true, beq_iff_eq, withoutZeroSigns, hasNaN, Attribute.mk.injEq]
  tauto

end Attribute

namespace RawObject

/-- A number in a value of an attribute is a NaN. -/
def hasNaN (o : RawObject) : Bool := o.attributes.any (·.hasNaN)

/-- The attributes with all zeros positive. -/
def withoutZeroSigns (o : RawObject) : List Attribute := o.attributes.map (·.withoutZeroSigns)

/-- **Attributes are compared as numbers**: there is no NaN, and they are the same but for the signs
of zeros. -/
theorem sameAttributes_iff (o p : RawObject) : o.sameAttributes p = true ↔
    o.hasNaN = false ∧ p.hasNaN = false ∧ o.withoutZeroSigns = p.withoutZeroSigns :=
  all_zip_iff Attribute.sameNumbers_iff o.attributes p.attributes

end RawObject

end WellLog
