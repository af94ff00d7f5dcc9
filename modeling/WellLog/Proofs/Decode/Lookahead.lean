import WellLog.ObjectSet.Parser
import WellLog.Proofs.Decode.Spelling
/-!
# Decoders that look ahead

The parser of sets looks at the next component before it reads it.  What it takes from the bytes
ahead depends on what is behind them, so `Decode.Reads` relates a value to the bytes that are read
and to the rest.

* `Decode.Reads.bind` : one decoder after the other.
* `Decode.reads_items` : **items are read as long as there are any**, each in front of the others.
-/

namespace WellLog

namespace Decode

variable {α β : Type} {x : Decode α} {f : α → Decode β} {R R' : List UInt8 → List UInt8 → α → Prop}
  {S : α → List UInt8 → List UInt8 → β → Prop}

/-- From any bytes, the decoder reads those that stand in `R` to the rest and to the value that it
gives, and it gives none if there are no such bytes. -/
def Reads (x : Decode α) (R : List UInt8 → List UInt8 → α → Prop) : Prop :=
  ∀ position input a c, x ⟨position, input⟩ = .ok a c ↔
    ∃ bytes rest, input = bytes ++ rest ∧ c = ⟨position + bytes.length, rest⟩ ∧ R bytes rest a

theorem reads_of_selfContained [SelfContained x] : Reads x fun bytes _ a => Spells x bytes a := by
  intro position input a c
  constructor
  · exact SelfContained.exists_spells
  · rintro ⟨bytes, rest, rfl, rfl, h⟩
    exact h position rest

namespace Reads

/-- Bytes that are all read are related to an empty rest. -/
theorem iff_of_run (h : Reads x R) {bytes rest : List UInt8} {a : α} (position : Nat) :
    x ⟨position, bytes ++ rest⟩ = .ok a ⟨position + bytes.length, rest⟩ ↔ R bytes rest a := by
  rw [h]
  constructor
  · rintro ⟨bytes', rest', heq, hc, hR⟩
    rw [Cursor.mk.injEq] at hc
    obtain ⟨hlen, rfl⟩ := hc
    rwa [List.append_cancel_right heq]
  · exact fun hR => ⟨bytes, rest, rfl, rfl, hR⟩

theorem congr (h : Reads x R) (hR : ∀ bytes rest a, R bytes rest a ↔ R' bytes rest a) :
    Reads x R' := by
  intro position input a c
  simp only [h position input a c, hR]

theorem bind (hx : Reads x R) (hf : ∀ a, Reads (f a) (S a)) :
    Reads (x >>= f) fun bytes rest b => ∃ first second a, bytes = first ++ second ∧
      R first (second ++ rest) a ∧ S a second rest b := by
  intro position input b c
  rw [bind_eq_ok_iff]
  constructor
  · rintro ⟨a, c₁, hrun, hrest⟩
    obtain ⟨first, rest, rfl, rfl, hfirst⟩ := (hx _ _ _ _).1 hrun
    obtain ⟨second, rest, rfl, rfl, hsecond⟩ := (hf a _ _ _ _).1 hrest
    refine ⟨first ++ second, rest, (List.append_assoc _ _ _).symm, ?_, first, second, a, rfl,
      hfirst, hsecond⟩
    rw [List.length_append, Nat.add_assoc]
  · rintro ⟨_, rest, rfl, rfl, first, second, a, rfl, hfirst, hsecond⟩
    rw [List.append_assoc, List.length_append, ← Nat.add_assoc]
    exact ⟨a, _, (hx.iff_of_run position).2 hfirst, ((hf a).iff_of_run _).2 hsecond⟩

theorem pure {a : α} : Reads (Pure.pure a) fun bytes _ a' => bytes = [] ∧ a' = a := by
  refine reads_of_selfContained.congr fun _ _ _ => spells_pure_iff

theorem throw {d : Defect} : Reads (throw d : Decode α) fun _ _ _ => False := by
  intro position input a c
  constructor
  · intro h
    cases h
  · rintro ⟨_, _, -, -, ⟨⟩⟩

theorem accept {r : Except Defect α} :
    Reads (accept r) fun bytes _ a => bytes = [] ∧ r = .ok a := by
  cases r with
  | ok a =>
    refine pure.congr fun bytes _ a' => and_congr_right fun _ => ?_
    rw [Except.ok.injEq, eq_comm]
  | error d =>
    refine throw.congr fun _ _ _ => ?_
    simp

/-- A condition that has to hold. -/
theorem guard {p : Bool} {d : Defect} {g : PUnit → Decode α} (h : p = true → Reads x R) :
    Reads (if (!p) = true then MonadExcept.throw d >>= g else x) fun bytes rest a =>
      p = true ∧ R bytes rest a := by
  cases p with
  | true => exact (h rfl).congr fun _ _ _ => by simp
  | false => exact throw.congr fun _ _ _ => by simp

end Reads

/-! ### Items -/

/-- Things read one behind the other, each of them in front of the others. -/
def RowBefore (R : List UInt8 → List UInt8 → α → Prop) (rest : List UInt8) :
    List UInt8 → List α → Prop
  | bytes, [] => bytes = []
  | bytes, a :: others => ∃ first behind, bytes = first ++ behind ∧ R first (behind ++ rest) a ∧
    RowBefore R rest behind others

theorem rowBefore_iff_row {P : List UInt8 → α → Prop} {bytes rest : List UInt8} {l : List α} :
    RowBefore (fun bytes _ => P bytes) rest bytes l ↔ Row P bytes l := by
  induction l generalizing bytes with
  | nil => exact Iff.rfl
  | cons a l ih => simp only [RowBefore, Row, ih]

/-- What is read for an item: `R` relates it to the rest, and without one, `B` holds of the rest. -/
def ItemRead (R : List UInt8 → List UInt8 → α → Prop) (B : List UInt8 → Prop)
    (bytes rest : List UInt8) : Option α → Prop
  | none => bytes = [] ∧ B rest
  | some a => R bytes rest a

section Items

variable {item : Nat → Decode (Option α)} {B : List UInt8 → Prop}
  (hitem : ∀ index, Reads (item index) (ItemRead R B))
  (hne : ∀ rest a, ¬ R [] rest a)
include hitem hne

theorem itemsFrom_eq_ok_iff (hnil : B []) {most index position : Nat} {input : List UInt8}
    {l : List α} {c : Cursor} (hmost : input.length ≤ most) :
    itemsFrom item most index ⟨position, input⟩ = .ok l c ↔
      ∃ bytes rest, input = bytes ++ rest ∧ c = ⟨position + bytes.length, rest⟩ ∧
        RowBefore R rest bytes l ∧ B rest := by
  induction most generalizing index position input l c with
  | zero =>
    obtain rfl := List.length_eq_zero_iff.1 (Nat.le_zero.1 hmost)
    rw [itemsFrom, pure_eq_ok_iff]
    constructor
    · rintro ⟨rfl, rfl⟩
      exact ⟨[], [], rfl, rfl, rfl, hnil⟩
    · rintro ⟨bytes, rest, hinput, rfl, hrow, -⟩
      obtain ⟨rfl, rfl⟩ := List.append_eq_nil_iff.1 hinput.symm
      cases l with
      | nil => exact ⟨rfl, rfl⟩
      | cons a l =>
        obtain ⟨first, behind, hbytes, hfirst, -⟩ := hrow
        obtain ⟨rfl, -⟩ := List.append_eq_nil_iff.1 hbytes.symm
        exact absurd hfirst (hne _ _)
  | succ most ih =>
    rw [itemsFrom, bind_eq_ok_iff]
    constructor
    · rintro ⟨found, c₁, hrun, hrest⟩
      obtain ⟨first, rest, rfl, rfl, hfound⟩ := (hitem _ _ _ _ _).1 hrun
      cases found with
      | none =>
        obtain ⟨rfl, hbehind⟩ := hfound
        obtain ⟨rfl, rfl⟩ := pure_eq_ok_iff.1 hrest
        exact ⟨[], rest, rfl, rfl, rfl, hbehind⟩
      | some a =>
        have hpos : 0 < first.length := List.length_pos_iff.2 fun h => hne _ _ (h ▸ hfound)
        rw [List.length_append] at hmost
        obtain ⟨others, c₂, hothers, hpure⟩ := bind_eq_ok_iff.1 hrest
        obtain ⟨rfl, rfl⟩ := pure_eq_ok_iff.1 hpure
        obtain ⟨behind, rest, rfl, rfl, hrow, hbehind⟩ := (ih (by omega)).1 hothers
        refine ⟨first ++ behind, rest, (List.append_assoc _ _ _).symm, ?_,
          ⟨first, behind, rfl, hfound, hrow⟩, hbehind⟩
        rw [List.length_append, Nat.add_assoc]
    · rintro ⟨bytes, rest, rfl, rfl, hrow, hbehind⟩
      cases l with
      | nil =>
        cases hrow
        exact ⟨none, _, (hitem index).iff_of_run position |>.2 ⟨rfl, hbehind⟩, rfl⟩
      | cons a l =>
        obtain ⟨first, behind, rfl, hfirst, hrow⟩ := hrow
        have hpos : 0 < first.length := List.length_pos_iff.2 fun h => hne _ _ (h ▸ hfirst)
        rw [List.append_assoc, List.length_append] at hmost
        rw [List.append_assoc, List.length_append, ← Nat.add_assoc]
        refine ⟨some a, _, ((hitem index).iff_of_run position).2 hfirst, bind_eq_ok_iff.2 ⟨l, _,
          (ih (by omega)).2 ⟨behind, rest, rfl, rfl, hrow, hbehind⟩, rfl⟩⟩

/-- **Items are read as long as there are any.**  An item is never empty, so the bound on their
number is not reached. -/
theorem reads_items (hnil : B []) :
    Reads (items item) fun bytes rest l => RowBefore R rest bytes l ∧ B rest := by
  intro position input l c
  exact itemsFrom_eq_ok_iff hitem hne hnil (Nat.le_refl input.length)

end Items

end Decode

end WellLog
