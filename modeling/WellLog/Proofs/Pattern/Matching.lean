import Mathlib.Logic.Function.Iterate
import WellLog.Pattern.Regex
/-!
# Matches

An expression relates the positions of a text at which its matches begin to those at which they end
(`Regex.Spans`).  The algorithm works on sets of positions, which are numbers in binary, and stops a
repetition after as many turns as the text has positions.  Nothing is lost by that: matches do not
go back, so turns that do not go on can be left out (`Regex.Turns.shorten`).

* `Regex.testBit_advance` : the algorithm takes a set of positions to where matches from there end.
* `Regex.isMatch_iff` : **a text is accepted if the expression has a match anywhere in it.**
* `Regex.isMatch_anchored` : behind a start condition, if it has one from the first character on.
-/

namespace WellLog

namespace Regex

variable {R : Nat → Nat → Prop} {step : Nat → Nat} {i j k n least most : Nat} {old new : Nat}

/-! ### What an expression means -/

/-- From one position to another in `n` turns. -/
def Turns (R : Nat → Nat → Prop) : (n : Nat) → Nat → Nat → Prop
  | 0, i, j => i = j
  | n + 1, i, j => ∃ k, R i k ∧ Turns R n k j

/-- The expression has a match from position `i` to position `j` of a text. -/
def Spans (text : List Char) : Regex → Nat → Nat → Prop
  | empty, i, j => i = j
  | one s, i, j => j = i + 1 ∧ ∃ c, text[i]? = some c ∧ s.mem c = true
  | look l, i, j => i = j ∧ i ≤ text.length ∧
    l.holds (if i = 0 then none else text[i - 1]?) text[i]? = true
  | seq a b, i, j => ∃ k, a.Spans text i k ∧ b.Spans text k j
  | alt a b, i, j => a.Spans text i j ∨ b.Spans text i j
  | rep a least most _, i, j =>
    ∃ more, (∀ m, most = some m → more ≤ m - least) ∧ Turns (a.Spans text) (least + more) i j
  | group _ a, i, j => a.Spans text i j

theorem turns_add : Turns R (n + k) i j ↔ ∃ l, Turns R n i l ∧ Turns R k l j := by
  induction n generalizing i with
  | zero => simp [Turns]
  | succ n ih =>
    rw [Nat.succ_add]
    simp only [Turns, ih]
    constructor
    · rintro ⟨x, hx, l, hl, hj⟩
      exact ⟨l, ⟨x, hx, hl⟩, hj⟩
    · rintro ⟨l, ⟨x, hx, hl⟩, hj⟩
      exact ⟨x, hx, l, hl, hj⟩

theorem Turns.le (hR : ∀ i j, R i j → i ≤ j) (h : Turns R n i j) : i ≤ j := by
  induction n generalizing i with
  | zero => exact Nat.le_of_eq h
  | succ n ih =>
    obtain ⟨k, hk, hj⟩ := h
    exact Nat.le_trans (hR i k hk) (ih hj)

/-- Turns that do not go on can be left out. -/
theorem Turns.shorten (hR : ∀ i j, R i j → i ≤ j) (h : Turns R n i j) :
    ∃ k, k ≤ n ∧ k ≤ j - i ∧ Turns R k i j := by
  induction n generalizing i with
  | zero => exact ⟨0, Nat.le_refl _, Nat.zero_le _, h⟩
  | succ n ih =>
    obtain ⟨m, hm, hj⟩ := h
    obtain ⟨k, hkn, hkj, hk⟩ := ih hj
    have hmj : m ≤ j := hj.le hR
    obtain rfl | hlt := Nat.eq_or_lt_of_le (hR i m hm)
    · exact ⟨k, by omega, hkj, hk⟩
    · exact ⟨k + 1, by omega, by omega, m, hm, hk⟩

/-- Matches do not go back, and do not leave the text. -/
theorem Spans.bounds {text : List Char} {r : Regex} (h : r.Spans text i j) :
    i ≤ j ∧ (j = i ∨ j ≤ text.length) := by
  induction r generalizing i j with
  | empty => exact ⟨Nat.le_of_eq h, .inl h.symm⟩
  | one s =>
    obtain ⟨rfl, c, hc, -⟩ := h
    obtain ⟨hlt, -⟩ := List.getElem?_eq_some_iff.1 hc
    exact ⟨Nat.le_succ i, .inr hlt⟩
  | look l => exact ⟨Nat.le_of_eq h.1, .inl h.1.symm⟩
  | seq a b iha ihb =>
    obtain ⟨k, ha, hb⟩ := h
    have := iha ha
    have := ihb hb
    omega
  | alt a b iha ihb =>
    obtain ha | hb := h
    · exact iha ha
    · exact ihb hb
  | rep a least most few ih =>
    obtain ⟨more, -, h⟩ := h
    generalize least + more = n at h
    induction n generalizing i with
    | zero => exact ⟨Nat.le_of_eq h, .inl h.symm⟩
    | succ n ihn =>
      obtain ⟨k, ha, hk⟩ := h
      have := ih ha
      have := ihn hk
      omega
  | group number a ih => exact ih h

/-! ### Sets of positions -/

theorem testBit_positions (n : Nat) (p : Nat → Bool) (i : Nat) :
    (positions n p).testBit i = (decide (i < n) && p i) := by
  unfold positions
  induction n with
  | zero => simp
  | succ n ih =>
    rw [List.range_succ, List.foldl_append, List.foldl_cons, List.foldl_nil]
    by_cases hp : p n
    · rw [if_pos hp, Nat.testBit_or, ih, Nat.one_shiftLeft, Nat.testBit_two_pow]
      by_cases hi : n = i
      · simp [← hi, hp]
      · simp only [hi, decide_false, Bool.or_false]
        rw [decide_eq_decide.2 (show i < n ↔ i < n + 1 by omega)]
    · rw [if_neg hp, ih]
      by_cases hi : n = i
      · simp [← hi, hp]
      · rw [decide_eq_decide.2 (show i < n ↔ i < n + 1 by omega)]

theorem testBit_charPlaces (text : List Char) (s : CharSet) (i : Nat) :
    (charPlaces text.toArray s).testBit i = true ↔ ∃ c, text[i]? = some c ∧ s.mem c = true := by
  rw [charPlaces, testBit_positions]
  simp only [List.size_toArray, List.getElem?_toArray, Bool.and_eq_true, decide_eq_true_eq,
    Option.any_eq_true]
  constructor
  · exact And.right
  · rintro ⟨c, hc, hmem⟩
    exact ⟨(List.getElem?_eq_some_iff.1 hc).1, c, hc, hmem⟩

theorem testBit_lookPlaces (text : List Char) (l : Look) (i : Nat) :
    (lookPlaces text.toArray l).testBit i = true ↔
      i ≤ text.length ∧ l.holds (if i = 0 then none else text[i - 1]?) text[i]? = true := by
  rw [lookPlaces, testBit_positions]
  simp only [List.size_toArray, List.getElem?_toArray, Bool.and_eq_true, decide_eq_true_eq,
    Nat.lt_succ_iff]

/-- A step on sets of positions is one on single positions. -/
def Follows (step : Nat → Nat) (R : Nat → Nat → Prop) : Prop :=
  ∀ mask j, (step mask).testBit j = true ↔ ∃ i, mask.testBit i = true ∧ R i j

theorem repeated_eq_iterate (step : Nat → Nat) (n mask : Nat) :
    repeated step n mask = step^[n] mask := by
  induction n generalizing mask with
  | zero => rfl
  | succ n ih =>
    rw [repeated, Function.iterate_succ_apply]
    split
    · next hfixed => rw [hfixed, Function.iterate_fixed hfixed]
    · exact ih (step mask)

theorem Follows.repeated (h : Follows step R) (n : Nat) :
    Follows (repeated step n) (Turns R n) := by
  intro mask j
  rw [repeated_eq_iterate]
  induction n generalizing mask with
  | zero =>
    rw [Function.iterate_zero, id_eq]
    exact ⟨fun hj => ⟨j, hj, rfl⟩, fun ⟨i, hi, hij⟩ => hij ▸ hi⟩
  | succ n ih =>
    rw [Function.iterate_succ_apply, ih]
    constructor
    · rintro ⟨k, hk, hj⟩
      obtain ⟨i, hi, hR⟩ := (h mask k).1 hk
      exact ⟨i, hi, k, hR, hj⟩
    · rintro ⟨i, hi, k, hR, hj⟩
      exact ⟨k, (h mask k).2 ⟨i, hi, hR⟩, hj⟩

/-- From a set that one step leads out of only into `new`, turns that leave it come through `new`. -/
theorem Turns.leave (hout : ∀ i j, old.testBit i = true → R i j →
      old.testBit j = true ∨ new.testBit j = true)
    (hi : old.testBit i = true) (h : Turns R n i j) :
    old.testBit j = true ∨ ∃ k, k < n ∧ ∃ l, new.testBit l = true ∧ Turns R k l j := by
  induction n generalizing i with
  | zero => exact .inl (h ▸ hi)
  | succ n ih =>
    obtain ⟨m, hm, hj⟩ := h
    obtain hold | hnew := hout i m hi hm
    · obtain hj | ⟨k, hk, hrest⟩ := ih hold hj
      · exact .inl hj
      · exact .inr ⟨k, by omega, hrest⟩
    · exact .inr ⟨n, Nat.lt_succ_self n, m, hnew, hj⟩

/-- What spreads from a set that one step leads out of only into `new`. -/
theorem Follows.testBit_spread (h : Follows step R)
    (hout : ∀ i j, old.testBit i = true → R i j → old.testBit j = true ∨ new.testBit j = true) :
    (spread step n old new).testBit j = true ↔
      old.testBit j = true ∨ ∃ k, k ≤ n ∧ ∃ i, new.testBit i = true ∧ Turns R k i j := by
  induction n generalizing old new with
  | zero =>
    rw [spread, Nat.testBit_or, Bool.or_eq_true]
    refine or_congr_right ⟨fun hj => ⟨0, Nat.le_refl 0, j, hj, rfl⟩, ?_⟩
    rintro ⟨k, hk, i, hi, hturns⟩
    obtain rfl := Nat.le_zero.1 hk
    exact hturns ▸ hi
  | succ n ih =>
    rw [spread]
    split
    · next hnone => simp [hnone]
    · have hfresh : ∀ l, (step new ^^^ (step new &&& (old ||| new))).testBit l = true ↔
          (step new).testBit l = true ∧ ¬ (old ||| new).testBit l = true := by
        intro l
        rw [Nat.testBit_xor, Nat.testBit_and]
        cases (step new).testBit l <;> cases (old ||| new).testBit l <;> decide
      have hall : ∀ l, (old ||| new).testBit l = true ↔
          old.testBit l = true ∨ new.testBit l = true := by
        intro l
        rw [Nat.testBit_or, Bool.or_eq_true]
      -- one step leads from what is there to what is there or into the fresh positions
      have hout' : ∀ i j, (old ||| new).testBit i = true → R i j →
          (old ||| new).testBit j = true ∨
            (step new ^^^ (step new &&& (old ||| new))).testBit j = true := by
        intro i j hi hR
        by_cases hj : (old ||| new).testBit j = true
        · exact .inl hj
        · obtain hi | hi := (hall i).1 hi
          · exact .inl ((hall j).2 (hout i j hi hR))
          · exact .inr ((hfresh j).2 ⟨(h new j).2 ⟨i, hi, hR⟩, hj⟩)
      rw [ih hout', hall]
      constructor
      · rintro ((hj | hj) | ⟨k, hk, l, hl, hturns⟩)
        · exact .inl hj
        · exact .inr ⟨0, Nat.zero_le _, j, hj, rfl⟩
        · obtain ⟨i, hi, hR⟩ := (h new l).1 ((hfresh l).1 hl).1
          exact .inr ⟨k + 1, by omega, i, hi, l, hR, hturns⟩
      · rintro (hj | ⟨k, hk, i, hi, hturns⟩)
        · exact .inl (.inl hj)
        · obtain hj | ⟨m, hm, l, hl, hrest⟩ := hturns.leave hout' ((hall i).2 (.inr hi))
          · exact .inl ((hall j).1 hj)
          · exact .inr ⟨m, by omega, l, hl, hrest⟩

/-! ### The algorithm -/

/-- Turns that lead nowhere new are not taken, so no more are needed than the text has positions. -/
theorem testBit_rep {text : List Char} {a : Regex} {least : Nat} {most : Option Nat} {few : Bool}
    (ih : Follows (a.advance text.toArray) (a.Spans text)) :
    Follows ((rep a least most few).advance text.toArray) ((rep a least most few).Spans text) := by
  intro mask j
  have hforward : ∀ i j, a.Spans text i j → i ≤ j := fun _ _ h => h.bounds.1
  have hrep : (rep a least most few).advance text.toArray mask = spread (a.advance text.toArray)
      (most.elim (text.length + 1) fun m => min (m - least) (text.length + 1)) 0
      (repeated (a.advance text.toArray) least mask) := by
    cases most <;> rfl
  rw [hrep]
  rw [ih.testBit_spread (by simp)]
  simp only [Nat.zero_testBit, Bool.false_eq_true, false_or, ih.repeated least mask, Spans]
  constructor
  · rintro ⟨more, hmore, k, ⟨i, hi, hfirst⟩, hrest⟩
    refine ⟨i, hi, more, ?_, turns_add.2 ⟨k, hfirst, hrest⟩⟩
    rintro m rfl
    exact Nat.le_trans hmore (Nat.min_le_left _ _)
  · rintro ⟨i, hi, more, hmore, hturns⟩
    obtain ⟨k, hfirst, hrest⟩ := turns_add.1 hturns
    obtain ⟨n, hn, hlength, hshort⟩ := hrest.shorten hforward
    refine ⟨n, ?_, k, ⟨i, hi, hfirst⟩, hshort⟩
    have hcount : n ≤ text.length + 1 := by
      cases n with
      | zero => exact Nat.zero_le _
      | succ n =>
        have hspans : (rep a (n + 1) (some (n + 1)) few).Spans text k j :=
          ⟨0, fun _ _ => Nat.zero_le _, hshort⟩
        have := hspans.bounds
        omega
    cases most with
    | none => exact hcount
    | some m => exact Nat.le_min.2 ⟨Nat.le_trans hn (hmore m rfl), hcount⟩

/-- **Where matches end**: a position is in the set that the algorithm comes to if a match leads
there from a position of the set that it began with. -/
theorem testBit_advance (text : List Char) (r : Regex) :
    Follows (r.advance text.toArray) (r.Spans text) := by
  induction r with
  | empty => simp [Follows, advance, moves, Moves.advance, Spans]
  | one s =>
    intro mask j
    change ((mask &&& charPlaces text.toArray s) * 2).testBit j = true ↔ _
    rw [Nat.mul_comm, show 2 * (mask &&& charPlaces text.toArray s) =
      (mask &&& charPlaces text.toArray s) <<< 1 by rw [Nat.shiftLeft_eq]; omega,
      Nat.testBit_shiftLeft]
    simp only [Nat.testBit_and, Bool.and_eq_true, decide_eq_true_eq, testBit_charPlaces, Spans]
    constructor
    · rintro ⟨hj, hmask, hc⟩
      exact ⟨j - 1, hmask, by omega, hc⟩
    · rintro ⟨i, hmask, rfl, hc⟩
      exact ⟨by omega, hmask, hc⟩
  | look l =>
    intro mask j
    change (mask &&& lookPlaces text.toArray l).testBit j = true ↔ _
    simp only [Nat.testBit_and, Bool.and_eq_true, testBit_lookPlaces, Spans]
    constructor
    · rintro ⟨hmask, hl⟩
      exact ⟨j, hmask, rfl, hl⟩
    · rintro ⟨i, hmask, rfl, hl⟩
      exact ⟨hmask, hl⟩
  | seq a b iha ihb =>
    intro mask j
    change (b.advance text.toArray (a.advance text.toArray mask)).testBit j = true ↔ _
    rw [ihb]
    constructor
    · rintro ⟨k, hk, hb⟩
      obtain ⟨i, hi, ha⟩ := (iha mask k).1 hk
      exact ⟨i, hi, k, ha, hb⟩
    · rintro ⟨i, hi, k, ha, hb⟩
      exact ⟨k, (iha mask k).2 ⟨i, hi, ha⟩, hb⟩
  | alt a b iha ihb =>
    intro mask j
    change (a.advance text.toArray mask ||| b.advance text.toArray mask).testBit j = true ↔ _
    rw [Nat.testBit_or, Bool.or_eq_true, iha, ihb]
    simp only [Spans, and_or_left, exists_or]
  | rep a least most few ih => exact testBit_rep ih
  | group number a ih => exact ih

/-- **Acceptance**: an expression has a match that begins somewhere in the text. -/
theorem isMatch_iff (r : Regex) (text : String) :
    r.isMatch text = true ↔ ∃ i j, i ≤ text.toList.length ∧ r.Spans text.toList i j := by
  have hpositions : ∀ i, (1 <<< (text.toList.toArray.size + 1) - 1).testBit i = true ↔
      i ≤ text.toList.length := by
    intro i
    rw [Nat.one_shiftLeft, Nat.testBit_two_pow_sub_one]
    simp only [List.size_toArray, decide_eq_true_eq, Nat.lt_succ_iff]
  have hends := testBit_advance text.toList r (1 <<< (text.toList.toArray.size + 1) - 1)
  rw [isMatch, bne_iff_ne]
  constructor
  · intro hsome
    obtain ⟨j, hj⟩ := Nat.exists_testBit_of_ne_zero hsome
    obtain ⟨i, hi, hr⟩ := (hends j).1 hj
    exact ⟨i, j, (hpositions i).1 hi, hr⟩
  · rintro ⟨i, j, hi, hr⟩ hnone
    have hj := (hends j).2 ⟨i, (hpositions i).2 hi, hr⟩
    rw [hnone, Nat.zero_testBit] at hj
    cases hj

/-- An expression behind a start condition. -/
def anchored (r : Regex) : Regex := .seq (.look .textStart) (.group none r)

/-- Behind a start condition an expression has to match from the first character on. -/
theorem isMatch_anchored (r : Regex) (text : String) :
    r.anchored.isMatch text = true ↔ ∃ j, r.Spans text.toList 0 j := by
  rw [isMatch_iff]
  constructor
  · rintro ⟨i, j, hi, k, ⟨rfl, -, hstart⟩, hr⟩
    obtain rfl | hpos := Nat.eq_zero_or_pos i
    · exact ⟨j, hr⟩
    · rw [if_neg (by omega), List.getElem?_eq_getElem (by omega)] at hstart
      cases hstart
  · rintro ⟨j, hr⟩
    exact ⟨0, j, Nat.zero_le _, 0, ⟨rfl, Nat.zero_le _, rfl⟩, hr⟩

end Regex

end WellLog
