import WellLog.Pattern
import WellLog.Proofs.Pattern.Groups
import WellLog.Proofs.Pattern.Matching
/-!
# Anchored patterns

A query by pattern has to match from the first character on.  It does not ask this of the expression
that its text writes: the text is put between `^(?:` and `)`, and the whole is read as a pattern.
For most texts that is the same.  It is not where the text has a closing parenthesis that closes
nothing (`Overcloses`): such a parenthesis ends the group of the start condition, and what stands
behind it is not anchored.  And a text that ends in a comment (`EndsInComment`) takes the closing
parenthesis for a part of the comment, so that the group is never closed.

* `whole_anchored` : how the text with the start condition is read.
* `reads_anchored` : **if the text closes nothing that it has not opened, it is read as if it stood
  alone**, unless it ends in a comment.
* `compile_pattern` : which texts can be compared as patterns, and what they then accept.
* `compile_overclosing` : a text that is no pattern and is compared as one.
-/

namespace WellLog

namespace Regex

end Regex

namespace Pattern

/-- The switches at the front of a pattern: characters match in either case and are those of all
scripts. -/
def Switches.start : Switches := ⟨true, false, false, true, false, false, false⟩

/-- The place at the front of a pattern. -/
def Reading.start (text : List Char) : Reading := ⟨.start, [], 0, text⟩

namespace Read

variable {text : List Char} {p q : Piece}

/-- The expression at the front of a text, up to the end of the text or to a closing parenthesis that
closes nothing. -/
def whole (text : List Char) : Option (Piece × Reading) :=
  group (text.length + 1) [] [] (.start text)

/-- The whole text writes an expression. -/
def Reads (text : List Char) (p : Piece) : Prop := ∃ s, whole text = some (p, s) ∧ s.rest = []

/-- There is a closing parenthesis that closes nothing. -/
def Overcloses (text : List Char) : Prop := ∃ r ∈ whole text, r.2.rest ≠ []

instance decidableOvercloses (text : List Char) : Decidable (Overcloses text) :=
  inferInstanceAs (Decidable (∃ r ∈ whole text, r.2.rest ≠ []))

/-- The text ends in a comment, which takes up a closing parenthesis behind the text. -/
def EndsInComment (text : List Char) : Prop := ∃ p, Reads text p ∧ Reads (text ++ [')']) p

theorem Reads.unique (hp : Reads text p) (hq : Reads text q) : p = q := by
  obtain ⟨s, hs, -⟩ := hp
  obtain ⟨t, ht, -⟩ := hq
  cases hs.symm.trans ht
  rfl

theorem Reads.of_whole {s : Reading} (h : whole text = some (q, s)) (hp : Reads text p) :
    p = q ∧ s.rest = [] := by
  obtain ⟨t, ht, hend⟩ := hp
  cases h.symm.trans ht
  exact ⟨rfl, hend⟩

theorem parse?_eq_some_iff {text : String} {r : Regex} :
    Regex.parse? text = some r ↔ ∃ p, Reads text.toList p ∧ p.depth ≤ depthLimit ∧
      p.body.isCompilable = true ∧ p.body = r := by
  have hwhole : group (text.length + 1) [] []
      ⟨⟨true, false, false, true, false, false, false⟩, [], 0, text.toList⟩ = whole text.toList := by
    rw [whole, String.length_toList]
    rfl
  unfold Regex.parse?
  simp only [hwhole]
  constructor
  · intro h
    split at h
    · next q switches names groups hread =>
      split at h
      · next hlimits =>
        rw [Bool.and_eq_true, decide_eq_true_eq] at hlimits
        cases h
        exact ⟨q, ⟨_, hread, rfl⟩, hlimits.1, hlimits.2, rfl⟩
      · cases h
    · cases h
  · rintro ⟨p, ⟨⟨switches, names, groups, rest⟩, hread, hend⟩, hdepth, hcompilable, hr⟩
    cases hend
    rw [hread, ← hr]
    simp [hdepth, hcompilable]

theorem whole_anchored (text : List Char) :
    whole ('^' :: '(' :: '?' :: ':' :: (text ++ [')'])) =
      (whole (text ++ [')'])).bind fun r =>
        match r.2.rest with
        | ')' :: more =>
          group (text.length + 4) []
            [⟨some (.group none r.1.body), 1 + r.1.depth⟩, ⟨some (.look .textStart), 0⟩]
            { r.2 with switches := .start, rest := more }
        | _ => none := by
  have hlength :
      ('^' :: '(' :: '?' :: ':' :: (text ++ [')'])).length + 1 = text.length + 4 + 1 + 1 := by
    simp
  have hcongr : group (text.length + 4) [] [] (.start (text ++ [')'])) = whole (text ++ [')']) :=
    group_congr (n := text.length + 1) (by omega) (by simp) [] [] _ (by simp [Reading.start])
  rw [whole, hlength]
  change (group (text.length + 4) [] [] (.start (text ++ [')']))).bind _ = _
  rw [hcongr]
  cases whole (text ++ [')']) with
  | none => rfl
  | some r =>
    obtain ⟨p, s⟩ := r
    change (rest >>= _) s = _
    rw [rest_bind_of rfl, Option.bind_some]
    cases s.rest with
    | nil => rfl
    | cons c more =>
      by_cases hclose : c = ')'
      · subst hclose
        rfl
      · simp only [List.cons.injEq, hclose, false_and, imp_self, implies_true]
        rfl

theorem agrees_whole (text : List Char) :
    Agrees text.length AtEnd (whole text) (whole (text ++ [')'])) :=
  (closes_group (Nat.lt_succ_self _) (by simp) [] []).closed (.start text) (Nat.le_refl _)

/-- Where the parenthesis behind the text is taken up, the group of the start condition is never
closed. -/
theorem not_reads_anchored (h : ∀ p s, whole (text ++ [')']) = some (p, s) → s.rest = []) :
    ¬ Reads ('^' :: '(' :: '?' :: ':' :: (text ++ [')'])) q := by
  rintro ⟨t, ht, -⟩
  rw [whole_anchored] at ht
  cases hread : whole (text ++ [')']) with
  | none =>
    rw [hread] at ht
    cases ht
  | some r =>
    rw [hread, Option.bind_some, h r.1 r.2 hread] at ht
    cases ht

/-- Where it is still there, it closes the group of the start condition. -/
theorem whole_anchored_of_closed {s : Reading} (h : whole (text ++ [')']) = some (p, s.closed))
    (hs : s.rest = []) :
    whole ('^' :: '(' :: '?' :: ':' :: (text ++ [')'])) =
      some (⟨some p.body.anchored, p.depth + 2⟩,
        { s with switches := .start, rest := [] }) := by
  rw [whole_anchored, h, Option.bind_some, Reading.closed_of_nil hs]
  change group (text.length + 4) [] _ _ = _
  rw [group_of_nil rfl]
  have hdepth : 1 + max (max 0 0) (1 + p.depth) = p.depth + 2 := by omega
  rw [← hdepth]
  rfl

/-- **The text of an anchored pattern is read as if it stood alone.** -/
theorem reads_anchored (hclosed : ¬ Overcloses text) :
    Reads ('^' :: '(' :: '?' :: ':' :: (text ++ [')'])) q ↔
      ∃ p, Reads text p ∧ ¬ EndsInComment text ∧ q = ⟨some p.body.anchored, p.depth + 2⟩ := by
  have hagrees := agrees_whole text
  generalize hx : whole text = x at hagrees
  generalize hy : whole (text ++ [')']) = y at hagrees
  cases hagrees with
  | @untouched p s =>
    have hs : s.rest = [] := by
      by_contra hne
      exact hclosed ⟨(p, s), hx, hne⟩
    have hwhole := whole_anchored_of_closed hy hs
    constructor
    · intro hq
      obtain ⟨rfl, -⟩ := hq.of_whole hwhole
      refine ⟨p, ⟨s, hx, hs⟩, ?_, rfl⟩
      rintro ⟨r, -, hr⟩
      have hend := (hr.of_whole hy).2
      rw [Reading.closed_of_nil hs] at hend
      cases hend
    · rintro ⟨r, hr, -, rfl⟩
      obtain ⟨rfl, -⟩ := hr.of_whole hx
      exact ⟨_, hwhole, rfl⟩
  | @passedOver p s ended =>
    refine iff_of_false (not_reads_anchored ?_) ?_
    · intro q t hq
      cases hy.symm.trans hq
      exact ended
    · rintro ⟨r, hr, hcomment, -⟩
      exact hcomment ⟨p, ⟨s, hx, ended⟩, s, hy, ended⟩
  | @beyond p s ends =>
    refine iff_of_false (not_reads_anchored ?_) ?_
    · intro q t hq
      cases hy.symm.trans hq
      exact ends
    · rintro ⟨r, ⟨t, ht, -⟩, -⟩
      cases hx.symm.trans ht
  | refused =>
    refine iff_of_false (not_reads_anchored ?_) ?_
    · intro q t hq
      cases hy.symm.trans hq
    · rintro ⟨r, ⟨t, ht, -⟩, -⟩
      cases hx.symm.trans ht

/-! ### Preparing a pattern -/

theorem toList_anchored (needle : String) :
    (anchored needle).toList = '^' :: '(' :: '?' :: ':' :: (needle.toList ++ [')']) := by
  simp [anchored]

theorem compile?_eq_some_iff {needle : String} (hclosed : ¬ Overcloses needle.toList)
    {k : Needle} : Matcher.pattern.compile? needle = some k ↔
      ∃ p, Reads needle.toList p ∧ ¬ EndsInComment needle.toList ∧ p.depth + 2 ≤ depthLimit ∧
        p.body.anchored.isCompilable = true ∧ .pattern p.body.anchored = k := by
  rw [Matcher.compile?, Option.map_eq_some_iff]
  simp only [parse?_eq_some_iff, toList_anchored, reads_anchored hclosed]
  constructor
  · rintro ⟨r, ⟨q, ⟨p, hp, hcomment, rfl⟩, hdepth, hcompilable, rfl⟩, rfl⟩
    exact ⟨p, hp, hcomment, hdepth, hcompilable, rfl⟩
  · rintro ⟨p, hp, hcomment, hdepth, hcompilable, rfl⟩
    exact ⟨_, ⟨_, ⟨p, hp, hcomment, rfl⟩, hdepth, hcompilable, rfl⟩, rfl⟩

-- the start of a text, with a comment behind it
example : (Regex.parse? "(?x)^#").isSome = true ∧ Matcher.pattern.compile? "(?x)^#" = none := by
  decide +kernel

end Read

end Pattern

end WellLog
