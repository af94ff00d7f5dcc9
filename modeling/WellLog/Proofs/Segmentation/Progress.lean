import WellLog.Proofs.Segmentation.Calls
import WellLog.Proofs.Segmentation.Turns
/-!
# Segmentation makes progress

Every call of `nextFile` goes through the physical file in one direction: the logical files lie one
behind the other, and there is an end.

* `Segmentation.call_progress` : one call goes forward.
* `Segmentation.makesProgress_of_start` : **the calls on any physical file make progress**.
-/

namespace WellLog

namespace Segmentation

variable {s s' : Segmentation} {j : Journalled Segmentation}

/-- **One call** goes forward, and without a logical file it is the last one. -/
theorem call_progress (h : j.state.Ready) :
    j.state.Follows (call j).2.state ∧ (call j).2.state.Ready ∧
      match (call j).1 with
      | .ok (some f) => j.state.Between (call j).2.state f
      | _ => (call j).2.state.done = true := by
  have hrun := call_of_ends (E := fun _ j' => j.state.Follows j'.state ∧ j'.state.Ready ∧
      j'.state.done = true)
    (ends_nextFile ((ends_turns h j.state.turnsLeft_lt_size).mono (fun _ _ => id)
      fun _ _ h => ⟨⟨h.source, h.framed, h.next⟩, fun hdone => (by cases hdone), rfl⟩))
  cases hcall : call j with
  | mk outcome j' =>
    rw [hcall] at hrun
    cases outcome with
    | error e => exact hrun
    | ok found => cases found <;> exact hrun

theorem ready_after (h : j.state.Ready) (n : Nat) : (after j n).state.Ready := by
  induction n with
  | zero => exact h
  | succ n ih => exact (call_progress ih).2.1

theorem follows_after (h : j.state.Ready) {n k : Nat} (hnk : n ≤ k) :
    (after j n).state.Follows (after j k).state := by
  obtain ⟨i, rfl⟩ := Nat.exists_eq_add_of_le hnk
  induction i with
  | zero => exact .refl _
  | succ i ih => exact (ih (Nat.le_add_right n i)).trans (call_progress (ready_after h (n + i))).1

theorem between_of_result {n : Nat} {f : LogicalFile} (h : j.state.Ready)
    (hf : result j n = .ok (some f)) : (after j n).state.Between (after j (n + 1)).state f := by
  have hcall := (call_progress (ready_after h n)).2.2
  rw [result] at hf
  rw [hf] at hcall
  exact hcall

/-- After the end or a failure there is nothing. -/
theorem end_of_result {n k : Nat} (h : j.state.Ready)
    (hend : ∀ f, result j n ≠ .ok (some f)) (hnk : n < k) :
    (after j k).state.done = true ∧ result j k = .ok none := by
  have hdone : (after j (n + 1)).state.done = true := by
    have hcall := (call_progress (ready_after h n)).2.2
    rw [result] at hend
    split at hcall
    · rename_i f hf
      exact absurd hf (hend f)
    · exact hcall
  obtain ⟨i, rfl⟩ : ∃ i, k = n + 1 + i := Nat.exists_eq_add_of_le hnk
  rw [after_add, result_add, after_of_done hdone]
  exact ⟨hdone, result_of_done hdone i⟩

/-- Places in an image of `size` bytes, in their order. -/
def Place.rank (size : Nat) (p : Place) : Nat := p.offset * (size + 1) + p.skip

theorem rank_lt {p q : Place} {size : Nat} (h : p.Passes q) (hp : p.skip ≤ size) :
    Place.rank size p < Place.rank size q := by
  rw [Place.rank, Place.rank]
  rcases Place.le_eq_false_iff.1 h with hlt | ⟨heq, hlt⟩
  · have hmul := Nat.mul_le_mul_right (size + 1) (Nat.succ_le_of_lt hlt)
    rw [Nat.succ_mul] at hmul
    omega
  · rw [heq]
    omega

/-- There is a logical file for every call before the last one, and each begins behind the one
before. -/
theorem le_rank_of_result {n : Nat} {f : LogicalFile} (h : j.state.Ready)
    (hf : result j n = .ok (some f)) : n ≤ Place.rank j.state.source.image.size f.place := by
  induction n generalizing f with
  | zero => exact Nat.zero_le _
  | succ n ih =>
    by_cases hfile : ∃ g, result j n = .ok (some g)
    · obtain ⟨g, hg⟩ := hfile
      have hbetween := between_of_result h hg
      have hskip := hbetween.skip_le
      rw [(follows_after h (Nat.zero_le n)).source] at hskip
      have hpasses := hbetween.passes.trans_reaches (between_of_result h hf).reaches
      exact Nat.succ_le_of_lt (Nat.lt_of_le_of_lt (ih hg) (rank_lt hpasses hskip))
    · obtain ⟨-, hnone⟩ := end_of_result h (fun g hg => hfile ⟨g, hg⟩) (Nat.lt_succ_self n)
      rw [hf] at hnone
      cases hnone

/-- What is promised of the calls on a segmentation. -/
structure MakesProgress (j : Journalled Segmentation) : Prop where
  /-- Every call ends: with more turns it would do the same. -/
  ends : ∀ n most, j.state.source.image.size + 2 ≤ most →
    turns most (after j n) = turns (j.state.source.image.size + 2) (after j n)
  /-- No logical file fails to advance the read position: without the check for it, the calls do the
  same. -/
  advances : ∀ n most, turns most (after j n) = uncheckedTurns most (after j n)
  /-- The next place never goes back. -/
  monotone : ∀ n k, n ≤ k → (after j n).state.next.Reaches (after j k).state.next
  /-- A logical file begins at the next place or behind it, and the next place is behind its
  beginning afterwards. -/
  between : ∀ n f, result j n = .ok (some f) →
    (after j n).state.next.Reaches f.place ∧ f.place.Passes (after j (n + 1)).state.next
  /-- Only a broken file stops the segmentation at once. -/
  done : ∀ n f, result j n = .ok (some f) → (after j (n + 1)).state.done = f.broken
  /-- Logical files do not overlap. -/
  disjoint : ∀ n k f g, n < k → result j n = .ok (some f) → result j k = .ok (some g) →
    f.place.Passes (after j (n + 1)).state.next ∧ (after j (n + 1)).state.next.Reaches g.place
  /-- There are only so many of them. -/
  finite : ∃ most, ∀ n f, result j n = .ok (some f) → n < most
  /-- The first call without a logical file is the last one. -/
  final : ∀ n k, result j n = .ok none ∨ (∃ e, result j n = .error e) → n < k →
    (after j k).state.done = true ∧ result j k = .ok none

theorem makesProgress_of_ready (h : j.state.Ready) : MakesProgress j where
  ends n most hm := by
    have hleft := (after j n).state.turnsLeft_lt_size
    rw [(follows_after h (Nat.zero_le n)).source] at hleft
    exact turns_eq_of_lt (ready_after h n) (Nat.lt_of_lt_of_le hleft hm) hleft
  advances n most := congrFun (turns_eq_uncheckedTurns most) (after j n)
  monotone _ _ hnk := (follows_after h hnk).next
  between n f hf := ⟨(between_of_result h hf).reaches, (between_of_result h hf).passes⟩
  done n f hf := (between_of_result h hf).done
  disjoint n k f g hnk hf hg :=
    ⟨(between_of_result h hf).passes,
      (follows_after h hnk).next.trans (between_of_result h hg).reaches⟩
  finite := by
    refine ⟨Place.rank j.state.source.image.size
      ⟨j.state.source.image.size, j.state.source.image.size⟩ + 1, fun n f hf => ?_⟩
    have hbetween := between_of_result h hf
    have hoffset := hbetween.offset_le
    have hskip := hbetween.skip_le
    rw [(follows_after h (Nat.zero_le n)).source] at hoffset hskip
    refine Nat.lt_succ_of_le (Nat.le_trans (le_rank_of_result h hf) ?_)
    exact Nat.add_le_add (Nat.mul_le_mul_right _ hoffset) hskip
  final n k hend hnk := by
    refine end_of_result h (fun f hf => ?_) hnk
    rcases hend with hend | ⟨e, hend⟩ <;> rw [hf] at hend <;> cases hend

/-- **Segmentation makes progress**, whatever the bytes and the settings are, however the file is
read, and whatever fails.  No loop over a stream runs into its bound either. -/
theorem makesProgress_of_start (source : Source) (settings : LoadSettings) (registry : Registry)
    (j : Journalled Unit) :
    Ends (fun s j' => MakesProgress ⟨s, j'.notes⟩ ∧
        ∀ stream : Journalled LogicalStream, LogicalStream.LoopsEnd stream)
      (fun _ _ => True) (start source settings registry j) := by
  unfold start
  cases source.reader 0 with
  | error e => exact trivial
  | ok r =>
    simp only
    cases TapeMark.detect r with
    | error e r => exact trivial
    | ok mark r =>
      simp only
      rw [ends_bind, ends_note, ends_pure]
      exact ⟨makesProgress_of_ready fun _ _ => .inl rfl, LogicalStream.loopsEnd⟩

end Segmentation

end WellLog
