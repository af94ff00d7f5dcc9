import WellLog.Proofs.Run
import WellLog.Segmentation
/-!
# Calls of a segmentation

A physical file is read by one call of `Segmentation.nextFile` after the other.  `after j n` is the
segmentation after `n` calls, and `result j n` is what the call behind them returns, be it a logical
file, the end or a failure.
-/

namespace WellLog

namespace Segmentation

variable {j : Journalled Segmentation}

/-- What the next call returns, and the segmentation behind it. -/
def call (j : Journalled Segmentation) :
    Except LoadError (Option LogicalFile) × Journalled Segmentation :=
  match nextFile j with
  | .ok found j' => (.ok found, j')
  | .error e j' => (.error e, j')

/-- The segmentation after `n` calls. -/
def after (j : Journalled Segmentation) : Nat → Journalled Segmentation
  | 0 => j
  | n + 1 => (call (after j n)).2

/-- What the call behind `n` others returns. -/
def result (j : Journalled Segmentation) (n : Nat) : Except LoadError (Option LogicalFile) :=
  (call (after j n)).1

/-- Logical files cannot be compared, but failures can. -/
theorem eq_error_of_map {ε α β : Type} {x : Except ε α} {f : α → β} {e : ε}
    (h : x.map f = .error e) : x = .error e := by
  cases x with
  | ok a => cases h
  | error e' => simpa [Except.map] using h

/-- What is known of a run of `nextFile` is known of the call. -/
theorem call_of_ends {Q : Option LogicalFile → Journalled Segmentation → Prop}
    {E : LoadError → Journalled Segmentation → Prop} (h : Ends Q E (nextFile j)) :
    match call j with
    | (.ok found, j') => Q found j'
    | (.error e, j') => E e j' := by
  unfold call
  cases hrun : nextFile j with
  | ok found j' => rwa [hrun] at h
  | error e j' => rwa [hrun] at h

/-- The calls behind `k` others are the calls of the segmentation there. -/
theorem after_add (j : Journalled Segmentation) (k n : Nat) :
    after j (k + n) = after (after j k) n := by
  induction n with
  | zero => rfl
  | succ n ih =>
    rw [Nat.add_succ, after, after, ih]

theorem result_add (j : Journalled Segmentation) (k n : Nat) :
    result j (k + n) = result (after j k) n := by
  rw [result, result, after_add]

/-- A failure is the end.  Otherwise a call is a run of turns. -/
theorem ends_nextFile {Q : Option LogicalFile → Journalled Segmentation → Prop}
    {E : LoadError → Journalled Segmentation → Prop}
    (h : Ends Q (fun e j' => E e ⟨{ j'.state with done := true }, j'.notes⟩)
      (turns (j.state.source.image.size + 2) j)) : Ends Q E (nextFile j) := by
  unfold nextFile
  rw [ends_bind, ends_state, ends_bind, ends_attempt]
  exact h.mono (fun _ _ => id) fun _ _ => id

theorem turns_of_done {most : Nat} (h : j.state.done = true) : turns most j = .ok none j := by
  cases most with
  | zero => rfl
  | succ most =>
    rw [turns, bind_state, if_pos h]
    rfl

/-- Nothing follows the end. -/
theorem call_of_done (h : j.state.done = true) : call j = (.ok none, j) := by
  have hrun : nextFile j = .ok none j := by
    unfold nextFile
    rw [bind_state]
    simp only [bind, EStateM.bind, attempt, turns_of_done h]
    rfl
  rw [call, hrun]

theorem after_of_done (h : j.state.done = true) (n : Nat) : after j n = j := by
  induction n with
  | zero => rfl
  | succ n ih => rw [after, ih, call_of_done h]

theorem result_of_done (h : j.state.done = true) (n : Nat) : result j n = .ok none := by
  rw [result, after_of_done h, call_of_done h]

/-- A call that failed is the end. -/
theorem done_of_result {n : Nat} {e : LoadError} (h : result j n = .error e) {k : Nat} (hk : n < k) :
    (after j k).state.done = true ∧ result j k = .ok none := by
  have hcall := call_of_ends (j := after j n) (ends_nextFile
    (Q := fun _ _ => True) (E := fun _ j' => j'.state.done = true)
    ((Ends.trivial _).mono (fun _ _ => id) fun _ _ _ => rfl))
  have hdone : (after j (n + 1)).state.done = true := by
    rw [result] at h
    rw [after]
    generalize call (after j n) = c at *
    obtain ⟨found, j'⟩ := c
    simp only at h
    subst h
    exact hcall
  obtain ⟨m, rfl⟩ := Nat.exists_eq_add_of_lt hk
  rw [Nat.add_right_comm, after_add, result_add, after_of_done hdone]
  exact ⟨hdone, result_of_done hdone m⟩

end Segmentation

end WellLog
