import WellLog.CharSet
/-!
# Membership in sets of characters

A set that is made of code points holds these and no others (`CharSet.mem_ofCodes`).  It covers them
one by one, from the last one to the first, which keeps its changes in order (`CharSet.foldr_cover`).
-/

namespace WellLog

namespace CharSet

/-- Changes in order, each of them once. -/
def Ordered (changes : List Nat) : Prop := changes.Pairwise (· < ·)

/-- In front of all changes nothing has changed. -/
theorem within_of_forall_lt {inside : Bool} {changes : List Nat} {n : Nat}
    (h : ∀ change ∈ changes, n < change) : within inside changes n = inside := by
  cases changes with
  | nil => rfl
  | cons change changes => simp [within, h change List.mem_cons_self]

/-- Covering a code point adds no changes but those around it. -/
theorem mem_of_mem_cover {n c : Nat} {changes : List Nat} (h : c ∈ cover n changes) :
    c = n ∨ c = n + 1 ∨ c ∈ changes := by
  unfold cover at h
  split at h
  · simp at h; omega
  · split at h
    · exact .inr (.inr h)
    · split at h
      · rcases List.mem_cons.1 h with h | h
        · exact .inl h
        · exact .inr (.inr (List.mem_cons_of_mem _ h))
      · simp only [List.mem_cons] at h ⊢
        omega

/-- Covering a code point keeps changes in order. -/
theorem ordered_cover {n : Nat} {changes : List Nat} (h : Ordered changes)
    (behind : ∀ c ∈ changes, n ≤ c) : Ordered (cover n changes) := by
  unfold cover
  split
  · simp [Ordered]
  · next change changes =>
    obtain ⟨first, rest⟩ := List.pairwise_cons.1 h
    have here := behind change List.mem_cons_self
    split
    · exact h
    · split
      · exact List.pairwise_cons.2 ⟨fun c hc => by have := first c hc; omega, rest⟩
      · refine List.pairwise_cons.2 ⟨fun c hc => ?_, List.pairwise_cons.2 ⟨fun c hc => ?_, h⟩⟩
        · rcases List.mem_cons.1 hc with hc | hc
          · omega
          · have := behind c hc
            rcases List.mem_cons.1 hc with hc | hc
            · omega
            · have := first c hc; omega
        · rcases List.mem_cons.1 hc with hc | hc
          · omega
          · have := first c hc; omega

/-- Covering a code point adds it and nothing else. -/
theorem within_cover {n m : Nat} {changes : List Nat} (h : Ordered changes)
    (behind : ∀ c ∈ changes, n ≤ c) :
    within false (cover n changes) m = (m == n || within false changes m) := by
  unfold cover
  split
  · by_cases h₁ : m < n
    · have : m ≠ n := by omega
      simp [within, h₁, this]
    · by_cases h₂ : m = n
      · simp [within, h₂]
      · have : ¬ m < n + 1 := by omega
        simp [within, h₁, h₂, this]
  · next change changes =>
    obtain ⟨first, rest⟩ := List.pairwise_cons.1 h
    have here := behind change List.mem_cons_self
    have inside (k : Nat) (hk : k ≤ change) : within true changes k = true :=
      within_of_forall_lt fun c hc => Nat.lt_of_le_of_lt hk (first c hc)
    split
    · next same =>
      by_cases h₂ : m = n
      · simp [within, h₂, same, inside n here]
      · simp [h₂]
    · split
      · next next_ =>
        by_cases h₁ : m < n
        · have other : m ≠ n := by omega
          have front : m < change := by omega
          simp [within, h₁, other, front]
        · by_cases h₂ : m = n
          · simp [within, h₂, inside n here]
          · have : ¬ m < change := by omega
            simp [within, h₁, h₂, this]
      · by_cases h₁ : m < n
        · have other : m ≠ n := by omega
          have front : m < change := by omega
          simp [within, h₁, other, front]
        · by_cases h₂ : m = n
          · simp [within, h₂]
          · have : ¬ m < n + 1 := by omega
            simp [within, h₁, h₂, this]

/-- What covering code points in order gives: changes in order, none of them in front of the code
points, and the code points themselves inside. -/
theorem foldr_cover {codes : List Nat} (h : codes.Pairwise (· ≤ ·)) :
    Ordered (codes.foldr cover []) ∧
      (∀ n, (∀ code ∈ codes, n ≤ code) → ∀ c ∈ codes.foldr cover [], n ≤ c) ∧
      ∀ m, within false (codes.foldr cover []) m = codes.contains m := by
  induction codes with
  | nil => simp [Ordered, within]
  | cons code codes ih =>
    obtain ⟨first, rest⟩ := List.pairwise_cons.1 h
    obtain ⟨order, least, same⟩ := ih rest
    refine ⟨ordered_cover order (least code first), fun n hn c hc => ?_, fun m => ?_⟩
    · have := hn code List.mem_cons_self
      rcases mem_of_mem_cover hc with hc | hc | hc
      · omega
      · omega
      · exact least n (fun d hd => hn d (List.mem_cons_of_mem _ hd)) c hc
    · rw [List.foldr_cons, within_cover order (least code first), same, List.contains_cons]

/-- **Sets of code points** hold these and no others. -/
theorem mem_ofCodes (codes : List Nat) (c : Char) :
    (ofCodes codes).mem c = codes.contains c.toNat := by
  have sorted : (codes.mergeSort (· ≤ ·)).Pairwise (· ≤ ·) :=
    (codes.pairwise_mergeSort (by simp; omega) (by simp; omega)).imp (by simp)
  rw [ofCodes, mem, (foldr_cover sorted).2.2, Bool.eq_iff_iff]
  simp

end CharSet

end WellLog
