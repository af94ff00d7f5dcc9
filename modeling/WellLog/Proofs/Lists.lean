import Mathlib.Data.List.Forall2
import Mathlib.Data.List.Nodup
/-!
# Lists

What pools need to know about lists without repetitions, about lists with the first element of each
kind, and about lists whose elements belong together in pairs.

* `nodup_eraseDups`, `find?_of_mem_eraseDupsBy` : what is left of a list without its repetitions.
* `filterMap_idxsOf` : looking up positions is filtering.
* `map_flatten_of_forall₂` : what is found piece by piece is what is specified piece by piece.
-/

namespace WellLog

/-! ### Without repetitions -/

theorem nodup_eraseDups {α : Type} [BEq α] [LawfulBEq α] : (l : List α) → l.eraseDups.Nodup
  | [] => List.nodup_nil
  | a :: l => by
    rw [List.eraseDups_cons, List.nodup_cons]
    refine ⟨?_, nodup_eraseDups _⟩
    simp [List.mem_eraseDups]
  termination_by l => l.length
  decreasing_by exact Nat.lt_succ_of_le (List.length_filter_le _ _)

theorem eq_singleton_of_forall_eq {α : Type} {a : α} {l : List α} (hnodup : l.Nodup) (ha : a ∈ l)
    (hall : ∀ b ∈ l, b = a) : l = [a] := by
  match l with
  | [] => cases ha
  | [b] => rw [hall b List.mem_cons_self]
  | b :: c :: l =>
    have hb := hall b List.mem_cons_self
    have hc := hall c (List.mem_cons_of_mem b List.mem_cons_self)
    rw [hb, hc, List.nodup_cons] at hnodup
    exact absurd List.mem_cons_self hnodup.1

/-! ### The first of each kind -/

section EraseDupsBy

variable {α β : Type} [BEq β] (key : α → β)

theorem map_eraseDupsBy : (l : List α) →
    (l.eraseDupsBy fun a b => key a == key b).map key = (l.map key).eraseDups
  | [] => rfl
  | a :: l => by
    have hfilter : (l.filter fun b => decide ((key b == key a) = false)).map key =
        (l.map key).filter fun k => !k == key a := by
      rw [List.filter_map]
      congr 1
      refine List.filter_congr fun b _ => ?_
      simp
    rw [List.eraseDupsBy_cons, List.map_cons, map_eraseDupsBy, hfilter, List.map_cons,
      List.eraseDups_cons]
  termination_by l => l.length
  decreasing_by exact Nat.lt_succ_of_le (List.length_filter_le _ _)

theorem eraseDupsBy_sublist : (l : List α) →
    (l.eraseDupsBy fun a b => key a == key b).Sublist l
  | [] => .slnil
  | a :: l => by
    rw [List.eraseDupsBy_cons]
    exact .cons_cons a ((eraseDupsBy_sublist _).trans List.filter_sublist)
  termination_by l => l.length
  decreasing_by exact Nat.lt_succ_of_le (List.length_filter_le _ _)

/-- What is passed over makes no difference if it is not looked for. -/
theorem find?_filter_of_imp {p q : α → Bool} (h : ∀ a, q a = true → p a = true) (l : List α) :
    (l.filter p).find? q = l.find? q := by
  rw [List.find?_filter]
  congr 1
  funext a
  by_cases ha : q a = true
  · simp [ha, h a ha]
  · simp [ha]

/-- What is left of a list is the first of its kind there. -/
theorem find?_of_mem_eraseDupsBy [LawfulBEq β] : (l : List α) → {a : α} →
    a ∈ l.eraseDupsBy (fun a b => key a == key b) → l.find? (fun b => key a == key b) = some a
  | [], _, h => nomatch h
  | b :: l, a, h => by
    rw [List.eraseDupsBy_cons, List.mem_cons] at h
    rcases h with rfl | h
    · simp
    · have hmem := (eraseDupsBy_sublist key _).subset h
      have hne : key a ≠ key b := by simpa using (List.mem_filter.1 hmem).2
      have hfind := find?_of_mem_eraseDupsBy _ h
      rw [find?_filter_of_imp] at hfind
      · simpa [hne] using hfind
      · intro c hc
        simpa [← beq_iff_eq.1 hc] using hne
  termination_by l => l.length
  decreasing_by exact Nat.lt_succ_of_le (List.length_filter_le _ _)

end EraseDupsBy

/-! ### Positions -/

/-- The elements at the positions of a value. -/
theorem filterMap_idxsOf {α β : Type} [BEq β] (l : List α) (key : α → β) (b : β) :
    ((l.map key).idxsOf b).filterMap (fun i => l[i]?) = l.filter fun a => key a == b := by
  rw [List.idxsOf, List.findIdxs_map, List.findIdxs_eq_filterMap_zipIdx, List.filterMap_filterMap]
  -- what stands at a position is what the position was found for
  have hat : ∀ p ∈ l.zipIdx,
      Option.bind (bif ((· == b) ∘ key) p.1 then some p.2 else none) (fun i => l[i]?) =
        Option.guard (fun a => key a == b) p.1 := by
    intro p hp
    have hget : l[p.2]? = some p.1 := List.mem_zipIdx_iff_getElem?.1 hp
    rw [Function.comp_apply, Option.guard]
    cases key p.1 == b with
    | true => exact hget
    | false => rfl
  have hfst : l.zipIdx.map Prod.fst = l := List.zipIdx_map_fst 0 l
  rw [List.filterMap_congr hat, ← List.filterMap_eq_filter]
  conv => rhs; rw [← hfst]
  rw [List.filterMap_map]
  rfl

/-! ### In pairs -/

theorem forall_mem_of_forall₂ {α β : Type} {P : β → Prop} {l : List α} {bs : List β}
    (h : List.Forall₂ (fun _ b => P b) l bs) : ∀ b ∈ bs, P b := by
  induction h with
  | nil => nofun
  | cons hb _ ih => exact List.forall_mem_cons.2 ⟨hb, ih⟩

theorem map_flatten_of_forall₂ {α β γ : Type} {g : β → γ} {spec : α → List γ} {l : List α}
    {found : List (List β)} (h : List.Forall₂ (fun a bs => bs.map g = spec a) l found) :
    found.flatten.map g = l.flatMap spec := by
  induction h with
  | nil => rfl
  | cons hfirst _ ih => rw [List.flatten_cons, List.map_append, hfirst, ih, List.flatMap_cons]

end WellLog
