import WellLog.ObjectSet.Parser
import WellLog.Pool.Link
import WellLog.Proofs.Run
/-!
# Computations that take no notice of the journal

Notes are for the reader of a journal.  A computation that only makes them, and never fails, has the
same outcome whatever the journal says and whatever failures are possible around it.

* `Concur R x x'` : the computations `x` and `x'` end with the same value.
* `Logged.outcome` : the value and the state that a computation without failures ends with.
* `Record.concur_objectSets`, `Pool.concur_addSets`, `Pool.concur_link` : making sets of records and
  pooling and linking their objects are such computations.
-/

namespace WellLog

variable {ε ε' σ σ' α β : Type}

/-- Neither computation fails.  From states that `R` relates they end with the same value, and with
states that `R` relates, whatever the journals are. -/
def Concur (R : σ → σ' → Prop) (x : Logged ε σ α) (x' : Logged ε' σ' α) : Prop :=
  ∀ j j', R j.state j'.state →
    Agree (fun a t a' t' => a' = a ∧ R t.state t'.state) (fun _ _ _ _ => False) (x j) (x' j')

namespace Concur

variable {R : σ → σ' → Prop}

theorem pure (a : α) :
    Concur R (Pure.pure a : Logged ε σ α) (Pure.pure a : Logged ε' σ' α) := fun _ _ h => ⟨rfl, h⟩

theorem note (l : Level) (m : String) :
    Concur R (Logged.note l m : Logged ε σ Unit) (Logged.note l m : Logged ε' σ' Unit) :=
  fun _ _ h => ⟨rfl, h⟩

theorem bind {x : Logged ε σ β} {x' : Logged ε' σ' β} {f : β → Logged ε σ α}
    {f' : β → Logged ε' σ' α} (hx : Concur R x x') (hf : ∀ b, Concur R (f b) (f' b)) :
    Concur R (x >>= f) (x' >>= f') := by
  intro j j' h
  refine agree_bind ((hx j j' h).mono ?_ fun _ _ _ _ => False.elim)
  rintro b t b' t' ⟨rfl, ht⟩
  exact hf b' t t' ht

theorem filterMapM {f : β → Logged ε σ (Option α)} {f' : β → Logged ε' σ' (Option α)}
    (hf : ∀ b, Concur R (f b) (f' b)) (l : List β) :
    Concur R (l.filterMapM f) (l.filterMapM f') := fun _ _ h =>
  agree_filterMapM (I := fun t t' => R t.state t'.state) h fun b _ t t' ht => hf b t t' ht

theorem foldlM {f : α → β → Logged ε σ α} {f' : α → β → Logged ε' σ' α}
    (hf : ∀ a b, Concur R (f a b) (f' a b)) (a : α) (l : List β) :
    Concur R (l.foldlM f a) (l.foldlM f' a) := by
  induction l generalizing a with
  | nil => exact .pure a
  | cons b l ih =>
    rw [List.foldlM_cons, List.foldlM_cons]
    exact .bind (hf a b) ih

theorem mapM {f : β → Logged ε σ α} {f' : β → Logged ε' σ' α} (hf : ∀ b, Concur R (f b) (f' b))
    (l : List β) : Concur R (l.mapM f) (l.mapM f') := by
  induction l with
  | nil =>
    rw [List.mapM_nil, List.mapM_nil]
    exact .pure []
  | cons b l ih =>
    rw [List.mapM_cons, List.mapM_cons]
    exact .bind (hf b) fun _ => .bind ih fun _ => .pure _

theorem forM {f : β → Logged ε σ PUnit} {f' : β → Logged ε' σ' PUnit}
    (hf : ∀ b, Concur R (f b) (f' b)) (l : List β) : Concur R (l.forM f) (l.forM f') := by
  induction l with
  | nil => exact .pure _
  | cons b l ih =>
    exact .bind (hf b) fun _ => ih

/-- Both may look at their state where it is the same. -/
theorem bind_state {f : σ → Logged ε σ α} {f' : σ → Logged ε' σ α}
    (hf : ∀ s, Concur Eq (f s) (f' s)) :
    Concur Eq (Logged.state >>= f) (Logged.state >>= f') := by
  intro j j' h
  refine agree_bind (agree_state.2 ?_)
  rw [← h]
  exact hf j.state j j' h

/-- Both may change their state where it is the same, without a look at the journal. -/
theorem alter {g : Journalled σ → Journalled σ}
    (hg : ∀ {j j' : Journalled σ}, j.state = j'.state → (g j).state = (g j').state) :
    Concur Eq (modify g : Logged ε σ PUnit) (modify g : Logged ε' σ PUnit) :=
  fun _ _ h => ⟨rfl, hg h⟩

end Concur

/-- The value and the state that a computation without failures ends with. -/
def Logged.outcome (x : Logged Empty σ α) (s : σ) : α × σ :=
  match x ⟨s, #[]⟩ with
  | .ok a j => (a, j.state)
  | .error e _ => nomatch e

/-- A computation that takes no notice of the journal ends with its outcome. -/
theorem Concur.ends_outcome {x : Logged ε σ α} {x' : Logged Empty σ α} (h : Concur Eq x x')
    (j : Journalled σ) :
    Ends (fun a j' => (a, j'.state) = x'.outcome j.state) (fun _ _ => False) (x j) := by
  have hagree := h j ⟨j.state, #[]⟩ rfl
  unfold Logged.outcome
  match x j, x' ⟨j.state, #[]⟩, hagree with
  | .ok _ _, .ok _ _, ⟨rfl, hs⟩ => exact Prod.ext rfl hs

/-- So does one that leaves its state alone, wherever it runs. -/
theorem Concur.ends_outcome_of_any {x : Logged ε σ α} {x' : Logged Empty Unit α}
    (h : ∀ s, Concur (fun t _ => t = s) x x') (j : Journalled σ) :
    Ends (fun a j' => a = (x'.outcome ()).1 ∧ j'.state = j.state) (fun _ _ => False) (x j) := by
  have hagree := h j.state j ⟨(), #[]⟩ rfl
  unfold Logged.outcome
  match x j, x' ⟨(), #[]⟩, hagree with
  | .ok _ _, .ok _ _, ⟨rfl, hs⟩ => exact ⟨rfl, hs⟩

/-! ### Sets -/

namespace Record

variable {R : σ → σ' → Prop}

theorem concur_objectSet (r : Record) :
    Concur R (r.objectSet : Logged ε σ _) (r.objectSet : Logged ε' σ' _) := by
  unfold objectSet
  cases ObjectSet.parse r.type r.body with
  | ok set => exact .bind (.note _ _) fun _ => .pure _
  | error d => exact .pure _

theorem concur_objectSet? (r : Record) :
    Concur R (r.objectSet? : Logged ε σ _) (r.objectSet? : Logged ε' σ' _) := by
  unfold objectSet?
  split
  · exact .pure _
  · split
    · exact .bind (.note _ _) fun _ => .pure _
    · split
      · exact .bind (.note _ _) fun _ => .pure _
      · refine .bind (concur_objectSet r) fun found => ?_
        cases found with
        | ok set =>
          simp only
          split
          · exact .bind (.note _ _) fun _ => .pure _
          · exact .pure _
        | error d => exact .bind (.note _ _) fun _ => .pure _

/-- **The sets of records do not depend on where they are made.** -/
theorem concur_objectSets (records : List Record) :
    Concur R (objectSets records : Logged ε σ _) (objectSets records : Logged ε' σ' _) :=
  .filterMapM concur_objectSet? records

end Record

/-! ### Pools -/

namespace Pool

theorem concur_promote (b : Bucket) (raw : RawObject) :
    Concur Eq (promote b raw : Logged ε Pool _) (promote b raw : Logged ε' Pool _) := by
  unfold promote
  refine .bind_state fun p => ?_
  have hadd : Concur Eq
      ((modify fun j => { j with state.promoted := j.state.promoted.push ⟨raw, []⟩ }) >>= fun _ =>
        pure (b.put raw.fingerprint p.promoted.size) : Logged ε Pool Bucket)
      ((modify fun j => { j with state.promoted := j.state.promoted.push ⟨raw, []⟩ }) >>= fun _ =>
        pure (b.put raw.fingerprint p.promoted.size) : Logged ε' Pool Bucket) :=
    .bind (.alter fun h => by simp only [h]) fun _ => .pure _
  simp only
  split
  · split
    · exact .bind (.note _ _) fun _ => hadd
    · exact hadd
  · exact hadd

theorem concur_promoteAll (b : Bucket) (objects : List RawObject) :
    Concur Eq (promoteAll b objects : Logged ε Pool _) (promoteAll b objects : Logged ε' Pool _) :=
  .foldlM concur_promote b objects

theorem concur_keep (type : String) (b : Bucket) :
    Concur Eq (keep type b : Logged ε Pool _) (keep type b : Logged ε' Pool _) :=
  .alter fun h => by simp only [h]

theorem concur_addSet (s : ObjectSet) :
    Concur Eq (addSet s : Logged ε Pool _) (addSet s : Logged ε' Pool _) := by
  unfold addSet
  refine .bind (.note _ _) fun _ => .bind_state fun p => ?_
  have hdeclare : Concur Eq
      (modify fun j => { j with state.declared := declare s.type s.objects j.state.declared } :
        Logged ε Pool PUnit)
      (modify fun j => { j with state.declared := declare s.type s.objects j.state.declared } :
        Logged ε' Pool PUnit) :=
    .alter fun h => by simp only [h]
  cases p.cache.lookup s.type with
  | some b =>
    exact .bind (concur_promoteAll b s.objects) fun b => .bind (concur_keep s.type b) fun _ => hdeclare
  | none => exact hdeclare

/-- **The pool of sets does not depend on where it is made.** -/
theorem concur_addSets (sets : List ObjectSet) :
    Concur Eq (addSets sets : Logged ε Pool _) (addSets sets : Logged ε' Pool _) :=
  .forM concur_addSet sets

theorem concur_keptBucket (type : String) :
    Concur Eq (keptBucket type : Logged ε Pool _) (keptBucket type : Logged ε' Pool _) := by
  unfold keptBucket
  refine .bind_state fun p => ?_
  cases p.cache.lookup type with
  | some b => exact .pure b
  | none =>
    exact .bind (concur_promoteAll _ _) fun b => .bind (concur_keep type b) fun _ => .pure b

theorem concur_linkInstance (members : List (Fingerprint × InstanceId)) (report : LinkReport)
    (id : InstanceId) :
    Concur Eq (linkInstance members report id : Logged ε Pool _)
      (linkInstance members report id : Logged ε' Pool _) := by
  unfold linkInstance
  refine .bind_state fun p => ?_
  cases p.instance? id with
  | none => exact .pure report
  | some i => exact .bind (.alter fun h => by simp only [h]) fun _ => .pure _

/-- **Links do not depend on where they are made.** -/
theorem concur_link : Concur Eq (link : Logged ε Pool _) (link : Logged ε' Pool _) := by
  unfold link
  refine .bind_state fun p => .bind (.mapM concur_keptBucket p.types) fun buckets => ?_
  refine .bind (.foldlM (fun report (m : Fingerprint × InstanceId) => concur_linkInstance _ report m.2) _ _) fun report => ?_
  exact .bind (.forM (fun d => .note _ _) _) fun _ => .bind (.note _ _) fun _ => .pure report

end Pool

end WellLog
