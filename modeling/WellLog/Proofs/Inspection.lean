import WellLog.Inspection
import WellLog.Proofs.Segmentation.Caching
/-!
# Inspection with caching and without

A report shows objects, their numbers and where their links lead, but not the instances themselves.
So it cannot tell whether instances are kept: every report asks a logical file for each type at most
once, and links all instances before it shows where they lead.

* `Invocation.agree_countObjects`, `Invocation.agree_summarizeFile`,
  `Invocation.agree_summarizeObjects`, `Invocation.agree_summarizeLinks` : what a report says of one
  logical file.
* `Invocation.report_eq` : **a report takes no notice of the setting** of the pools.
* `Invocation.run_noCache` : **neither does an inspection**: it ends in the same way, with the same
  text and the same notes.
-/

namespace WellLog

/-- The logical files have the same instances, and were not asked for the types `ts` yet. -/
structure LogicalFile.Parallel (ts : List String) (f f' : LogicalFile) : Prop where
  /-- Nothing but the pools is different. -/
  eq : f' = { f with pool := f'.pool }
  /-- The pools. -/
  pools : f.pool.Parallel ts f'.pool

theorem LogicalFile.Recached.parallel {f f' : LogicalFile} (h : f.Recached f') :
    f.Parallel f.pool.types f' := ⟨h.eq, h.settled.parallel h.pools⟩

namespace Invocation

variable {α : Type} {ts : List String} {type : String}
  {j j' : Journalled LogicalFile}

/-! ### Queries -/

theorem agree_query {x : Logged QueryError Pool α} {S : Pool → Pool → Prop}
    (h : j'.state = { j.state with pool := j'.state.pool })
    (hx : Agree (fun a k a' k' => a' = a ∧ Synced S k k') SameFailure
      (x ⟨j.state.pool, j.notes⟩) (x ⟨j'.state.pool, j'.notes⟩)) :
    Agree (fun a k a' k' => a' = a ∧
        Synced (fun f f' => f' = { f with pool := f'.pool } ∧ S f.pool f'.pool) k k')
      SameFailure (query x j) (query x j') := by
  refine agree_adaptExcept (agree_within (hx.mono ?_ ?_))
  · rintro a ⟨p, notes⟩ _ ⟨p', notes'⟩ ⟨rfl, hnotes, hp⟩
    refine ⟨rfl, hnotes, ?_, hp⟩
    simp only
    rw [h]
  · rintro e ⟨p, notes⟩ _ ⟨p', notes'⟩ ⟨rfl, hnotes⟩
    exact ⟨rfl, hnotes⟩

theorem agree_find {name : Option String} {matcher : Matcher} (rest : List String)
    (h : Synced (LogicalFile.Parallel ts) j j')
    (hts : ∀ n, matcher.compile? type = some n →
      (j.state.pool.types.filter n.accepts ++ rest).Sublist ts) :
    Agree (fun ids k ids' k' => ids' = ids ∧ Synced (LogicalFile.Parallel rest) k k') SameFailure
      (query (Pool.find type name matcher) j) (query (Pool.find type name matcher) j') := by
  refine (agree_query h.2.eq (Pool.agree_find rest ⟨h.1, h.2.pools⟩ hts)).mono ?_ fun _ _ _ _ => id
  rintro ids k _ k' ⟨rfl, hnotes, heq, hpools⟩
  exact ⟨rfl, hnotes, heq, hpools⟩

theorem agree_link (h : Synced LogicalFile.Recached j j') :
    Agree (fun r k r' k' => r' = r ∧ Synced LogicalFile.Recached k k') SameFailure
      (query Pool.link j) (query Pool.link j') := by
  have hlink := (Pool.synced_link (H := fun _ : QueryError => False) ⟨j.state.pool, j.notes⟩
    ⟨j'.state.pool, j'.notes⟩ ⟨h.1, h.2.pools⟩).and_ends
    (h.2.settled.ends_link (j := ⟨j.state.pool, j.notes⟩))
  refine (agree_query h.2.eq (S := fun p p' => p.Recached p' ∧ p.Settled)
    ((hlink.agree fun _ => id).mono ?_ fun _ _ _ _ he => ⟨he.1, he.2.1⟩)).mono ?_ fun _ _ _ _ => id
  · rintro r k _ k' ⟨⟨rfl, hnotes, hp⟩, hsettled⟩
    exact ⟨rfl, hnotes, hp, hsettled⟩
  · rintro r k _ k' ⟨rfl, hnotes, heq, hp, hsettled⟩
    exact ⟨rfl, hnotes, heq, hp, hsettled⟩

/-! ### One logical file -/

/-- Counting asks for one type after the other. -/
theorem agree_countObjects (h : Synced LogicalFile.Recached j j') :
    Agree (fun counts k counts' k' => counts' = counts ∧ Synced (LogicalFile.Parallel []) k k')
      SameFailure (countObjects j) (countObjects j') := by
  unfold countObjects
  rw [bind_state, bind_state, h.2.parallel.pools.types]
  refine agree_mapM (I := fun l => Synced (LogicalFile.Parallel l)) ⟨h.1, h.2.parallel⟩ ?_
  intro t l k k' hk
  have hone : k.state.pool.types.filter (Needle.exact t).accepts = [t] := by
    have hmem := hk.2.pools.asked.subset (List.mem_cons_self (a := t))
    rw [Needle.filter_exact, List.count_eq_one_of_mem hk.2.pools.nodup hmem]
    rfl
  refine agree_bind ((agree_find l hk ?_).mono ?_ fun _ _ _ _ => id)
  · rintro _ ⟨⟩
    rw [hone]
    exact .refl _
  · rintro ids u _ u' ⟨rfl, hu⟩
    exact ⟨rfl, hu⟩

theorem agree_summarizeFile (h : Synced LogicalFile.Recached j j') (index : Nat) :
    Agree (fun r k r' k' => r' = r ∧ k'.notes = k.notes) SameFailure (summarizeFile index j)
      (summarizeFile index j') := by
  unfold summarizeFile
  refine agree_bind ((agree_countObjects h).mono ?_ fun _ _ _ _ => id)
  rintro counts k _ k' ⟨rfl, hnotes, hk⟩
  rw [bind_state, bind_state, hk.eq]
  exact ⟨rfl, hnotes⟩

/-- An instance is shown with the same links. -/
theorem summarizeObject_eq {p p' : Pool} (h : p.Parallel ts p') (file : Nat) (id : InstanceId) :
    summarizeObject file p' id = summarizeObject file p id := by
  have hinstance : p'.instance? = p.instance? := by
    funext id
    rw [Pool.instance?, h.promoted, Pool.instance?]
  have hlinks := congrArg (List.map fun e : String × List (Option InstanceId) =>
    (e.1, e.2.map fun slot => (slot.bind p.instance?).map (·.raw.fingerprint))) (h.linked_eq id)
  rw [List.map_map, List.map_map] at hlinks
  unfold summarizeObject
  rw [hinstance, h.registry]
  refine Option.map_congr fun i _ => ?_
  rw [ObjectSummary.mk.injEq]
  exact ⟨rfl, rfl, rfl, rfl, hlinks⟩

/-- What is found is shown in the same way, with the links that are there. -/
theorem agree_summarizeFound (h : Synced LogicalFile.Recached j j') (type : String)
    (name : Option String) (exact : Bool) (index : Nat) :
    Agree (fun r k r' k' => r' = r ∧ k'.notes = k.notes) SameFailure
      (summarizeObjects type name exact false index j)
      (summarizeObjects type name exact false index j') := by
  refine agree_bind ((agree_find [] ⟨h.1, h.2.parallel⟩ ?_).mono ?_ fun _ _ _ _ => id)
  · intro n _
    rw [List.append_nil]
    exact List.filter_sublist
  · rintro ids k _ k' ⟨rfl, hnotes, hk⟩
    rw [bind_state, bind_state]
    exact ⟨List.filterMap_congr fun id _ => summarizeObject_eq hk.pools index id, hnotes⟩

theorem agree_summarizeObjects (h : Synced LogicalFile.Recached j j') (type : String)
    (name : Option String) (exact links : Bool) (index : Nat) :
    Agree (fun r k r' k' => r' = r ∧ k'.notes = k.notes) SameFailure
      (summarizeObjects type name exact links index j)
      (summarizeObjects type name exact links index j') := by
  cases links with
  | false => exact agree_summarizeFound h type name exact index
  | true =>
    refine agree_bind ((agree_link h).mono ?_ fun _ _ _ _ => id)
    rintro r k _ k' ⟨rfl, hk⟩
    exact agree_summarizeFound hk type name exact index

theorem agree_summarizeLinks (h : Synced LogicalFile.Recached j j') (index : Nat) :
    Agree (fun r k r' k' => r' = r ∧ k'.notes = k.notes) SameFailure (summarizeLinks index j)
      (summarizeLinks index j') := by
  refine agree_bind ((agree_link h).mono ?_ fun _ _ _ _ => id)
  rintro r k _ k' ⟨rfl, hk⟩
  exact ⟨rfl, hk.1⟩

/-! ### Reports -/

section

variable {files files' : List LogicalFile}

/-- What is said of one logical file. -/
theorem apart_eq_of_agree {ε σ τ : Type} {x x' : Logged ε τ α} {s s' : τ}
    (h : ∀ notes, Agree (fun r k r' k' => r' = r ∧ k'.notes = k.notes) SameFailure
      (x ⟨s, notes⟩) (x' ⟨s', notes⟩)) :
    (do return (← Logged.apart s' x').1 : Logged ε σ α) = do return (← Logged.apart s x).1 := by
  funext j
  have hj := h j.notes
  simp only [bind, EStateM.bind, apart_eq]
  generalize x ⟨s, j.notes⟩ = r at hj ⊢
  generalize x' ⟨s', j.notes⟩ = r' at hj ⊢
  match r, r', hj with
  | .ok _ _, .ok _ _, ⟨rfl, hnotes⟩ => simp only [embed, hnotes]
  | .error _ _, .error _ _, ⟨rfl, hnotes⟩ => simp only [embed, hnotes]

/-- What is said of every logical file takes no notice of the setting. -/
theorem forFiles_eq {x : Nat → Logged InspectionError LogicalFile α}
    (hx : ∀ {j j' : Journalled LogicalFile}, Synced LogicalFile.Recached j j' → ∀ index,
      Agree (fun r k r' k' => r' = r ∧ k'.notes = k.notes) SameFailure (x index j) (x index j'))
    (h : List.Forall₂ LogicalFile.Recached files files') : forFiles x files' = forFiles x files := by
  unfold forFiles
  generalize 0 = n
  induction h generalizing n with
  | nil => rfl
  | @cons f f' fs fs' hf _ ih =>
    have hfirst : (do return (← Logged.apart f' (x n)).1 : Inspecting α) =
        do return (← Logged.apart f (x n)).1 :=
      apart_eq_of_agree fun notes => @hx ⟨f, notes⟩ ⟨f', notes⟩ ⟨rfl, hf⟩ n
    rw [List.zipIdx_cons, List.zipIdx_cons, List.mapM_cons, List.mapM_cons, ih (n + 1)]
    exact congrArg (· >>= _) hfirst

/-- **A report takes no notice of the setting** of the pools. -/
theorem report_eq (command : Command) (h : List.Forall₂ LogicalFile.Recached files files') :
    report command files' = report command files := by
  cases command with
  | files => rw [report, report, forFiles_eq agree_summarizeFile h]
  | types =>
    rw [report, report, forFiles_eq (fun hj index => ?_) h]
    refine agree_bind ((agree_countObjects hj).mono ?_ fun _ _ _ _ => id)
    rintro counts k _ k' ⟨rfl, hk⟩
    exact ⟨rfl, hk.1⟩
  | objects type name exact links =>
    rw [report, report, forFiles_eq (fun hj index => ?_) h]
    exact agree_summarizeObjects hj type name exact links index
  | link => rw [report, report, forFiles_eq agree_summarizeLinks h]

end

/-! ### Inspections -/

theorem synced_load (i : Invocation) (files : Files) (settings : LoadSettings) (on : Bool) :
    Mirrors (fun _ => False) (Synced Eq) (List.Forall₂ LogicalFile.Recached)
      (i.load files settings) (i.load files { settings with cacheMetadata := on }) := by
  refine .bind_note_synced (.bind (.adaptExcept (H := fun _ => False)
    (Segmentation.synced_load _ settings on .standard) fun _ => id) fun loaded loaded' h => ?_)
  rw [h.length_eq]
  exact .bind_note_synced (.pure h)

/-- The option and the settings in a file have the same effect. -/
theorem synced_settings (i : Invocation) (files : Files) :
    Mirrors (fun _ => False) (Synced Eq) (fun s s' => s' = { s with cacheMetadata := false })
      (settings { i with noCache := false } files) (settings { i with noCache := true } files) := by
  unfold settings
  cases i.config with
  | none => exact .pure (by simp)
  | some path => exact .bind_eq (.refl_synced _) fun base => .pure (by simp)

/-- **An inspection takes no notice of whether instances are kept.**  It writes the same text or fails
in the same way, and makes the same notes; only the settings that were used are different. -/
theorem run_noCache (i : Invocation) (files : Files) :
    run { i with noCache := true } files =
      (fun done => ({ done.1 with cacheMetadata := false }, done.2)) <$>
        run { i with noCache := false } files := by
  refine Mirrors.eq_map (.bind (synced_settings i files) ?_)
  rintro settings _ rfl
  refine .bind (synced_load _ files settings false) fun loaded loaded' h => ?_
  rw [report_eq _ h]
  exact .bind_eq (.refl_synced _) fun r => .pure rfl

end Invocation

end WellLog
