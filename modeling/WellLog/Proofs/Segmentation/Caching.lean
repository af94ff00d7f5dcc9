import WellLog.Proofs.Pool.Caching
import WellLog.Segmentation
/-!
# Loading with caching and without

The settings tell the pools of logical files whether to keep instances.  Two segmentations whose
settings differ in nothing else load the same logical files and make the same notes; only the setting
of the pools is different.  That is so even where the files are linked while they are loaded.

* `Segmentation.synced_loadFile` : **the same logical file is loaded**.
* `Segmentation.synced_turn` : a turn leads to the same.
* `Segmentation.synced_load` : **so does loading a physical file**.
-/

namespace WellLog

/-! ### Sets -/

namespace Record

variable {ε σ σ' : Type} {H : ε → Prop} {R : σ → σ' → Prop}

theorem synced_objectSet? (r : Record) :
    Mirrors H (Synced R) Eq (r.objectSet? : Logged ε σ _) (r.objectSet? : Logged ε σ' _) := by
  have hparse : Mirrors H (Synced R) Eq (r.objectSet : Logged ε σ _)
      (r.objectSet : Logged ε σ' _) := by
    unfold objectSet
    cases ObjectSet.parse r.type r.body with
    | ok set => exact .bind_note_synced (.pure rfl)
    | error d => exact .pure rfl
  unfold objectSet?
  split
  · exact .pure rfl
  · split
    · exact .bind_note_synced (.pure rfl)
    · split
      · exact .bind_note_synced (.pure rfl)
      · refine .bind_eq hparse fun found => ?_
        cases found with
        | ok set =>
          simp only
          split
          · exact .bind_note_synced (.pure rfl)
          · exact .pure rfl
        | error d => exact .bind_note_synced (.pure rfl)

/-- The sets of records are made with the same notes, whatever the state is. -/
theorem synced_objectSets (records : List Record) :
    Mirrors H (Synced R) Eq (objectSets records : Logged ε σ _)
      (objectSets records : Logged ε σ' _) := .filterMapM synced_objectSet? records

end Record

/-! ### Logical files -/

/-- The logical files differ in whether their pools keep instances from now on. -/
structure LogicalFile.Recached (f f' : LogicalFile) : Prop where
  /-- Nothing else is different. -/
  eq : f' = { f with pool := f'.pool }
  /-- The pools. -/
  pools : f.pool.Recached f'.pool
  /-- They were not asked for anything yet. -/
  settled : f.pool.Settled

namespace Segmentation

variable {H : LoadError → Prop} {σ α : Type}

/-- The segmentations differ in whether the pools keep instances. -/
def Recached (s s' : Segmentation) : Prop :=
  ∃ on, s' = { s with settings := { s.settings with cacheMetadata := on } }

/-- Turns that lead to the same. -/
inductive Turn.Recached : Turn → Turn → Prop where
  /-- Another turn. -/
  | again : Recached .again .again
  /-- The end. -/
  | finished : Recached .finished .finished
  /-- The same logical file, up to the setting of its pool. -/
  | file {f f' : LogicalFile} (files : f.Recached f') : Recached (.file f) (.file f')

/-! ### The steps of a turn -/

theorem synced_update {f : Segmentation → Segmentation}
    (h : ∀ s on, f { s with settings := { s.settings with cacheMetadata := on } } =
      { f s with settings := { (f s).settings with cacheMetadata := on } }) :
    Mirrors H (Synced Recached) Eq (update f) (update f) := by
  refine .modify ?_
  rintro ⟨s, notes⟩ ⟨_, notes'⟩ ⟨hnotes, on, rfl⟩
  exact ⟨hnotes, on, h s on⟩

/-- The end of the segmentation. -/
theorem synced_done : Mirrors H (Synced Recached) Eq (update ({ · with done := true }))
    (update ({ · with done := true })) := synced_update fun _ _ => rfl

/-- A stream or a track has nothing to do with the settings. -/
theorem synced_apart {ε : Type} (wrap : ε → LoadError) (s : σ) (x : Logged ε σ α) :
    Mirrors (fun _ => False) (Synced Recached) Eq
      (EStateM.adaptExcept wrap (Logged.apart s x) : Segmenting (α × σ))
      (EStateM.adaptExcept wrap (Logged.apart s x)) :=
  .adaptExcept (H := fun _ => False)
    (.mono (.apart_self (Q := fun _ _ => True) fun _ => .trivial _) fun _ _ h => h.1) fun _ => id

theorem synced_aside (s : σ) (x : Logged FormatError σ α) :
    Mirrors (fun _ => False) (Synced Recached) Eq (aside s x) (aside s x) := synced_apart .format s x

theorem synced_accept {ε : Type} (wrap : ε → LoadError) (r : Except ε α) :
    Mirrors H (Synced Recached) Eq (accept wrap r) (accept wrap r) := by
  cases r with
  | ok a => exact .pure rfl
  | error e => exact .throw _

theorem synced_openTrack : Mirrors H (Synced Recached) Eq openTrack openTrack := by
  refine .bind_state_synced ?_
  rintro s _ ⟨on, rfl⟩
  refine .bind_eq (synced_update fun _ _ => rfl) fun _ => ?_
  exact .bind_eq (synced_accept _ _) fun r => synced_accept _ _

theorem synced_ahead (t : Track) :
    Mirrors (fun _ => False) (Synced Recached) Eq (ahead t) (ahead t) := synced_aside _ _

theorem synced_stopAt (stop : Stop) (t : Track) :
    Mirrors H (Synced Recached) Turn.Recached (stopAt stop t) (stopAt stop t) := by
  refine .bind_eq (synced_update fun _ _ => rfl) fun _ => ?_
  cases stop with
  | fileMark => exact .pure .again
  | mediumEnd => exact .bind_eq synced_done fun _ => .pure .finished

theorem synced_readLabel (t : Track) :
    Mirrors (fun _ => False) (Synced Recached) Eq (readLabel t) (readLabel t) := by
  refine .bind_state_synced ?_
  rintro s _ ⟨on, rfl⟩
  refine .bind_eq (synced_aside _ _) ?_
  rintro ⟨probe, u⟩
  cases probe with
  | found label =>
    simp only
    split
    · exact .bind_note_synced (.bind_note_synced
        (.bind_eq (synced_update fun _ _ => rfl) fun _ => .pure rfl))
    · exact .bind_note_synced (.bind_eq (synced_update fun _ _ => rfl) fun _ => .pure rfl)
  | cut available => exact .bind_note_synced (.pure rfl)
  | missing =>
    simp only
    split
    · exact .bind_note_synced (.pure rfl)
    · exact .pure rfl

theorem synced_search (limit : Nat) (t : Track) :
    Mirrors (fun _ => False) (Synced Recached) Eq (search limit t) (search limit t) :=
  synced_apart .ofSearch t _

theorem synced_locate (t : Track) :
    Mirrors (fun _ => False) (Synced Recached) Eq (locate t) (locate t) := by
  refine .bind_state_synced ?_
  rintro s _ ⟨on, rfl⟩
  refine .bind_eq (.attempt (synced_search _ _) fun _ => id) fun found => ?_
  -- only the failure to find a visible record is handled
  split
  · exact .pure rfl
  · simp only
    split
    · exact .throw_bind _
    · exact .bind_note_synced (.bind_eq (synced_update fun _ _ => rfl) fun _ => .pure rfl)
  · exact .throw _

theorem synced_indexRecords (stream : LogicalStream) :
    Mirrors (fun _ => False) (Synced Recached) Eq (indexRecords stream) (indexRecords stream) := by
  refine .bind_eq (synced_aside _ _) ?_
  rintro ⟨index, u⟩
  refine .bind_eq (synced_update fun _ _ => rfl) fun _ => ?_
  -- either reason to stop changes the segmentation, and not what is returned
  simp only
  split
  · refine .bind_note_synced (.bind_eq synced_done fun _ => ?_)
    split
    · exact .bind_note_synced (.bind_eq synced_done fun _ => .pure rfl)
    · exact .pure rfl
  · split
    · exact .bind_note_synced (.bind_eq synced_done fun _ => .pure rfl)
    · exact .pure rfl

/-- **Links are the same**, and lead to instances that are kept. -/
theorem synced_linkOnLoad {f f' : LogicalFile} (h : f.Recached f') :
    Mirrors (fun _ => False) (Synced Recached) LogicalFile.Recached (linkOnLoad f)
      (linkOnLoad f') := by
  refine .bind_state_synced ?_
  rintro s _ ⟨on, rfl⟩
  simp only
  split
  · refine .bind (.apart_synced (S := fun g g' => g' = { g with pool := g'.pool } ∧
        g.pool.Recached g'.pool) (V := Eq) (Q := fun _ g => g.pool.Settled)
      (.within_synced Pool.synced_link ?_ ?_) ⟨h.eq, h.pools⟩ fun notes => ?_) ?_
    · exact fun _ _ hg => hg.2
    · rintro g _ p p' ⟨hg, -⟩ hp
      exact ⟨by rw [hg], hp⟩
    · rw [LogicalFile.onPool, ends_within]
      exact h.settled.ends_link
    · rintro ⟨r, g⟩ ⟨r', g'⟩ ⟨-, ⟨hg, hpools⟩, hsettled⟩
      exact .pure ⟨hg, hpools, hsettled⟩
  · exact .pure h

/-- **The same logical file is loaded.** -/
theorem synced_loadFile (index : RecordIndex) (stream : LogicalStream) :
    Mirrors (fun _ => False) (Synced Recached) LogicalFile.Recached (loadFile index stream)
      (loadFile index stream) := by
  refine .bind_eq (synced_aside _ _) ?_
  rintro ⟨records, u⟩
  refine .bind_eq (Record.synced_objectSets records) fun sets => ?_
  refine .bind_eq (synced_aside _ _) ?_
  rintro ⟨frames, v⟩
  refine .bind_state_synced ?_
  rintro s _ ⟨on, rfl⟩
  refine .bind (.apart_self
    (Q := fun _ pool => ∀ on, pool.setCaching on = { pool with caching := on } ∧
      Pool.Settled { pool with caching := on })
    (Pool.ends_addSets_settled s.registry sets)) ?_
  rintro ⟨_, pool⟩ _ ⟨rfl, hpool⟩
  simp only [(hpool _).1]
  refine .bind (synced_linkOnLoad ⟨rfl, ⟨on, rfl⟩, (hpool _).2⟩) fun f f' hf => ?_
  refine .bind_eq (synced_update fun _ _ => rfl) fun _ => ?_
  have hplace : f'.place = f.place := by
    rw [hf.eq]
    rfl
  rw [hplace]
  exact .bind_note_synced (.pure hf)

/-! ### Turns and calls -/

/-- **A turn leads to the same.** -/
theorem synced_turn : Mirrors (fun _ => False) (Synced Recached) Turn.Recached turn turn := by
  refine .bind_eq synced_openTrack fun t => .bind_eq (synced_ahead t) ?_
  rintro ⟨ahead₁, u⟩
  cases ahead₁ with
  | stop stop =>
    simp only
    split
    · exact .bind_note_synced (synced_stopAt stop u)
    · exact synced_stopAt stop u
  | byte b =>
    refine .bind_eq (synced_readLabel u) fun v => .bind_eq (synced_ahead v) ?_
    rintro ⟨ahead₂, w⟩
    cases ahead₂ with
    | stop stop => exact synced_stopAt stop w
    | byte b =>
      refine .bind_eq (synced_locate w) fun found => ?_
      cases found with
      | none => exact .pure .finished
      | some p =>
        obtain ⟨origin, q⟩ := p
        refine .bind_eq (synced_accept _ _) fun s => .bind_eq (synced_indexRecords s) ?_
        rintro ⟨index, s₁⟩
        simp only
        split
        · exact .bind_note_synced (.pure .again)
        · exact .bind (synced_loadFile index s₁) fun f f' hf => .pure (.file hf)

theorem synced_turns (most : Nat) :
    Mirrors (fun _ => False) (Synced Recached) (Option.Rel LogicalFile.Recached) (turns most)
      (turns most) := by
  induction most with
  | zero => exact .pure .none
  | succ most ih =>
    unfold turns
    refine .bind_state_synced ?_
    rintro s _ ⟨on, rfl⟩
    simp only
    split
    · exact .pure .none
    · refine .bind synced_turn fun outcome outcome' h => ?_
      cases h with
      | again => exact ih
      | finished => exact .pure .none
      | file hf => exact .pure (.some hf)

theorem synced_nextFile :
    Mirrors (fun _ => False) (Synced Recached) (Option.Rel LogicalFile.Recached) nextFile
      nextFile := by
  refine .bind_state_synced ?_
  rintro s _ ⟨on, rfl⟩
  refine .attempt_bind (synced_turns _) ?_ ?_ ?_
  · intro found found' hfound
    exact .pure hfound
  · intro e
    exact .bind_eq synced_done fun _ => .throw e
  · exact fun _ _ => False.elim

theorem synced_files (most : Nat) :
    Mirrors (fun _ => False) (Synced Recached) (List.Forall₂ LogicalFile.Recached) (files most)
      (files most) := by
  induction most with
  | zero => exact .pure .nil
  | succ most ih =>
    refine .bind synced_nextFile fun found found' h => ?_
    cases h with
    | none => exact .pure .nil
    | some hf => exact .bind ih fun fs fs' hfs => .pure (.cons hf hfs)

/-- **Loading a physical file** leads to the same logical files, up to the setting of their pools, or
to the same failure. -/
theorem synced_load (source : Source) (settings : LoadSettings) (on : Bool) (registry : Registry) :
    Mirrors (fun _ => False) (Synced Eq) (List.Forall₂ LogicalFile.Recached)
      (load source settings registry)
      (load source { settings with cacheMetadata := on } registry) := by
  have hstart : Mirrors (fun _ => False) (Synced Eq) Recached (start source settings registry)
      (start source { settings with cacheMetadata := on } registry) := by
    unfold start
    cases source.reader 0 with
    | error e => exact .throw _
    | ok r =>
      simp only
      cases TapeMark.detect r with
      | error e q => exact .throw _
      | ok mark q => exact .bind_note_synced (.pure ⟨on, rfl⟩)
  refine .bind hstart fun s s' hs => ?_
  refine .bind (.apart_synced (Q := fun _ _ => True) (synced_files _) hs fun _ => .trivial _) ?_
  rintro ⟨fs, _⟩ ⟨fs', _⟩ ⟨hfs, -⟩
  exact .pure hfs

end Segmentation

end WellLog
