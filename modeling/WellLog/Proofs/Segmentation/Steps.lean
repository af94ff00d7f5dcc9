import WellLog.Proofs.Journal
import WellLog.Proofs.Record.Progress
import WellLog.Proofs.Track.Probe
import WellLog.Segmentation
/-!
# The steps of a turn

A turn opens the file at the place where the turn before left off, looks whether a file mark or a
label comes first, finds the first visible record, and scans and reads the records.  Here every one
of these steps is described by what the track delivers.

* `Segmentation.ends_openTrack`, `Segmentation.ends_ahead`, `Segmentation.ends_readLabel`,
  `Segmentation.ends_locate` : what is found in front of a logical file.  The search for the first
  visible record fails where there can be no memory for its window
  (`Segmentation.ends_locate_of_not_fits`).
* `Segmentation.ends_indexRecords` : **the next turn takes up behind the place where the logical
  file begins**.
* `Segmentation.ends_loadFile` : **the objects of a logical file are those of its records**, whatever
  was read before.
* `Segmentation.turn_eq` : a turn by its stages, each of which ends the turn from one of the steps
  on.
-/

namespace WellLog

/-- The label that is in force behind the bytes of a track. -/
def StorageLabel.latest (old : Option StorageLabel) (bytes : List UInt8) : Option StorageLabel :=
  match probe bytes with
  | .found label => some label
  | _ => old

/-- The pool of the objects that the records of a logical file declare. -/
def LoadSettings.pool (settings : LoadSettings) (registry : Registry) (records : List Record) :
    Pool :=
  let sets := ((Record.objectSets records).outcome ()).1
  let pool := ((Pool.addSets sets).outcome (.empty registry)).2.setCaching settings.cacheMetadata
  if settings.linkOnLoad then (Pool.link.outcome pool).2 else pool

namespace Segmentation

variable {σ α : Type} {m : Medium} {framed : Bool} {F : Feed} {track : Track}
  {j : Journalled Segmentation}

theorem ends_aside {Q : α × σ → Journalled Segmentation → Prop}
    {E : LoadError → Journalled Segmentation → Prop} {s : σ} {x : Logged FormatError σ α} :
    Ends Q E (aside s x j) ↔
      Ends (fun a p => Q (a, p.state) ⟨j.state, p.notes⟩)
        (fun e p => E (.format e) ⟨j.state, p.notes⟩) (x ⟨s, j.notes⟩) :=
  ends_adaptExcept.trans ends_apart

theorem ends_search {Q : Place × Track → Journalled Segmentation → Prop}
    {E : LoadError → Journalled Segmentation → Prop} {limit : Nat} :
    Ends Q E (search limit track j) ↔
      Ends (fun p t => Q (p, t.state) ⟨j.state, t.notes⟩)
        (fun e t => E (.ofSearch e) ⟨j.state, t.notes⟩)
        (Track.locateVisible limit ⟨track, j.notes⟩) :=
  ends_adaptExcept.trans ends_apart

theorem ends_update {Q : Unit → Journalled Segmentation → Prop}
    {E : LoadError → Journalled Segmentation → Prop} {f : Segmentation → Segmentation} :
    Ends Q E (update f j) ↔ Q () ⟨f j.state, j.notes⟩ := Iff.rfl

/-- **A track is opened at the next place.** -/
theorem ends_openTrack (j : Journalled Segmentation) :
    Ends
      (fun t j' => j'.state = { j.state with openings := j.state.openings + 1 } ∧
        ∃ r F, j.state.source.reader j.state.openings = .ok r ∧
          r.medium.feedAt j.state.framed j.state.next = .ok F ∧
          t.Delivers r.medium j.state.framed F ∧
          ((j.state.framed = true → j.state.next.Held r.medium) →
            j.state.next.Reaches t.place))
      (fun e j' => j'.state = { j.state with openings := j.state.openings + 1 } ∧
        ((∃ x, j.state.source.reader j.state.openings = .error x ∧ e = .io x) ∨
          ∃ r x, j.state.source.reader j.state.openings = .ok r ∧
            r.medium.feedAt j.state.framed j.state.next = .error x ∧ e = .format x))
      (openTrack j) := by
  unfold openTrack
  rw [ends_bind, ends_state, ends_bind, ends_update, ends_bind]
  cases hreader : j.state.source.reader j.state.openings with
  | error x => exact ⟨rfl, .inl ⟨x, rfl, rfl⟩⟩
  | ok r =>
    have hopen := Track.openAt_eq r j.state.framed j.state.next
    rw [accept, ends_pure]
    cases hrun : Track.openAt r j.state.framed j.state.next with
    | error e =>
      rw [hrun] at hopen
      exact ⟨rfl, .inr ⟨r, e, rfl, hopen, rfl⟩⟩
    | ok t =>
      rw [hrun] at hopen
      obtain ⟨F, hF, ht, hreach⟩ := hopen
      exact ⟨rfl, r, F, rfl, hF, ht, hreach⟩

theorem ends_ahead (h : track.Delivers m framed F) :
    Ends
      (fun r j' => j'.state = j.state ∧ track.place.Reaches r.2.place ∧
        match r.1 with
        | .byte b => (∃ rest, F.bytes = b :: rest) ∧ r.2.Delivers m framed F
        | .stop stop => F = ⟨[], .stopped stop r.2.place⟩)
      (fun e j' => j'.state = j.state ∧ ∃ x, e = .format (.io x) ∧ F = ⟨[], .failed x⟩)
      (ahead track j) := by
  unfold ahead
  rw [ends_aside, ends_lift]
  refine h.ends_peek.mono ?_ ?_
  · rintro (b | stop) t ⟨hreach, ht, hfound⟩
    · exact ⟨rfl, hreach, hfound, ht⟩
    · exact ⟨rfl, hreach, hfound⟩
  · rintro e t ⟨x, rfl, hF⟩
    exact ⟨rfl, x, rfl, hF⟩

theorem ends_stopAt {Q : Turn → Journalled Segmentation → Prop}
    {E : LoadError → Journalled Segmentation → Prop} {stop : Stop} :
    Ends Q E (stopAt stop track j) ↔
      match stop with
      | .fileMark => Q .again ⟨{ j.state with next := track.place }, j.notes⟩
      | .mediumEnd => Q .finished ⟨{ j.state with next := track.place, done := true }, j.notes⟩ := by
  cases stop <;> rfl

/-- **The label in front is read**, if there is one. -/
theorem ends_readLabel (h : track.Delivers m framed F) (hb : F.bytes ≠ []) :
    Ends
      (fun t j' =>
        j'.state = { j.state with label := StorageLabel.latest j.state.label F.bytes } ∧
        track.place.Reaches t.place ∧
        t.Delivers m framed ⟨StorageLabel.behind F.bytes, F.ending⟩ ∧
        (F.bytes.length < StorageLabel.size → ∃ stop place, F.ending = .stopped stop place))
      (fun e j' => j'.state = j.state ∧
        ∃ x, e = .format (.io x) ∧ F.ending = .failed x ∧ F.bytes.length < StorageLabel.size)
      (readLabel track j) := by
  unfold readLabel
  rw [ends_bind, ends_state, ends_bind, ends_aside, ends_lift]
  refine (h.ends_findLabel hb).mono ?_ ?_
  · rintro probe t ⟨hreach, rfl, ht, hshort⟩
    cases hprobe : StorageLabel.probe F.bytes with
    | found label =>
      have hlatest : StorageLabel.latest j.state.label F.bytes = some label := by
        rw [StorageLabel.latest, hprobe]
      simp only
      split
      · exact ⟨by rw [hlatest], hreach, ht, hshort⟩
      · exact ⟨by rw [hlatest], hreach, ht, hshort⟩
    | cut available =>
      have hlatest : StorageLabel.latest j.state.label F.bytes = j.state.label := by
        rw [StorageLabel.latest, hprobe]
      exact ⟨by rw [hlatest], hreach, ht, hshort⟩
    | missing =>
      have hlatest : StorageLabel.latest j.state.label F.bytes = j.state.label := by
        rw [StorageLabel.latest, hprobe]
      simp only
      split
      · exact ⟨by rw [hlatest], hreach, ht, hshort⟩
      · exact ⟨by rw [hlatest], hreach, ht, hshort⟩
  · rintro e t ⟨x, rfl, hfail, hshort⟩
    exact ⟨rfl, x, rfl, hfail, hshort⟩

/-- **Without memory for the window the search fails**, and nothing is changed. -/
theorem ends_locate_of_not_fits (h : ¬ VisibleHeader.WindowFits j.state.settings.searchLimit) :
    Ends (fun _ _ => False) (fun e j' => e = .tooWide j.state.settings.searchLimit ∧ j' = j)
      (locate track j) := by
  unfold locate
  rw [ends_bind, ends_state, ends_bind, ends_attempt, ends_search, Track.locateVisible, ends_bind,
    ends_lift, Track.findVisible_of_not_fits h]
  exact ⟨rfl, rfl⟩

/-- **The first visible record is found.**  Behind the last logical file, none is the end. -/
theorem ends_locate (h : track.Delivers m framed F)
    (hfits : VisibleHeader.WindowFits j.state.settings.searchLimit) :
    Ends
      (fun r j' => match r with
        | some (p, t) => j'.state = j.state ∧ track.place.Reaches p ∧
          t.reader.medium = m ∧ t.isFramed = framed ∧
          ∃ i, headerIn (VisibleHeader.window j.state.settings.searchLimit) F.bytes = some i ∧
            m.feedAt framed p = .ok ⟨F.bytes.drop i, F.ending⟩
        | none => j'.state = { j.state with next := track.place, done := true } ∧
          headerIn (VisibleHeader.window j.state.settings.searchLimit) F.bytes = none ∧
          j.state.emitted ≠ 0 ∧
          ∃ n, missed j.state.settings.searchLimit track.tell F =
            .defect (.noVisibleRecord track.tell n))
      (fun e j' => j'.state = j.state ∧
        headerIn (VisibleHeader.window j.state.settings.searchLimit) F.bytes = none ∧
        e = .format (missed j.state.settings.searchLimit track.tell F) ∧
        (j.state.emitted = 0 ∨ ∃ x, missed j.state.settings.searchLimit track.tell F = .io x))
      (locate track j) := by
  unfold locate
  rw [ends_bind, ends_state, ends_bind, ends_attempt, ends_search, Track.locateVisible, ends_bind,
    ends_lift, Track.ends_findVisible hfits]
  refine (h.ends_searchWindow _).mono ?_ ?_
  · rintro p t ⟨hreach, i, hi, -, hfeed, ht⟩
    exact ⟨rfl, hreach, ht.medium, ht.isFramed, i, hi, hfeed⟩
  · rintro e t ⟨hnone, rfl⟩
    obtain ⟨n, hmissed⟩ | ⟨x, hmissed⟩ := missed_eq j.state.settings.searchLimit track.tell F
    · simp only [LoadError.ofSearch, hmissed]
      by_cases hzero : j.state.emitted = 0
      · rw [if_pos hzero, ends_bind, ends_throw]
        exact ⟨rfl, hnone, rfl, .inl hzero⟩
      · rw [if_neg hzero]
        exact ⟨rfl, hnone, hzero, n, rfl⟩
    · simp only [LoadError.ofSearch, hmissed]
      exact ⟨rfl, hnone, rfl, .inr ⟨x, rfl⟩⟩

/-- A header within the window is found. -/
theorem ends_locate_of_headerIn {i : Nat} (h : track.Delivers m framed F)
    (hfits : VisibleHeader.WindowFits j.state.settings.searchLimit)
    (hi : headerIn (VisibleHeader.window j.state.settings.searchLimit) F.bytes = some i) :
    Ends
      (fun r j' => j'.state = j.state ∧ ∃ p t, r = some (p, t) ∧ t.reader.medium = m ∧
        t.isFramed = framed ∧ m.feedAt framed p = .ok ⟨F.bytes.drop i, F.ending⟩)
      (fun _ _ => False) (locate track j) := by
  refine (ends_locate h hfits).mono ?_ ?_
  · intro r j' hr
    match r with
    | some (p, t) =>
      obtain ⟨hstate, -, hm, hf, i', hi', hp⟩ := hr
      cases hi.symm.trans hi'
      exact ⟨hstate, p, t, rfl, hm, hf, hp⟩
    | none => cases hi.symm.trans hr.2.1
  · rintro e j' ⟨-, hnone, -⟩
    cases hi.symm.trans hnone

/-- Without one there is an end behind a logical file, unless the medium fails. -/
theorem ends_locate_of_none (h : track.Delivers m framed F)
    (hfits : VisibleHeader.WindowFits j.state.settings.searchLimit)
    (hnone : headerIn (VisibleHeader.window j.state.settings.searchLimit) F.bytes = none) :
    Ends
      (fun r j' => r = none ∧ j'.state = { j.state with next := track.place, done := true } ∧
        j.state.emitted ≠ 0 ∧ ∃ n, missed j.state.settings.searchLimit track.tell F =
          .defect (.noVisibleRecord track.tell n))
      (fun e j' => j'.state = j.state ∧
        e = .format (missed j.state.settings.searchLimit track.tell F) ∧
        (j.state.emitted = 0 ∨ ∃ x, missed j.state.settings.searchLimit track.tell F = .io x))
      (locate track j) := by
  refine (ends_locate h hfits).mono ?_ fun e j' he => ⟨he.1, he.2.2⟩
  intro r j' hr
  match r with
  | some (p, t) =>
    obtain ⟨-, -, -, -, i, hi, -⟩ := hr
    cases hnone.symm.trans hi
  | none => exact ⟨rfl, hr.1, hr.2.2⟩

/-- **The next turn takes up behind the place where the logical file begins.** -/
theorem ends_indexRecords {stream : LogicalStream}
    {R : RecordIndex → Journalled LogicalStream → Prop}
    {E : FormatError → Journalled LogicalStream → Prop}
    (h : Ends (fun index p => stream.origin.Passes index.resume ∧ R index p) E
      (LogicalStream.findRecords ⟨stream, j.notes⟩)) :
    Ends
      (fun r j' => r.2.origin = stream.origin ∧ stream.origin.Passes r.1.resume ∧
        (∃ notes, R r.1 ⟨r.2, notes⟩) ∧
        j'.state = { j.state with
          next := r.1.resume
          done := j.state.done || r.1.isBroken })
      (fun e j' => j'.state = j.state ∧ ∃ x p, e = .format x ∧ E x p)
      (indexRecords stream j) := by
  unfold indexRecords
  rw [ends_bind, ends_aside]
  refine (h.and (LogicalStream.keeps_findRecords ⟨stream, j.notes⟩)).mono ?_ ?_
  · rintro index ⟨stream', notes⟩ ⟨⟨hpasses, hR⟩, horigin, -⟩
    replace horigin : stream'.origin = stream.origin := horigin
    have hno : ¬ index.resume.le stream'.origin = true := by
      rw [horigin, Bool.not_eq_true]
      exact hpasses
    simp only
    rw [ends_bind, ends_update, if_neg hno]
    cases hbroken : index.isBroken with
    | true =>
      rw [if_pos rfl]
      exact ⟨horigin, hpasses, ⟨notes, hR⟩, by simp [hbroken]⟩
    | false =>
      rw [if_neg (by decide)]
      exact ⟨horigin, hpasses, ⟨notes, hR⟩, by simp [hbroken]⟩
  · rintro e p ⟨hE, -⟩
    exact ⟨rfl, e, p, rfl, hE⟩

theorem ends_linkOnLoad (f : LogicalFile) (j : Journalled Segmentation) :
    Ends
      (fun f' j' => f' = { f with
          pool := if j.state.settings.linkOnLoad then (Pool.link.outcome f.pool).2 else f.pool } ∧
        j'.state = j.state)
      (fun _ _ => False) (linkOnLoad f j) := by
  unfold linkOnLoad
  rw [ends_bind, ends_state]
  split
  · rw [ends_bind, ends_apart, LogicalFile.onPool, ends_within]
    refine (Pool.concur_link.ends_outcome _).mono ?_ fun _ _ => False.elim
    rintro report p houtcome
    refine ⟨?_, rfl⟩
    rw [← houtcome]
  · exact ⟨rfl, rfl⟩

/-- **The logical file has the objects of its records**, and begins where its stream begins. -/
theorem ends_loadFile {index : RecordIndex} {stream : LogicalStream} {E : FormatError → Prop}
    {R : List Record → LogicalStream → Prop} {Q : List Record → FrameIndex → LogicalStream → Prop}
    (hrecords : Ends (fun records p => R records p.state) (fun e _ => E e)
      (LogicalStream.extractRecords index.explicits ⟨stream, j.notes⟩))
    (hframes : ∀ records (p : Journalled LogicalStream), R records p.state →
      Ends (fun frames p => Q records frames p.state) (fun e _ => E e)
        (LogicalStream.indexFrames index.implicits p)) :
    Ends
      (fun f j' => (∃ records, Q records f.frames f.stream ∧
          f.pool = j.state.settings.pool j.state.registry records) ∧
        f.label = j.state.label ∧ f.broken = index.isBroken ∧ f.place = stream.origin ∧
        j'.state = { j.state with emitted := j.state.emitted + 1 })
      (fun e j' => j'.state = j.state ∧ ∃ x, e = .format x ∧ E x)
      (loadFile index stream j) := by
  unfold loadFile
  rw [ends_bind, ends_aside]
  refine (hrecords.and (LogicalStream.keeps_extractRecords _ ⟨stream, j.notes⟩)).mono ?_
    fun e p h => ⟨rfl, e, rfl, h.1⟩
  rintro records ⟨stream₁, notes₁⟩ ⟨hR, horigin₁, -⟩
  replace horigin₁ : stream₁.origin = stream.origin := horigin₁
  simp only
  rw [ends_bind]
  refine (Concur.ends_outcome_of_any (fun _ => Record.concur_objectSets records) _).mono ?_
    fun _ _ => False.elim
  rintro sets ⟨s₂, notes₂⟩ ⟨hsets, rfl⟩
  rw [ends_bind, ends_aside]
  refine ((hframes records ⟨stream₁, notes₂⟩ hR).and
    (LogicalStream.keeps_indexFrames _ ⟨stream₁, notes₂⟩)).mono ?_ fun e p h => ⟨rfl, e, rfl, h.1⟩
  rintro frames ⟨stream₃, notes₃⟩ ⟨hQ, horigin₃, -⟩
  replace horigin₃ : stream₃.origin = stream₁.origin := horigin₃
  simp only
  rw [ends_bind, ends_state, ends_bind, ends_apart]
  refine ((Pool.concur_addSets sets).ends_outcome _).mono ?_ fun _ _ => False.elim
  rintro a ⟨pool, notes₄⟩ hpool
  simp only
  rw [ends_bind]
  refine (ends_linkOnLoad _ _).mono ?_ fun _ _ => False.elim
  rintro file ⟨s₅, notes₅⟩ ⟨rfl, rfl⟩
  rw [ends_bind, ends_update, ends_bind, ends_note, ends_pure]
  refine ⟨⟨records, hQ, ?_⟩, rfl, rfl, horigin₃.trans horigin₁, rfl⟩
  simp only [LoadSettings.pool, ← hsets, ← hpool]

/-! ### The stages of a turn -/

/-- The end of a turn, from the first visible record on. -/
def indexAndLoad (stream : LogicalStream) : Segmenting Turn := do
  let (index, stream') ← indexRecords stream
  if index.isEmpty then
    Logged.note .debug s!"Empty logical file at offset {stream.origin.offset}, skipping"
    return .again
  else return .file (← loadFile index stream')

/-- The end of a turn, from the search for the first visible record on. -/
def locateAndLoad (track : Track) : Segmenting Turn := do
  match ← locate track with
  | none => return .finished
  | some (origin, track) => indexAndLoad (← accept .format (LogicalStream.openAt track origin))

/-- The end of a turn, from the storage unit label on. -/
def labelAndLoad (track : Track) : Segmenting Turn := do
  match ← ahead (← readLabel track) with
  | (.stop stop, track) => stopAt stop track
  | (.byte _, track) => locateAndLoad track

/-- A turn by its stages.  The stream of the last one begins where the visible record was found. -/
theorem turn_eq : turn = (do
    match ← ahead (← openTrack) with
    | (.stop stop, track) =>
      if stop = .fileMark then
        Logged.note .debug s!"File mark before offset {track.place.offset}, skipping"
      stopAt stop track
    | (.byte _, track) => labelAndLoad track) := by
  unfold turn labelAndLoad locateAndLoad
  refine bind_congr fun track => bind_congr fun found => ?_
  match found with
  | (.stop stop, track) => rfl
  | (.byte b, track) =>
    refine bind_congr fun track => bind_congr fun found => ?_
    match found with
    | (.stop stop, track) => rfl
    | (.byte b, track) =>
      refine bind_congr fun found => ?_
      match found with
      | none => rfl
      | some (origin, track) =>
        funext j
        refine bind_eq_of_ends ?_
        cases hopen : LogicalStream.openAt track origin with
        | error e => exact trivial
        | ok stream =>
          obtain rfl := LogicalStream.origin_of_openAt hopen
          rfl

end Segmentation

end WellLog
