import WellLog.Proofs.Record.Frames
import WellLog.Proofs.Segmentation.Damage
import WellLog.Proofs.Segmentation.Progress
/-!
# The samples of logical files

A logical file is loaded by reads that take damage for what it is: a record that cannot be read is
left out.  The sample records of a frame are read later, from the same stream, and by then a record
that cannot be read would be a failure.  None is: the index has only offsets at which a record was
read, and reading it again gives the same record.

* `LogicalFile.Serves` : the sample records of every frame can be read, in any order of the calls.
* `Segmentation.ends_turn_indexed` : a turn that loads a logical file has indexed what the scan found.
* `Segmentation.samples_grouped` : **indexes group the readable samples, and logical files serve
  them**.
-/

namespace WellLog

namespace LogicalFile

/-- The logical file has the samples that a scan of an image without faults has found. -/
structure Indexed (image : Array UInt8) (framed : Bool) (f : LogicalFile) (O : Origin)
    (s : LogicalStream) (index : RecordIndex) : Prop where
  /-- The image. -/
  image : O.medium.bytes = image
  /-- No read fails. -/
  faultless : O.medium.manner.fault = none
  /-- The framing. -/
  isFramed : O.framed = framed
  /-- A visible record begins the file. -/
  opens : O.feed.Opens
  /-- The stream that was scanned is in front of it. -/
  position : s.At O.medium O.framed O.feed 0
  /-- So is the file. -/
  place : f.place = s.origin
  /-- The scan. -/
  scan : ∃ notes k, LogicalStream.findRecords ⟨s, notes⟩ = .ok index k
  /-- The samples. -/
  frames : f.frames = .ofList (index.implicits.filterMap fun k => (s.sampled k).map (·, k))
  /-- The stream of the file can be read from anywhere. -/
  stream : f.stream.Anchored O.medium O.framed O.feed

/-- The logical file serves the samples of its frames.  However the image is read, a stream that is
opened at the place of the file finds some records there.  The file has the implicit ones by frames,
and the calls for any frames one after the other return the records at the offsets of the frame. -/
def Serves (image : Array UInt8) (framed : Bool) (f : LogicalFile) : Prop :=
  ∀ t : Track, t.reader.medium.bytes = image → t.reader.medium.manner.fault = none →
    t.isFramed = framed → ∃ s index j, LogicalStream.openAt t f.place = .ok s ∧
      LogicalStream.findRecords ⟨s, #[]⟩ = .ok index j ∧ f.frames.Groups s index.implicits ∧
      ∀ frames notes, Ends
        (fun found _ => List.Forall₂ (fun frame records => records.map some =
          (index.implicits.filter fun k => s.HasSamples frame k).map s.recordAt) frames found)
        (fun _ _ => False) (frames.mapM frameRecords ⟨f, notes⟩)

variable {image : Array UInt8} {framed : Bool} {f : LogicalFile} {O O' : Origin}
  {s s' : LogicalStream} {index : RecordIndex}

/-- **The sample records of a frame are read**, whatever was read before. -/
theorem ends_frameRecords {j : Journalled LogicalFile} (hF : O.feed.Alike O'.feed)
    (hopens : O.feed.Opens) (htied : LogicalStream.Tied O O' s j.state.stream) {offsets : List Nat}
    (hgroups : j.state.frames.Groups s offsets) (frame : Fingerprint) :
    Ends
      (fun records j' => LogicalStream.Tied O O' s j'.state.stream ∧
        j'.state.frames = j.state.frames ∧
        records.map some = (offsets.filter fun k => s.HasSamples frame k).map s.recordAt)
      (fun _ _ => False) (frameRecords frame j) := by
  have hreadable : ∀ k ∈ j.state.frames.offsets frame, (s.recordAt k).isSome := by
    intro k hk
    rw [hgroups.offsets_eq, List.mem_filter, decide_eq_true_iff] at hk
    obtain ⟨-, record, hrecord, -⟩ := hk
    exact Option.isSome_of_eq_some hrecord
  unfold frameRecords onStream
  rw [ends_bind, ends_state, ends_adaptExcept, ends_within]
  refine (LogicalStream.Tied.ends_readRecords (j := ⟨j.state.stream, j.notes⟩) hF hopens htied
    hreadable).mono ?_ fun _ _ => id
  rintro records p ⟨hrecords, htied'⟩
  rw [hgroups.offsets_eq] at hrecords
  exact ⟨htied', rfl, hrecords⟩

/-- A logical file with the samples that a scan has found serves them. -/
theorem Indexed.serves (h : f.Indexed image framed O s index) : f.Serves image framed := by
  intro t himage hfault hframed
  set O' : Origin := ⟨t.reader.medium, O.framed, O.feed⟩
  have hfeed : O'.medium.feedAt O.framed f.place = .ok O.feed := by
    rw [h.place, Medium.feedAt_of_faultless hfault, himage, ← h.image,
      ← Medium.feedAt_of_faultless h.faultless]
    exact h.position.origin
  obtain ⟨s', hopen, hat, -⟩ := LogicalStream.openAt_at rfl (hframed.trans h.isFramed.symm) hfeed
  -- the scan of the one stream finds what the scan of the other has found
  obtain ⟨notes, k, hscan⟩ := h.scan
  have halike : O.feed.Alike O'.feed := .refl _
  have htwins : LogicalStream.Twins O O' 0 (Journalled.mk s notes).state
      (Journalled.mk s' #[]).state := ⟨h.position, hat⟩
  have hscan' : Ends (fun index' _ => index'.implicits = index.implicits) (fun _ _ => False)
      (LogicalStream.findRecords ⟨s', #[]⟩) := by
    refine (htwins.agree_findRecords halike).ends_right.mono ?_ ?_
    · rintro index' j ⟨_, _, hrun, hsame, -⟩
      rw [hscan] at hrun
      cases hrun
      exact hsame.implicits
    · rintro e j ⟨_, _, hrun, -⟩
      rw [hscan] at hrun
      cases hrun
  obtain ⟨index', j, hrun, himplicits⟩ := hscan'.exists_ok
  have hgroups : f.frames.Groups s' index'.implicits := by
    rw [h.frames, himplicits, ← htwins.tied.sampled_eq halike h.opens]
    exact FrameIndex.groups_ofList
  refine ⟨s', index', j, hopen, hrun, hgroups, fun frames notes => ?_⟩
  have hcalls := ends_mapM (l := frames) (f := frameRecords) (s := ⟨f, notes⟩)
    (I := fun j => LogicalStream.Tied O' O s' j.state.stream ∧ j.state.frames = f.frames)
    (R := fun frame records _ => records.map some =
      (index'.implicits.filter fun k => s'.HasSamples frame k).map s'.recordAt)
    (E := fun _ _ => False) ?_ ⟨⟨hat.toAnchored, h.stream⟩, rfl⟩
  · exact hcalls.mono (fun found _ hfound => hfound.2.1) fun _ _ => id
  · rintro frame - j ⟨htied, hframes⟩
    have halike' : O'.feed.Alike O.feed := .refl _
    refine (ends_frameRecords halike' h.opens htied (hframes ▸ hgroups) frame).mono ?_
      fun _ _ => id
    rintro records j' ⟨htied', hframes', hrecords⟩
    exact ⟨⟨htied', hframes'.trans hframes⟩, hrecords, fun _ _ => id⟩

end LogicalFile

namespace Segmentation

variable {m : Medium} {F : Feed} {j : Journalled Segmentation} {s : Segmentation}

/-- What a turn that has found a visible record loads is what the scan from there has found. -/
theorem ends_indexAndLoad_indexed {framed : Bool} {stream : LogicalStream} {image : Array UInt8}
    (hfault : m.manner.fault = none) (himage : m.bytes = image)
    (hfresh : stream.Fresh m framed F) :
    Ends (fun r _ => ∀ f, r = .file f → ∃ index, f.Indexed image framed ⟨m, framed, F⟩ stream index)
      (fun _ _ => True) (indexAndLoad stream j) := by
  obtain ⟨index, k, hrun, -, -, -, -, hk⟩ :=
    (hfresh.position.ends_findRecords_tiled hfault j.notes).exists_ok
  have hpasses := hfresh.scan j.notes
  rw [hrun, ends_ok] at hpasses
  have hindex : Ends (fun found p => stream.origin.Passes found.resume ∧ found = index ∧ p = k)
      (fun _ _ => False) (LogicalStream.findRecords ⟨stream, j.notes⟩) := by
    rw [hrun]
    exact ⟨hpasses.1, rfl, rfl⟩
  set O : Origin := ⟨m, framed, F⟩
  unfold indexAndLoad
  rw [ends_bind]
  refine (ends_indexRecords hindex).mono ?_ fun _ _ _ => trivial
  rintro ⟨found, stream'⟩ j₁ ⟨horigin, -, ⟨notes, rfl, rfl⟩, -⟩
  simp only
  split
  · rw [ends_bind, ends_note, ends_pure]
    exact fun f hf => by cases hf
  · rw [ends_bind]
    have hframes : ∀ (records : List Record) (p : Journalled LogicalStream),
        p.state.Anchored m framed F →
        Ends
          (fun frames p => frames = .ofList
            (found.implicits.filterMap fun k => (stream.sampled k).map (·, k)) ∧
            p.state.Anchored m framed F)
          (fun _ _ => True) (LogicalStream.indexFrames found.implicits p) := by
      intro records p hp
      have htied : LogicalStream.Tied O O stream p.state := ⟨hfresh.position.toAnchored, hp⟩
      refine (htied.ends_indexFrames (.refl _) hfresh.opens hfault _).mono ?_ fun _ _ _ => trivial
      exact fun frames p ⟨hframes, htied'⟩ => ⟨hframes, htied'.right⟩
    refine (ends_loadFile (R := fun _ t => t.Anchored m framed F) (Q := fun _ frames t => frames =
      .ofList (found.implicits.filterMap fun k => (stream.sampled k).map (·, k)) ∧
        t.Anchored m framed F) (E := fun _ => True)
      ((LogicalStream.Anchored.ends_extractRecords hfault (j := ⟨stream', j₁.notes⟩) hk hfresh.opens
        _).mono (fun _ _ => id) fun _ _ => False.elim) hframes).mono ?_ fun _ _ _ => trivial
    rintro f j₂ ⟨⟨records, ⟨hfound, hanchored⟩, -⟩, -, -, hplace, -⟩
    rw [ends_pure]
    rintro _ ⟨⟩
    exact ⟨found, himage, hfault, rfl, hfresh.opens, hfresh.position, hplace.trans horigin,
      ⟨_, _, hrun⟩, hfound, hanchored⟩

/-- **A turn that loads a logical file** has indexed what the scan found. -/
theorem ends_turn_indexed (hsource : j.state.source.Faultless) (h : j.state.Ready)
    (hdone : j.state.done = false) :
    Ends
      (fun r _ => ∀ f, r = .file f →
        ∃ O stream index, f.Indexed j.state.source.image j.state.framed O stream index)
      (fun _ _ => True) (turn j) := by
  refine Covers.ends_turn ⟨?_, ?_, ?_, ?_⟩ h hdone
  · exact fun _ _ _ _ => trivial
  · intro m F stop track label notes _ _ _ _
    rw [ends_stopAt]
    cases stop with
    | fileMark => exact fun f hf => by cases hf
    | mediumEnd => exact fun f hf => by cases hf
  · exact fun _ _ _ _ _ _ _ _ f hf => by cases hf
  · intro m F G stream label notes hsees _ _ hfresh
    refine (ends_indexAndLoad_indexed (hsees.of_faultless hsource).1 hsees.bytes hfresh).mono ?_
      fun _ _ _ => trivial
    exact fun r _ hr f hf => ⟨_, _, hr f hf⟩

/-- What every turn gives a logical file, the calls give it. -/
theorem of_result {P : LogicalFile → Prop}
    (hturn : ∀ k : Journalled Segmentation, j.state.Follows k.state → k.state.Ready →
      k.state.done = false → Ends (fun r _ => ∀ f, r = .file f → P f) (fun _ _ => True) (turn k))
    (h : j.state.Ready) {n : Nat} {f : LogicalFile} (hf : result j n = .ok (some f)) : P f := by
  have hturns : ∀ most (k : Journalled Segmentation), j.state.Follows k.state → k.state.Ready →
      Ends (fun found _ => ∀ f, found = some f → P f) (fun _ _ => True) (turns most k) := by
    intro most
    induction most with
    | zero => exact fun k _ _ f hf => by cases hf
    | succ most ih =>
      intro k hk hready
      rw [turns, bind_state]
      cases hdone : k.state.done with
      | true => exact fun f hf => by cases hf
      | false =>
        rw [if_neg (by decide), ends_bind]
        refine ((hturn k hk hready hdone).and (ends_turn hready hdone)).mono ?_ fun _ _ _ => trivial
        rintro r k' ⟨hfile, hfollows, hready', -⟩
        cases r with
        | again => exact ih k' (hk.trans hfollows) hready'
        | finished => exact fun f hf => by cases hf
        | file f =>
          rintro _ ⟨⟩
          exact hfile f rfl
  have hcall := call_of_ends (E := fun _ _ => True) (ends_nextFile
    ((hturns _ _ (follows_after h (Nat.zero_le n)) (ready_after h n)).mono (fun _ _ => id)
      fun _ _ _ => trivial))
  rw [result] at hf
  cases hrun : call (after j n) with
  | mk outcome k =>
    rw [hrun] at hcall hf
    cases hf
    exact hcall f rfl

/-- **Indexes group the readable samples, and logical files serve them.**  On a medium without faults,
a stream that is opened at a visible record can be asked for the samples at any offsets, whatever was
read from it before.  Every frame gets those of its offsets, in the order given, at which its samples
can be read on the stream as it was opened.  Every logical file of a source without faults serves the
samples of its frames. -/
theorem samples_grouped :
    (∀ (t : Track) (p : Place) (F : Feed), t.reader.medium.manner.fault = none →
      t.reader.medium.feedAt t.isFramed p = .ok F → F.Opens →
      ∃ s, LogicalStream.openAt t p = .ok s ∧ ∀ notes earlier, ∃ outcomes j,
        LogicalStream.readAttempts earlier ⟨s, notes⟩ = .ok outcomes j ∧
        ∀ offsets, ∃ index j', LogicalStream.indexFrames offsets j = .ok index j' ∧
          index.Groups s offsets) ∧
    ∀ (source : Source) (settings : LoadSettings) (registry : Registry) (j : Journalled Unit),
      source.Faultless →
      Ends (fun s k => ∀ n f, result ⟨s, k.notes⟩ n = .ok (some f) →
          f.Serves source.image s.framed)
        (fun _ _ => False) (start source settings registry j) := by
  constructor
  · intro t p F hfault hfeed hopens
    obtain ⟨s, hopen, hat, -⟩ := LogicalStream.openAt_at rfl rfl hfeed
    set O : Origin := ⟨t.reader.medium, t.isFramed, F⟩
    refine ⟨s, hopen, fun notes earlier => ?_⟩
    obtain ⟨outcomes, j, hearlier, hj⟩ := (LogicalStream.Anchored.ends_readAttempts
      (j := ⟨s, notes⟩) hat.toAnchored hopens earlier).exists_ok
    refine ⟨outcomes, j, hearlier, fun offsets => ?_⟩
    have htied : LogicalStream.Tied O O s j.state := ⟨hat.toAnchored, hj⟩
    obtain ⟨index, j', hrun, rfl, -⟩ :=
      (htied.ends_indexFrames (.refl _) hopens hfault offsets).exists_ok
    exact ⟨_, j', hrun, FrameIndex.groups_ofList⟩
  · intro source settings registry j hsource
    obtain ⟨manner, hmanner, hfault⟩ := hsource 0
    obtain ⟨s, k, hstart, hs, -⟩ :=
      (ends_start_of_manner hmanner hfault settings registry j).exists_ok
    rw [hstart]
    intro n f hf
    have hready : s.Ready := by
      rw [hs]
      exact fun _ _ => .inl rfl
    have himage : s.source = source := by rw [hs]
    have hturn : ∀ j : Journalled Segmentation, s.Follows j.state → j.state.Ready →
        j.state.done = false →
        Ends
          (fun r _ => ∀ f, r = .file f →
            ∃ O stream index, f.Indexed source.image s.framed O stream index)
          (fun _ _ => True) (turn j) := by
      intro j hfollows hj hdone
      have hkeeps : j.state.source = source := hfollows.source.trans himage
      have hindexed := ends_turn_indexed (hkeeps ▸ hsource) hj hdone
      rwa [hkeeps, hfollows.framed] at hindexed
    obtain ⟨O, stream, index, hindexed⟩ := of_result (j := ⟨s, k.notes⟩) hturn hready hf
    exact hindexed.serves

/-- A visible record with the header of a logical file, samples of two frames, an implicit record of
another type, and samples of the first frame again. -/
def twoFrames : List UInt8 :=
  [0, 84, 0xFF, 1] ++ [0, 16, 0x80, 0] ++ List.replicate 12 0 ++
    [0, 16, 0, 0] ++ [1, 0, 1, 0x46] ++ List.replicate 8 7 ++
    [0, 16, 0, 0] ++ [1, 0, 1, 0x47] ++ List.replicate 8 8 ++
    [0, 16, 0, 127] ++ List.replicate 12 0 ++
    [0, 16, 0, 0] ++ [1, 0, 1, 0x46] ++ List.replicate 8 9

/-- These bytes in memory. -/
def twoFramesMedium : Medium := .ofBytes twoFrames.toArray

theorem samples_grouped_twoFrames :
    (∃ s, LogicalStream.openAt ⟨.ofMedium twoFramesMedium, .plain 0, none⟩ (.start 0) = .ok s ∧
      ∀ notes earlier, ∃ outcomes j,
        LogicalStream.readAttempts earlier ⟨s, notes⟩ = .ok outcomes j ∧
        ∀ offsets, ∃ index j', LogicalStream.indexFrames offsets j = .ok index j' ∧
          index.Groups s offsets) ∧
    Ends
      (fun s k => (∃ f, result ⟨s, k.notes⟩ 0 = .ok (some f) ∧
          f.frames = [(⟨"FRAME", "F", 1, 0⟩, [16, 64]), (⟨"FRAME", "G", 1, 0⟩, [32])]) ∧
        ∀ n f, result ⟨s, k.notes⟩ n = .ok (some f) → f.Serves twoFramesMedium.bytes s.framed)
      (fun _ _ => False) (start (.ofMedium twoFramesMedium) {} .empty ⟨(), #[]⟩) := by
  have hbytes : (twoFramesMedium.plainFeed 0).bytes = twoFrames := by
    rw [Medium.plainFeed_of_faultless rfl (Nat.zero_le _)]
    rfl
  have hopens : (twoFramesMedium.plainFeed 0).Opens :=
    ⟨⟨84, 0xFF, 1⟩, twoFrames.drop 4, 0, 84, 0xFF, 1, hbytes, rfl, by decide⟩
  have hfirst : Ends
      (fun s k => (result ⟨s, k.notes⟩ 0).map (·.map (·.frames)) =
        .ok (some [(⟨"FRAME", "F", 1, 0⟩, [16, 64]), (⟨"FRAME", "G", 1, 0⟩, [32])]))
      (fun _ _ => False) (start (.ofMedium twoFramesMedium) {} .empty ⟨(), #[]⟩) := by decide +kernel
  refine ⟨samples_grouped.1 ⟨.ofMedium twoFramesMedium, .plain 0, none⟩ (.start 0) _ rfl rfl
    hopens, ?_⟩
  have hserves := samples_grouped.2 (.ofMedium twoFramesMedium) {} .empty ⟨(), #[]⟩
    fun _ => ⟨.plain, rfl, rfl⟩
  refine (hfirst.and hserves).mono ?_ fun _ _ h => h.1
  rintro s k ⟨hframes, hall⟩
  refine ⟨?_, hall⟩
  cases hresult : result ⟨s, k.notes⟩ 0 with
  | error e =>
    rw [hresult] at hframes
    cases hframes
  | ok found =>
    rw [hresult] at hframes
    obtain ⟨f, rfl, hf⟩ := Option.map_eq_some_iff.1 (Except.ok.inj hframes)
    exact ⟨f, rfl, hf⟩

end Segmentation

end WellLog
