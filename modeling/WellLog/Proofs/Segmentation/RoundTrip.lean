import WellLog.Proofs.Segmentation.Progress
import WellLog.Proofs.Segmentation.Sections
/-!
# Physical files are read as they were written

A physical file is written as logical files with labels and file marks between them, in visible
records and, on a tape, in tape records that are cut anywhere.  Reading it call by call gives these
logical files, in their order, if there can be memory for the search for visible records.  A limit
that asks for more than that loses them all (`Segmentation.tooWide_bareMedium`).

* `Segmentation.ends_turn_of_files` : a turn in front of a logical file reads it.
* `Segmentation.results_of_written` : **the calls return the logical files that were written**, and
  then nothing.
-/

namespace WellLog

/-- The logical file that is read is the one that was written, with the label in front of it. -/
structure LogicalFile.ReadAs (settings : LoadSettings) (registry : Registry)
    (label : Option StorageLabel) (f : FileLayout) (file : LogicalFile) : Prop where
  /-- The label. -/
  label : file.label = label
  /-- The file is whole. -/
  broken : file.broken = false
  /-- The objects are those of its explicit records. -/
  pool : file.pool = settings.pool registry (RecordLayout.decoded true 0 f.records)
  /-- The samples are those of its implicit records. -/
  frames : file.frames = FrameIndex.ofRecords (RecordLayout.decoded false 0 f.records)
  /-- Its records can be read back, in any order. -/
  records : ∀ (passes : List Bool) (notes : Array Note),
    Ends (fun found _ => found = passes.map (RecordLayout.decoded · 0 f.records)) (fun _ _ => False)
      (passes.mapM (fun explicit =>
        LogicalStream.extractRecords (RecordLayout.offsets explicit 0 f.records))
        ⟨file.stream, notes⟩)

namespace Segmentation

variable {m : Medium} {framed : Bool} {settings : LoadSettings} {registry : Registry}
  {sections others : List SectionLayout} {s : SectionLayout} {j : Journalled Segmentation}

/-- The sections are ahead of the segmentation. -/
structure Facing (m : Medium) (framed : Bool) (settings : LoadSettings) (registry : Registry)
    (sections : List SectionLayout) (s : Segmentation) : Prop where
  /-- The medium. -/
  source : s.source = .ofMedium m
  /-- The framing. -/
  isFramed : s.framed = framed
  /-- The settings. -/
  settings : s.settings = settings
  /-- The schemas. -/
  registry : s.registry = registry
  /-- There can be memory for the search for visible records. -/
  fits : VisibleHeader.WindowFits s.settings.searchLimit
  /-- There is a next turn. -/
  done : s.done = false
  /-- The sections. -/
  next : m.Carries framed s.next (sections.map (·.toBytes))

/-- A turn opens the medium at the first section. -/
theorem Facing.ends_openTrack (h : Facing m framed settings registry (s :: others) j.state) :
    ∃ stop q, m.feedAt framed j.state.next = .ok ⟨s.toBytes, .stopped stop q⟩ ∧
      (∀ {r bytes}, m.feedAt framed r = .ok ⟨bytes, .stopped stop q⟩ →
        m.Carries framed r (bytes :: others.map (·.toBytes))) ∧
      m.Carries framed q ((if others = [] then [SectionLayout.empty] else others).map (·.toBytes)) ∧
      (stop = .mediumEnd ↔ others = []) ∧
      Ends (fun t j' => j'.state = { j.state with openings := j.state.openings + 1 } ∧
          t.Delivers m framed ⟨s.toBytes, .stopped stop q⟩)
        (fun _ _ => False) (openTrack j) := by
  obtain ⟨stop, q, hfeed, hwithin, hbehind⟩ := Medium.Carries.feed h.next
  have hreader : j.state.source.reader j.state.openings = .ok (.ofMedium m) := by
    rw [h.source]
    rfl
  have hopen := Segmentation.ends_openTrack j
  rw [hreader, h.isFramed] at hopen
  refine ⟨stop, q, hfeed, hwithin, ?_, ?_, hopen.mono ?_ ?_⟩
  · cases stop with
    | fileMark =>
      obtain ⟨hne, hothers⟩ := hbehind
      rw [if_neg fun hnil => hne (List.map_eq_nil_iff.2 hnil)]
      exact hothers
    | mediumEnd =>
      obtain ⟨hnil, hnothing⟩ := hbehind
      rw [if_pos (List.map_eq_nil_iff.1 hnil)]
      exact hnothing
  · cases stop with
    | fileMark =>
      exact ⟨nofun, fun hnil => absurd (List.map_eq_nil_iff.2 hnil) hbehind.1⟩
    | mediumEnd => exact ⟨fun _ => List.map_eq_nil_iff.1 hbehind.1, fun _ => rfl⟩
  · rintro t j' ⟨hstate, r, F, hr, hF, ht, -⟩
    cases hr
    rw [Reader.ofMedium, hfeed] at hF
    cases hF
    exact ⟨hstate, ht⟩
  · rintro e j' ⟨-, ⟨x, hx, -⟩ | ⟨r, x, hr, hx, -⟩⟩
    · cases hx
    · cases hr
      rw [Reader.ofMedium, hfeed] at hx
      cases hx

/-- A turn in front of a section without logical files passes over it. -/
theorem ends_turn_of_no_files (h : Facing m framed settings registry (s :: others) j.state)
    (hfiles : s.files = []) :
    Ends
      (fun r j' => j'.state.label = j.state.label ∧
        if others = [] then r = .finished ∧ j'.state.done = true
        else r = .again ∧ Facing m framed settings registry others j'.state)
      (fun _ _ => False) (turn j) := by
  obtain ⟨stop, q, -, -, hbehind, hlast, hopen⟩ := h.ends_openTrack
  rw [SectionLayout.toBytes_of_files_eq_nil hfiles] at hopen
  rw [turn_eq, ends_bind]
  refine hopen.mono ?_ fun _ _ => False.elim
  rintro t ⟨s₁, notes₁⟩ ⟨rfl, ht⟩
  rw [ends_bind]
  refine (ends_ahead ht).mono ?_ ?_
  · rintro ⟨ahead, t₁⟩ ⟨s₂, notes₂⟩ ⟨rfl, -, hahead⟩
    cases ahead with
    | byte b =>
      obtain ⟨⟨rest, hnil⟩, -⟩ := hahead
      cases hnil
    | stop stop' =>
      simp only [Feed.mk.injEq, Ending.stopped.injEq] at hahead
      obtain ⟨-, rfl, rfl⟩ := hahead
      have hstop : ∀ notes, Ends
          (fun r (j' : Journalled Segmentation) => j'.state.label = j.state.label ∧
            if others = [] then r = .finished ∧ j'.state.done = true
            else r = .again ∧ Facing m framed settings registry others j'.state)
          (fun _ _ => False)
          (stopAt stop t₁ ⟨{ j.state with openings := j.state.openings + 1 }, notes⟩) := by
        intro notes
        rw [ends_stopAt]
        cases stop with
        | fileMark =>
          have hmore : others ≠ [] := fun hnil => absurd (hlast.2 hnil) nofun
          rw [if_neg hmore] at hbehind
          refine ⟨rfl, ?_⟩
          rw [if_neg hmore]
          exact ⟨rfl, { h with next := hbehind }⟩
        | mediumEnd =>
          refine ⟨rfl, ?_⟩
          rw [if_pos (hlast.1 rfl)]
          exact ⟨rfl, rfl⟩
      by_cases hmark : stop = .fileMark
      · simp only [if_pos hmark]
        rw [ends_bind, ends_note]
        exact hstop _
      · simp only [if_neg hmark]
        exact hstop _
  · rintro e j' ⟨-, x, -, hfail⟩
    cases hfail

/-- In front of a byte, the track goes on. -/
theorem ends_ahead_of_ne_nil {track : Track} {bytes : List UInt8} {stop : Stop} {q : Place}
    (h : track.Delivers m framed ⟨bytes, .stopped stop q⟩) (hb : bytes ≠ []) :
    Ends
      (fun r j' => j'.state = j.state ∧ (∃ b, r.1 = .byte b) ∧
        r.2.Delivers m framed ⟨bytes, .stopped stop q⟩)
      (fun _ _ => False) (ahead track j) := by
  refine (ends_ahead h).mono ?_ ?_
  · rintro ⟨ahead, t⟩ j' ⟨hstate, -, hahead⟩
    cases ahead with
    | byte b => exact ⟨hstate, ⟨b, rfl⟩, hahead.2⟩
    | stop stop' => exact absurd (congrArg Feed.bytes hahead) hb
  · rintro e j' ⟨-, x, -, hfail⟩
    exact hb (congrArg Feed.bytes hfail)

/-- A logical file is found where it begins. -/
theorem ends_locate_of_file {track : Track} {f : FileLayout} {rest : List UInt8} {stop : Stop}
    {q : Place} (h : track.Delivers m framed ⟨f.toBytes ++ rest, .stopped stop q⟩)
    (hfits : VisibleHeader.WindowFits j.state.settings.searchLimit) :
    Ends
      (fun r j' => j'.state = j.state ∧ ∃ p t, r = some (p, t) ∧ t.reader.medium = m ∧
        t.isFramed = framed ∧ m.feedAt framed p = .ok ⟨f.toBytes ++ rest, .stopped stop q⟩)
      (fun _ _ => False) (locate track j) := by
  obtain ⟨header, behind, hheader⟩ := f.opens rest (.stopped stop q)
  have hfound : headerIn (VisibleHeader.window j.state.settings.searchLimit) (f.toBytes ++ rest) =
      some 0 := headerIn_of_headerAt hheader
  exact ends_locate_of_headerIn h hfits hfound

/-- **The records of a logical file are read**, and what follows it is ahead. -/
theorem ends_indexAndLoad_of_file {stream : LogicalStream} {f : FileLayout}
    {files : List FileLayout} {stop : Stop} {q : Place}
    (hat : stream.At m framed ⟨f.toBytes ++ files.flatMap (·.toBytes), .stopped stop q⟩ 0)
    (hfresh : Ends (fun index _ => stream.origin.Passes index.resume) (fun _ _ => True)
      (LogicalStream.findRecords ⟨stream, j.notes⟩)) :
    Ends
      (fun r j' => ∃ file resume, r = .file file ∧
        file.ReadAs j.state.settings j.state.registry j.state.label f ∧
        j'.state = { j.state with next := resume, emitted := j.state.emitted + 1 } ∧
        if files = [] then resume = q
        else m.feedAt framed resume = .ok ⟨files.flatMap (·.toBytes), .stopped stop q⟩)
      (fun _ _ => False) (indexAndLoad stream j) := by
  set F : Feed := ⟨f.toBytes ++ files.flatMap (·.toBytes), .stopped stop q⟩
  have hopens : F.Opens := f.opens (files.flatMap (·.toBytes)) (.stopped stop q)
  have hbytes := congrArg Contents.bytes
    (f.contents_eq (files.flatMap (·.toBytes)) (.stopped stop q))
  have hscan := (FileLayout.ends_findRecords (j := ⟨stream, j.notes⟩) hat).and hfresh
  unfold indexAndLoad
  rw [ends_bind]
  refine (ends_indexRecords (hscan.mono (fun _ _ h => ⟨h.2, h.1⟩) fun _ _ h => h.1)).mono ?_
    fun e j' he => he.2.choose_spec.choose_spec.2
  rintro ⟨index, stream'⟩ ⟨s₁, notes₁⟩
    ⟨-, -, ⟨notes, hexplicits, himplicits, hbroken, hresume, hanchored⟩, rfl⟩
  have hsome : index.isEmpty = false := by
    have hadd := RecordLayout.length_offsets_add 0 f.records
    rw [RecordIndex.isEmpty, RecordIndex.size, hexplicits, himplicits, hadd]
    rfl
  simp only [hsome]
  rw [if_neg Bool.false_ne_true, ends_bind]
  refine (ends_loadFile (E := fun _ => False)
    (R := fun records st => records = RecordLayout.decoded true 0 f.records ∧ st.Anchored m framed F)
    (Q := fun records frames st => records = RecordLayout.decoded true 0 f.records ∧
      frames = FrameIndex.ofRecords (RecordLayout.decoded false 0 f.records) ∧ st.Anchored m framed F)
    ?_ ?_).mono ?_ fun e j' he => he.2.choose_spec.2
  · rw [hexplicits]
    replace hanchored : (Journalled.mk stream' notes₁).state.Anchored m framed F := hanchored
    exact hanchored.extractRecords_layout hopens hbytes true
  · rintro records p' ⟨rfl, hp'⟩
    rw [himplicits]
    refine (LogicalStream.Anchored.indexFrames_layout hp' hopens hbytes false).mono ?_ fun _ _ => id
    rintro frames p'' ⟨rfl, hp''⟩
    exact ⟨rfl, rfl, hp''⟩
  · rintro file ⟨s₂, notes₂⟩ ⟨⟨records, ⟨rfl, hframes, hfile⟩, hpool⟩, hlabel, hwhole, -, rfl⟩
    refine ⟨file, index.resume, rfl, ⟨hlabel, hwhole.trans hbroken, hpool, hframes, ?_⟩, ?_, hresume⟩
    · intro passes notes
      replace hfile : (Journalled.mk file.stream notes).state.Anchored m framed F := hfile
      exact hfile.mapM_extractRecords hopens hbytes passes
    · simp only [hbroken, Bool.or_false]

/-- **A turn in front of a logical file reads it**, and has what follows ahead. -/
theorem ends_turn_of_files (h : Facing m framed settings registry (s :: others) j.state)
    {f : FileLayout} {files : List FileLayout} (hfiles : s.files = f :: files) :
    Ends
      (fun r j' => ∃ file, r = .file file ∧
        file.ReadAs settings registry (s.latest j.state.label) f ∧
        j'.state.label = s.latest j.state.label ∧
        Facing m framed settings registry (s.behind others) j'.state)
      (fun _ _ => False) (turn j) := by
  obtain ⟨stop, q, -, hwithin, hbehind, -, hopen⟩ := h.ends_openTrack
  have hne := SectionLayout.toBytes_ne_nil hfiles
  have hne' := f.toBytes_append_ne_nil (files.flatMap (·.toBytes))
  rw [turn_eq, ends_bind]
  refine hopen.mono ?_ fun _ _ => False.elim
  rintro t ⟨s₁, notes₁⟩ ⟨rfl, ht⟩
  rw [ends_bind]
  refine (ends_ahead_of_ne_nil ht hne).mono ?_ fun _ _ => False.elim
  rintro ⟨-, t₁⟩ ⟨s₂, notes₂⟩ ⟨rfl, ⟨b, rfl⟩, ht₁⟩
  simp only [labelAndLoad]
  rw [ends_bind]
  refine (ends_readLabel ht₁ hne).mono ?_ fun e j' he => nomatch he.2.choose_spec.2.1
  rintro t₂ ⟨s₃, notes₃⟩ ⟨rfl, -, ht₂, -⟩
  rw [SectionLayout.latest_toBytes hfiles, ends_bind]
  rw [SectionLayout.behind_toBytes hfiles] at ht₂
  refine (ends_ahead_of_ne_nil ht₂ hne').mono ?_ fun _ _ => False.elim
  rintro ⟨-, t₃⟩ ⟨s₄, notes₄⟩ ⟨rfl, ⟨b', rfl⟩, ht₃⟩
  simp only [locateAndLoad]
  rw [ends_bind]
  refine (ends_locate_of_file ht₃ (by exact h.fits)).mono ?_ fun _ _ => False.elim
  rintro - ⟨s₅, notes₅⟩ ⟨rfl, p, t₄, rfl, hm, hf, hp⟩
  obtain ⟨stream, hstream, hat, horigin, hfresh⟩ := openAt_fresh hm hf hp (f.opens _ _)
  subst horigin
  simp only
  rw [ends_bind, hstream, accept, ends_pure]
  replace hfresh := (hfresh notes₅).mono (fun _ _ h => h.1) fun _ _ => id
  refine (ends_indexAndLoad_of_file hat hfresh).mono ?_ fun _ _ => id
  rintro r ⟨s₆, notes₆⟩ ⟨file, resume, rfl, hfile, rfl, hresume⟩
  rw [h.settings, h.registry] at hfile
  refine ⟨file, rfl, hfile, rfl, { h with next := ?_ }⟩
  have htail : s.files.tail = files := congrArg List.tail hfiles
  simp only [SectionLayout.behind, htail]
  cases files with
  | nil =>
    rw [if_pos rfl] at hresume
    subst hresume
    exact hbehind
  | cons g files =>
    rw [if_neg (List.cons_ne_nil _ _)] at hresume
    exact hwithin hresume

/-! ### Calls -/

/-- A call has returned the first of the logical files that were ahead, and has the others ahead.
Without one it has returned nothing, and is the last. -/
def Returned (m : Medium) (framed : Bool) (settings : LoadSettings) (registry : Registry) :
    List (Option StorageLabel × FileLayout) → Option LogicalFile → Segmentation → Prop
  | [], none, s => s.done = true
  | (label, f) :: more, some file, s => file.ReadAs settings registry label f ∧
    ∃ sections, Facing m framed settings registry sections s ∧
      SectionLayout.labelled s.label sections = more
  | _, _, _ => False

/-- Turn after turn, sections without logical files are passed over. -/
theorem ends_turns_of_facing {most : Nat} (h : Facing m framed settings registry sections j.state)
    (hm : sections.length < most) :
    Ends
      (fun r j' => Returned m framed settings registry
        (SectionLayout.labelled j.state.label sections) r j'.state)
      (fun _ _ => False) (turns most j) := by
  induction sections generalizing j most with
  | nil => cases h.next
  | cons s others ih =>
    obtain ⟨most, rfl⟩ := Nat.exists_eq_add_one_of_ne_zero (Nat.ne_zero_of_lt hm)
    rw [turns, bind_state, h.done, if_neg Bool.false_ne_true, ends_bind]
    cases hfiles : s.files with
    | nil =>
      rw [SectionLayout.labelled_of_files_eq_nil hfiles]
      refine (ends_turn_of_no_files h hfiles).mono ?_ fun _ _ => False.elim
      rintro r j' ⟨hlabel, hr⟩
      by_cases hothers : others = []
      · subst hothers
        rw [if_pos rfl] at hr
        obtain ⟨rfl, hdone⟩ := hr
        exact hdone
      · rw [if_neg hothers] at hr
        obtain ⟨rfl, hfacing⟩ := hr
        have hrest := ih hfacing (Nat.lt_of_succ_lt_succ hm)
        rwa [hlabel] at hrest
    | cons f files =>
      rw [SectionLayout.labelled_of_files_eq_cons hfiles]
      refine (ends_turn_of_files h hfiles).mono ?_ fun _ _ => False.elim
      rintro r j' ⟨file, rfl, hfile, hlabel, hfacing⟩
      refine ⟨hfile, _, hfacing, ?_⟩
      rw [hlabel]

/-- **A call returns the next logical file.** -/
theorem call_of_facing (h : Facing m framed settings registry sections j.state)
    (hready : j.state.Ready) :
    ∃ r, (call j).1 = .ok r ∧ Returned m framed settings registry
      (SectionLayout.labelled j.state.label sections) r (call j).2.state := by
  -- there may be more sections than the bound on the turns allows for
  have hbound : sections.length < max (j.state.source.image.size + 2) (sections.length + 1) :=
    Nat.le_max_right _ _
  have hleft := j.state.turnsLeft_lt_size
  have hturns := ends_turns_of_facing h hbound
  rw [← turns_eq_of_lt hready hleft (Nat.lt_of_lt_of_le hleft (Nat.le_max_left _ _))] at hturns
  have hcall := call_of_ends (ends_nextFile (E := fun _ _ => False) hturns)
  match hrun : call j with
  | (.ok r, j') =>
    rw [hrun] at hcall
    exact ⟨r, rfl, hcall⟩
  | (.error e, j') =>
    rw [hrun] at hcall
    exact hcall.elim

/-- The calls return the logical files that are ahead, and then nothing. -/
theorem results_of_facing (h : Facing m framed settings registry sections j.state)
    (hready : j.state.Ready) (n : Nat) :
    match (SectionLayout.labelled j.state.label sections)[n]? with
    | some (label, f) => ∃ file, result j n = .ok (some file) ∧
      file.ReadAs settings registry label f
    | none => result j n = .ok none := by
  obtain ⟨r, hr, hreturned⟩ := call_of_facing h hready
  induction n generalizing j sections r with
  | zero =>
    rw [result, after, hr]
    revert hreturned
    cases SectionLayout.labelled j.state.label sections with
    | nil =>
      cases r with
      | none => exact fun _ => rfl
      | some file => exact False.elim
    | cons ahead more =>
      cases r with
      | none => exact False.elim
      | some file => exact fun hreturned => ⟨file, rfl, hreturned.1⟩
  | succ n ih =>
    have hnext : result j (n + 1) = result (call j).2 n := by
      rw [Nat.add_comm, result_add]
      rfl
    rw [hnext]
    revert hreturned
    cases SectionLayout.labelled j.state.label sections with
    | nil =>
      cases r with
      | none => exact fun hdone => result_of_done hdone n
      | some file => exact False.elim
    | cons ahead more =>
      cases r with
      | none => exact False.elim
      | some file =>
        rintro ⟨-, rest, hfacing, rfl⟩
        have hready' := ready_after hready 1
        obtain ⟨r', hr', hreturned'⟩ := call_of_facing hfacing hready'
        exact ih hfacing hready' r' hr' hreturned'

/-- **Physical files are read as they were written.**  The calls return the logical files that were
written, each with the latest label in front of it, and then nothing. -/
theorem results_of_written (hfault : m.manner.fault = none) (hm : m.Written sections)
    (settings : LoadSettings) (hfits : VisibleHeader.WindowFits settings.searchLimit)
    (registry : Registry) (j : Journalled Unit) :
    Ends
      (fun s k => ∀ n, match (SectionLayout.labelled none sections)[n]? with
        | some (label, f) => ∃ file, result ⟨s, k.notes⟩ n = .ok (some file) ∧
          file.ReadAs settings registry label f
        | none => result ⟨s, k.notes⟩ n = .ok none)
      (fun _ _ => False) (start (.ofMedium m) settings registry j) := by
  obtain ⟨framed, hframed, hcarries⟩ := hm.carries hfault
  refine (ends_start hfault settings registry j).mono ?_ fun _ _ => id
  rintro s k ⟨hs, hmark⟩ n
  have hsframed : s.framed = framed := Bool.eq_iff_iff.2 (hmark.trans hframed)
  have hlabel : s.label = none := by rw [hs]
  have hready : (Journalled.mk s k.notes).state.Ready := by
    rw [hs]
    exact fun _ _ => .inl rfl
  have hfacing : Facing m framed settings registry sections (Journalled.mk s k.notes).state := by
    rw [hs]
    exact ⟨rfl, hsframed, rfl, rfl, hfits, rfl, hcarries⟩
  have hresults := results_of_facing hfacing hready n
  rwa [hlabel] at hresults

/-- A segment with twenty bytes of data and without a trailer. -/
def shortSegment (explicit : Bool) : SegmentLayout :=
  ⟨⟨explicit, false, false, false, false, false, false, false⟩, 1 :: 0 :: 1 :: List.replicate 17 65,
    [], [], [], nofun, fun _ => rfl, rfl, rfl, by decide, by decide⟩

/-- A header of a logical file, or a record with samples. -/
def shortRecord (explicit : Bool) : RecordLayout := ⟨0, shortSegment explicit, [], rfl, rfl, by simp⟩

/-- A header with samples behind it, cut inside the samples. -/
def sampled : FileLayout where
  bodies := [((shortRecord true).toBytes ++ (shortRecord false).toBytes).take 30,
    ((shortRecord true).toBytes ++ (shortRecord false).toBytes).drop 30]
  header := shortRecord true
  others := [shortRecord false]
  packed := by decide
  cut := by simp
  isHeader := ⟨rfl, rfl⟩
  not_isHeader := by decide

/-- A header alone. -/
def bare : FileLayout where
  bodies := [(shortRecord true).toBytes]
  header := shortRecord true
  others := []
  packed := by decide
  cut := by simp
  isHeader := ⟨rfl, rfl⟩
  not_isHeader := by simp

/-- A label. -/
def shortLabel : LabelLayout :=
  ⟨Utf8.encode "   1V1.00RECORD 8192" ++ List.replicate 60 32, by decide +kernel, by decide +kernel⟩

/-- Two logical files behind a label, and a third one behind a file mark. -/
def threeFiles : List SectionLayout :=
  [.empty, ⟨some shortLabel, [sampled, bare], nofun⟩, ⟨none, [bare], nofun⟩]

/-- The tape records, which are cut inside the header of a visible record. -/
def threeFilesTape : List Image.TapePart :=
  let bytes := shortLabel.bytes ++ sampled.toBytes ++ bare.toBytes
  [.fileMark, .record (bytes.take 82), .record [], .record (bytes.drop 82), .fileMark,
    .record bare.toBytes]

theorem results_of_written_threeFiles :
    Ends
      (fun s k =>
        (∃ file, result ⟨s, k.notes⟩ 0 = .ok (some file) ∧
          file.ReadAs {} .empty (some shortLabel.label) sampled) ∧
        (∃ file, result ⟨s, k.notes⟩ 1 = .ok (some file) ∧
          file.ReadAs {} .empty (some shortLabel.label) bare) ∧
        (∃ file, result ⟨s, k.notes⟩ 2 = .ok (some file) ∧
          file.ReadAs {} .empty (some shortLabel.label) bare) ∧
        result ⟨s, k.notes⟩ 3 = .ok none)
      (fun _ _ => False)
      (start (.ofMedium (.ofBytes (Image.tape threeFilesTape).toArray)) {} .empty ⟨(), #[]⟩) := by
  have hwritten : (Medium.ofBytes (Image.tape threeFilesTape).toArray).Written threeFiles :=
    .tape threeFilesTape (by simp [Medium.ofBytes]) (by decide +kernel) (by decide +kernel)
  exact (results_of_written rfl hwritten {} (by decide) .empty ⟨(), #[]⟩).mono
    (fun _ _ h => ⟨h 0, h 1, h 2, h 3⟩) fun _ _ => id

/-- A header alone, and nothing else on the medium. -/
def bareMedium : Medium := .ofBytes bare.toBytes.toArray

/-- **A search that no memory is enough for.**  A logical file that is written is not returned if the
limit of the search asks for too much, although the window is far from the largest word and the file
begins right ahead. -/
theorem tooWide_bareMedium :
    bareMedium.Written [⟨none, [bare], nofun⟩] ∧
      UInt64.size / 16 + VisibleHeader.size < UInt64.size ∧
      Ends (fun s k => result ⟨s, k.notes⟩ 0 = .error (.tooWide (UInt64.size / 16)))
        (fun _ _ => False)
        (start (.ofMedium bareMedium) { searchLimit := UInt64.size / 16 } .empty ⟨(), #[]⟩) := by
  have hcall : Ends
      (fun s k =>
        (result ⟨s, k.notes⟩ 0).map (fun _ => ()) = .error (.tooWide (UInt64.size / 16)))
      (fun _ _ => False)
      (start (.ofMedium bareMedium) { searchLimit := UInt64.size / 16 } .empty ⟨(), #[]⟩) := by
    decide +kernel
  exact ⟨.plain _ (by simp [bareMedium, Medium.ofBytes, SectionLayout.toBytes]), by decide,
    hcall.mono (fun _ _ => eq_error_of_map) fun _ _ => id⟩

end Segmentation

end WellLog
