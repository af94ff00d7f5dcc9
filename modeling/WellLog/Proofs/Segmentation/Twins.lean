import Mathlib.Data.List.Forall2
import WellLog.Proofs.Record.Twins
import WellLog.Proofs.Segmentation.Progress
import WellLog.Proofs.Segmentation.Start
import WellLog.Proofs.Track.Sections
/-!
# Segmentations of the same data

Two media can carry the same data in different ways.  `Segmentation.Alike` relates two segmentations
that have the same data ahead, and every step keeps it: what the one finds the other finds, and where
the one fails the other fails in the same way.

* `Matched` : feeds with the same bytes, up to stops with the same sections behind.
* `Segmentation.agree_turn` : **a turn keeps segmentations alike**.
* `Segmentation.Alike.results` : **all calls return the same**.
-/

namespace WellLog

/-! ### What is the same -/

/-- Failures of the same kind. -/
inductive LoadError.Alike : LoadError → LoadError → Prop where
  /-- While the physical file is opened. -/
  | io {e e' : IoError} (kind : e.kind = e'.kind) : Alike (.io e) (.io e')
  /-- While it is read. -/
  | format {e e' : FormatError} (alike : e.Alike e') : Alike (.format e) (.format e')
  /-- For want of memory. -/
  | tooWide (limit : Nat) : Alike (.tooWide limit) (.tooWide limit)

/-- The same record, or failures of the same kind. -/
inductive Record.ReadAlike : Except FormatError Record → Except FormatError Record → Prop where
  /-- The same record. -/
  | record (r : Record) : ReadAlike (.ok r) (.ok r)
  /-- Failures of the same kind. -/
  | failure {e e' : FormatError} (alike : e.Alike e') : ReadAlike (.error e) (.error e')

/-- Reads the records at some offsets one after the other, whether they can be read or not. -/
def LogicalStream.tryRecords (offsets : List Nat) :
    LogicalStream.Reading (List (Except FormatError Record)) :=
  offsets.mapM fun offset => attempt (readRecord offset)

/-- Logical files with the same contents. -/
structure LogicalFile.Alike (f f' : LogicalFile) : Prop where
  /-- The label. -/
  label : f'.label = f.label
  /-- Whether the file is broken. -/
  broken : f'.broken = f.broken
  /-- The objects. -/
  pool : f'.pool = f.pool
  /-- The samples, with their offsets. -/
  frames : f'.frames = f.frames
  /-- What is read, at any offsets and in any order. -/
  reads : ∀ offsets notes notes',
    Agree (fun found _ found' _ => List.Forall₂ Record.ReadAlike found found')
      (fun _ _ _ _ => False)
      (LogicalStream.tryRecords offsets ⟨f.stream, notes⟩)
      (LogicalStream.tryRecords offsets ⟨f'.stream, notes'⟩)

/-- Feeds of two media with the same bytes, up to stops behind which there are the same sections. -/
structure Matched (m : Medium) (framed : Bool) (m' : Medium) (framed' : Bool) (F F' : Feed) : Prop where
  /-- The bytes. -/
  bytes : F'.bytes = F.bytes
  /-- The stops. -/
  stops : ∃ stop q q', F.ending = .stopped stop q ∧ F'.ending = .stopped stop q' ∧
    Abreast m framed m' framed' q q'
  /-- Places with the same bytes in front of the stops. -/
  abreast : ∀ {p p' bytes}, m.feedAt framed p = .ok ⟨bytes, F.ending⟩ →
    m'.feedAt framed' p' = .ok ⟨bytes, F'.ending⟩ → Abreast m framed m' framed' p p'

namespace Matched

variable {m m' : Medium} {framed framed' : Bool} {F F' : Feed}

theorem alike (h : Matched m framed m' framed' F F') : F.Alike F' := by
  obtain ⟨stop, q, q', hq, hq', -⟩ := h.stops
  refine ⟨h.bytes, ?_⟩
  rw [hq, hq']
  exact .stopped stop q q'

/-- The same other bytes in front of the same stops. -/
theorem withBytes (h : Matched m framed m' framed' F F') (bytes : List UInt8) :
    Matched m framed m' framed' ⟨bytes, F.ending⟩ ⟨bytes, F'.ending⟩ where
  bytes := rfl
  stops := h.stops
  abreast := h.abreast

theorem not_failed (h : Matched m framed m' framed' F F') {e : IoError} : F.ending ≠ .failed e := by
  obtain ⟨stop, q, q', hq, -⟩ := h.stops
  rw [hq]
  nofun

theorem not_failed' (h : Matched m framed m' framed' F F') {e : IoError} : F'.ending ≠ .failed e := by
  obtain ⟨stop, q, q', -, hq', -⟩ := h.stops
  rw [hq']
  nofun

end Matched

theorem Abreast.matched {m m' : Medium} {framed framed' : Bool} {p p' : Place}
    (h : Abreast m framed m' framed' p p') :
    ∃ F F', m.feedAt framed p = .ok F ∧ m'.feedAt framed' p' = .ok F' ∧
      Matched m framed m' framed' F F' := by
  obtain ⟨bytes, stop, q, q', hfeed, hfeed', hq, hwithin⟩ := h.feeds
  exact ⟨_, _, hfeed, hfeed', rfl, ⟨stop, q, q', rfl, rfl, hq⟩, hwithin⟩

/-- Where no header is found, the failures are alike. -/
theorem Feed.Alike.missed {F F' : Feed} (h : F.Alike F') (limit offset offset' : Nat) :
    (WellLog.missed limit offset F).Alike (WellLog.missed limit offset' F') := by
  unfold WellLog.missed
  rw [h.bytes]
  split
  · have hending := h.ending
    revert hending
    cases F.ending with
    | stopped stop p =>
      cases F'.ending with
      | stopped stop' p' => exact fun _ => .noVisibleRecord _ _ _
      | failed e' => nofun
    | failed e =>
      cases F'.ending with
      | stopped stop' p' => nofun
      | failed e' =>
        rintro (_ | hkind)
        exact .io hkind
  · exact .noVisibleRecord _ _ _

/-- Whatever is read from tied streams is the same. -/
theorem LogicalStream.Tied.agree_tryRecords {O O' : Origin} {j j' : Journalled LogicalStream}
    (hF : O.feed.Alike O'.feed) (h : Tied O O' j.state j'.state) (hopens : O.feed.Opens)
    (offsets : List Nat) :
    Agree (fun found _ found' _ => List.Forall₂ Record.ReadAlike found found')
      (fun _ _ _ _ => False) (tryRecords offsets j) (tryRecords offsets j') := by
  unfold tryRecords
  induction offsets generalizing j j' with
  | nil =>
    rw [List.mapM_nil]
    exact .nil
  | cons offset offsets ih =>
    rw [List.mapM_cons]
    refine agree_bind (agree_attempt ((h.agree_readRecord hF hopens offset).mono ?_ ?_))
    · rintro record t record' t' ⟨rfl, ht⟩
      refine agree_bind ((ih ht).mono ?_ fun _ _ _ _ => id)
      rintro found u found' u' hfound
      exact .cons (.record record') hfound
    · rintro e t e' t' ⟨hkind, ht⟩
      refine agree_bind ((ih ht).mono ?_ fun _ _ _ _ => id)
      rintro found u found' u' hfound
      exact .cons (.failure hkind) hfound

namespace Segmentation

/-- Segmentations of two media, which have the same sections ahead. -/
structure Alike (m : Medium) (framed : Bool) (m' : Medium) (framed' : Bool)
    (s s' : Segmentation) : Prop where
  /-- The one medium. -/
  source : s.source = .ofMedium m
  /-- The other one. -/
  source' : s'.source = .ofMedium m'
  /-- The one framing. -/
  isFramed : s.framed = framed
  /-- The other one. -/
  isFramed' : s'.framed = framed'
  /-- The settings. -/
  settings : s'.settings = s.settings
  /-- The schemas. -/
  registry : s'.registry = s.registry
  /-- The label. -/
  label : s'.label = s.label
  /-- The number of logical files. -/
  emitted : s'.emitted = s.emitted
  /-- Whether there is an end. -/
  done : s'.done = s.done
  /-- The next places, unless there is no next turn. -/
  next : s.done = false → Abreast m framed m' framed' s.next s'.next

/-- At the end, it does not matter what comes next. -/
theorem Alike.finish {m m' : Medium} {framed framed' : Bool} {s s' : Segmentation}
    (h : Alike m framed m' framed' s s') (p p' : Place) :
    Alike m framed m' framed' { s with next := p, done := true }
      { s' with next := p', done := true } :=
  { h with
    done := rfl
    next := nofun }

/-- Turns that lead to the same. -/
inductive Turn.Alike : Turn → Turn → Prop where
  /-- Another turn. -/
  | again : Alike .again .again
  /-- The end. -/
  | finished : Alike .finished .finished
  /-- The same logical file. -/
  | file {f f' : LogicalFile} (alike : f.Alike f') : Alike (.file f) (.file f')

/-- What comes next on two tracks with matched feeds. -/
inductive AheadAlike (m : Medium) (framed : Bool) (m' : Medium) (framed' : Bool) (F F' : Feed) :
    Track.Ahead × Track → Track.Ahead × Track → Prop where
  /-- A byte, which both still deliver. -/
  | byte (b : UInt8) {t t' : Track} (bytes : F.bytes ≠ []) (left : t.Delivers m framed F)
    (right : t'.Delivers m' framed' F') : AheadAlike m framed m' framed' F F' (.byte b, t) (.byte b, t')
  /-- A stop, with the same sections behind. -/
  | stop (stop : Stop) {t t' : Track} (abreast : Abreast m framed m' framed' t.place t'.place) :
    AheadAlike m framed m' framed' F F' (.stop stop, t) (.stop stop, t')

variable {σ σ' α α' : Type} {m m' : Medium} {framed framed' : Bool} {F F' : Feed} {t t' : Track}
  {j j' : Journalled Segmentation}

theorem agree_aside {A : α × σ → Journalled Segmentation → α' × σ' → Journalled Segmentation → Prop}
    {E : LoadError → Journalled Segmentation → LoadError → Journalled Segmentation → Prop}
    {s : σ} {s' : σ'} {x : Logged FormatError σ α} {x' : Logged FormatError σ' α'}
    (h : Agree (fun a p a' p' => A (a, p.state) ⟨j.state, p.notes⟩ (a', p'.state) ⟨j'.state, p'.notes⟩)
      (fun e p e' p' => E (.format e) ⟨j.state, p.notes⟩ (.format e') ⟨j'.state, p'.notes⟩)
      (x ⟨s, j.notes⟩) (x' ⟨s', j'.notes⟩)) :
    Agree A E (aside s x j) (aside s' x' j') :=
  agree_adaptExcept (agree_apart h)

/-! ### Up to the first visible record -/

theorem agree_openTrack (h : Alike m framed m' framed' j.state j'.state)
    (hdone : j.state.done = false) :
    Agree
      (fun t k t' k' => k.state = { j.state with openings := j.state.openings + 1 } ∧
        k'.state = { j'.state with openings := j'.state.openings + 1 } ∧
        ∃ F F', Matched m framed m' framed' F F' ∧ t.Delivers m framed F ∧
          t'.Delivers m' framed' F')
      (fun _ _ _ _ => False) (openTrack j) (openTrack j') := by
  obtain ⟨F, F', hfeed, hfeed', hmatched⟩ := (h.next hdone).matched
  have hreader : j.state.source.reader j.state.openings = .ok (.ofMedium m) := by
    rw [h.source]
    rfl
  have hreader' : j'.state.source.reader j'.state.openings = .ok (.ofMedium m') := by
    rw [h.source']
    rfl
  have hopen := ends_openTrack j
  have hopen' := ends_openTrack j'
  rw [hreader, h.isFramed] at hopen
  rw [hreader', h.isFramed'] at hopen'
  have herror : ∀ {e : LoadError} {m : Medium} {framed : Bool} {p : Place} {F : Feed},
      m.feedAt framed p = .ok F →
      ((∃ x, (.ok (.ofMedium m) : Except IoError Reader) = .error x ∧ e = .io x) ∨
        ∃ r x, (.ok (.ofMedium m) : Except IoError Reader) = .ok r ∧
          r.medium.feedAt framed p = .error x ∧ e = .format x) → False := by
    rintro e m framed p F hF (⟨x, hx, -⟩ | ⟨r, x, hr, hx, -⟩)
    · cases hx
    · cases hr
      rw [Reader.ofMedium, hF] at hx
      cases hx
  refine agree_of_ends hopen hopen' ?_ (fun _ _ _ _ he _ => herror hfeed he.2)
    (fun _ _ _ _ _ he => herror hfeed' he.2) fun _ _ _ _ he _ => herror hfeed he.2
  rintro t k t' k' ⟨hk, r, G, hr, hG, ht, -⟩ ⟨hk', r', G', hr', hG', ht', -⟩
  cases hr
  cases hr'
  rw [Reader.ofMedium, hfeed] at hG
  rw [Reader.ofMedium, hfeed'] at hG'
  cases hG
  cases hG'
  exact ⟨hk, hk', F, F', hmatched, ht, ht'⟩

theorem agree_ahead (hF : Matched m framed m' framed' F F') (ht : t.Delivers m framed F)
    (ht' : t'.Delivers m' framed' F') :
    Agree
      (fun r k r' k' => k.state = j.state ∧ k'.state = j'.state ∧
        AheadAlike m framed m' framed' F F' r r')
      (fun _ _ _ _ => False) (ahead t j) (ahead t' j') := by
  refine agree_of_ends (ends_ahead ht) (ends_ahead ht') ?_ ?_ ?_ ?_
  · rintro ⟨a, u⟩ k ⟨a', u'⟩ k' ⟨hk, -, ha⟩ ⟨hk', -, ha'⟩
    refine ⟨hk, hk', ?_⟩
    cases a with
    | byte b =>
      obtain ⟨⟨rest, hb⟩, hu⟩ := ha
      cases a' with
      | byte b' =>
        obtain ⟨⟨rest', hb'⟩, hu'⟩ := ha'
        rw [hF.bytes, hb] at hb'
        cases hb'
        exact .byte b (hb ▸ List.cons_ne_nil b rest) hu hu'
      | stop stop' =>
        have hnil := hF.bytes
        rw [ha', hb] at hnil
        cases hnil
    | stop stop =>
      cases a' with
      | byte b' =>
        obtain ⟨⟨rest', hb'⟩, hu'⟩ := ha'
        rw [hF.bytes, ha] at hb'
        cases hb'
      | stop stop' =>
        obtain ⟨stop'', q, q', hq, hq', habreast⟩ := hF.stops
        rw [ha] at hq
        rw [ha'] at hq'
        cases hq
        cases hq'
        exact .stop _ habreast
  · rintro e k e' k' ⟨-, x, -, hfail⟩ -
    exact hF.not_failed (congrArg Feed.ending hfail)
  · rintro r k e' k' - ⟨-, x, -, hfail⟩
    exact hF.not_failed' (congrArg Feed.ending hfail)
  · rintro e k r' k' ⟨-, x, -, hfail⟩ -
    exact hF.not_failed (congrArg Feed.ending hfail)

theorem agree_stopAt {s s' : Segmentation} {notes notes' : Array Note}
    {E : LoadError → Journalled Segmentation → LoadError → Journalled Segmentation → Prop}
    (h : Alike m framed m' framed' s s')
    (habreast : Abreast m framed m' framed' t.place t'.place) (stop : Stop) :
    Agree (fun r k r' k' => r.Alike r' ∧ Alike m framed m' framed' k.state k'.state) E
      (stopAt stop t ⟨s, notes⟩) (stopAt stop t' ⟨s', notes'⟩) := by
  cases stop with
  | fileMark => exact ⟨.again, { h with next := fun _ => habreast }⟩
  | mediumEnd => exact ⟨.finished, h.finish _ _⟩

theorem agree_readLabel (h : Alike m framed m' framed' j.state j'.state)
    (hF : Matched m framed m' framed' F F') (ht : t.Delivers m framed F)
    (ht' : t'.Delivers m' framed' F') (hb : F.bytes ≠ []) :
    Agree
      (fun t k t' k' => Alike m framed m' framed' k.state k'.state ∧
        t.Delivers m framed ⟨StorageLabel.behind F.bytes, F.ending⟩ ∧
        t'.Delivers m' framed' ⟨StorageLabel.behind F.bytes, F'.ending⟩)
      (fun _ _ _ _ => False) (readLabel t j) (readLabel t' j') := by
  have hlabel' := ends_readLabel (j := j') ht' (hF.bytes ▸ hb)
  rw [hF.bytes] at hlabel'
  refine agree_of_ends (ends_readLabel ht hb) hlabel' ?_ ?_ ?_ ?_
  · rintro u k u' k' ⟨hk, -, hu, -⟩ ⟨hk', -, hu', -⟩
    refine ⟨?_, hu, hu'⟩
    rw [hk, hk']
    exact { h with label := by simp only [h.label] }
  · rintro e k e' k' ⟨-, x, -, hfail, -⟩ -
    exact hF.not_failed hfail
  · rintro u k e' k' - ⟨-, x, -, hfail, -⟩
    exact hF.not_failed' hfail
  · rintro e k u' k' ⟨-, x, -, hfail, -⟩ -
    exact hF.not_failed hfail

theorem agree_locate (h : Alike m framed m' framed' j.state j'.state)
    (hF : Matched m framed m' framed' F F') (ht : t.Delivers m framed F)
    (ht' : t'.Delivers m' framed' F') :
    Agree
      (fun r k r' k' => Alike m framed m' framed' k.state k'.state ∧
        match r, r' with
        | some (p, u), some (p', u') => u.reader.medium = m ∧ u.isFramed = framed ∧
          u'.reader.medium = m' ∧ u'.isFramed = framed' ∧
          ∃ bytes, m.feedAt framed p = .ok ⟨bytes, F.ending⟩ ∧
            m'.feedAt framed' p' = .ok ⟨bytes, F'.ending⟩ ∧
            ∃ header rest, HeaderAt bytes header rest
        | none, none => True
        | _, _ => False)
      (fun e k e' k' => e.Alike e' ∧ Alike m framed m' framed' k.state k'.state)
      (locate t j) (locate t' j') := by
  by_cases hfits : VisibleHeader.WindowFits j.state.settings.searchLimit
  case neg =>
    refine agree_of_ends (ends_locate_of_not_fits hfits)
      (ends_locate_of_not_fits (j := j') (h.settings ▸ hfits)) (fun _ _ _ _ => False.elim) ?_
      (fun _ _ _ _ => False.elim) fun _ _ _ _ _ => id
    rintro _ _ _ _ ⟨rfl, rfl⟩ ⟨rfl, rfl⟩
    rw [h.settings]
    exact ⟨.tooWide _, h⟩
  have hfits' : VisibleHeader.WindowFits j'.state.settings.searchLimit := h.settings ▸ hfits
  cases hheader : headerIn (VisibleHeader.window j.state.settings.searchLimit) F.bytes with
  | some i =>
    have hheader' : headerIn (VisibleHeader.window j'.state.settings.searchLimit) F'.bytes =
        some i := by rw [h.settings, hF.bytes, hheader]
    refine agree_of_ends (ends_locate_of_headerIn ht hfits hheader)
      (ends_locate_of_headerIn ht' hfits' hheader') ?_ (fun _ _ _ _ => False.elim)
      (fun _ _ _ _ _ => id) fun _ _ _ _ he _ => he
    rintro _ k _ k' ⟨hk, p, u, rfl, hm, hf, hp⟩ ⟨hk', p', u', rfl, hm', hf', hp'⟩
    rw [hF.bytes] at hp'
    rw [hk, hk']
    exact ⟨h, hm, hf, hm', hf', _, hp, hp', header_of_headerIn hheader⟩
  | none =>
    have hheader' : headerIn (VisibleHeader.window j'.state.settings.searchLimit) F'.bytes =
        none := by rw [h.settings, hF.bytes, hheader]
    have hmissed := hF.alike.missed j.state.settings.searchLimit t.tell t'.tell
    have hlocate' := ends_locate_of_none ht' hfits' hheader'
    rw [h.settings, h.emitted] at hlocate'
    refine agree_of_ends (ends_locate_of_none ht hfits hheader) hlocate' ?_ ?_ ?_ ?_
    · rintro _ k _ k' ⟨rfl, hk, -⟩ ⟨rfl, hk', -⟩
      rw [hk, hk']
      exact ⟨h.finish _ _, trivial⟩
    · rintro _ k _ k' ⟨hk, rfl, -⟩ ⟨hk', rfl, -⟩
      rw [hk, hk']
      exact ⟨.format hmissed, h⟩
    · rintro _ k _ k' ⟨-, -, hemitted, n, hdefect⟩ ⟨-, -, hzero | ⟨x, hx⟩⟩
      · exact hemitted hzero
      · rw [hdefect, hx] at hmissed
        cases hmissed
    · rintro _ k _ k' ⟨-, -, hzero | ⟨x, hx⟩⟩ ⟨-, -, hemitted, n, hdefect⟩
      · exact hemitted hzero
      · rw [hdefect, hx] at hmissed
        cases hmissed

/-! ### The records -/

section

variable {stream stream' : LogicalStream}

/-- Where two scans stop that are not broken, the same sections are ahead. -/
theorem abreast_of_scan {index index' : RecordIndex}
    (hF : Matched m framed m' framed' F F')
    (h : index.Alike ⟨m, framed, F⟩ ⟨m', framed', F'⟩ index') (hwhole : index.isBroken = false) :
    Abreast m framed m' framed' index.resume index'.resume := by
  cases hending : index.ending with
  | boundary =>
    obtain ⟨bytes, hfeed, hfeed', -⟩ := h.boundary hending
    exact hF.abreast hfeed hfeed'
  | broken =>
    rw [RecordIndex.isBroken, hending] at hwhole
    cases hwhole
  | fileMark | mediumEnd =>
    obtain ⟨stop, hstop, hstop', -⟩ := h.stopped (by simp [hending])
    obtain ⟨stop', q, q', hq, hq', habreast⟩ := hF.stops
    simp only at hstop hstop'
    rw [hq] at hstop
    rw [hq'] at hstop'
    cases hstop
    cases hstop'
    exact habreast

/-- Both scans find the same.  Where there is a next turn, the next places have the same sections
ahead. -/
theorem agree_indexRecords (h : Alike m framed m' framed' j.state j'.state)
    (hF : Matched m framed m' framed' F F')
    (hs : LogicalStream.Twins ⟨m, framed, F⟩ ⟨m', framed', F'⟩ 0 stream stream')
    (hpasses : Ends (fun index _ => stream.origin.Passes index.resume) (fun _ _ => True)
      (LogicalStream.findRecords ⟨stream, j.notes⟩))
    (hpasses' : Ends (fun index _ => stream'.origin.Passes index.resume) (fun _ _ => True)
      (LogicalStream.findRecords ⟨stream', j'.notes⟩)) :
    Agree
      (fun r k r' k' => Alike m framed m' framed' k.state k'.state ∧
        r.1.Alike ⟨m, framed, F⟩ ⟨m', framed', F'⟩ r'.1 ∧
        LogicalStream.Tied ⟨m, framed, F⟩ ⟨m', framed', F'⟩ r.2 r'.2)
      (fun e k e' k' => e.Alike e' ∧ Alike m framed m' framed' k.state k'.state)
      (indexRecords stream j) (indexRecords stream' j') := by
  unfold indexRecords
  have hkeeps := LogicalStream.keeps_findRecords ⟨stream, j.notes⟩
  have hkeeps' := LogicalStream.keeps_findRecords ⟨stream', j'.notes⟩
  refine agree_bind (agree_aside (Agree.mono ((LogicalStream.Twins.agree_findRecords hF.alike
    hs).and_ends (hpasses.and hkeeps) (hpasses'.and hkeeps')) ?_ ?_))
  · rintro index ⟨u, notes⟩ index' ⟨u', notes'⟩
      ⟨⟨halike, htied⟩, ⟨hgo, horigin, -⟩, ⟨hgo', horigin', -⟩⟩
    replace horigin : u.origin = stream.origin := horigin
    replace horigin' : u'.origin = stream'.origin := horigin'
    have hno : ¬ index.resume.le u.origin = true := by
      rw [horigin, Bool.not_eq_true]
      exact hgo
    have hno' : ¬ index'.resume.le u'.origin = true := by
      rw [horigin', Bool.not_eq_true]
      exact hgo'
    have hbroken : index'.isBroken = index.isBroken := by
      rw [RecordIndex.isBroken, RecordIndex.isBroken, halike.ending]
    simp only
    refine agree_bind ?_
    rw [if_neg hno, if_neg hno', hbroken]
    split
    · exact ⟨h.finish _ _, halike, htied⟩
    · rename_i hwhole
      exact ⟨{ h with next := fun _ => abreast_of_scan hF halike (Bool.not_eq_true _ ▸ hwhole) },
        halike, htied⟩
  · rintro e p e' p' ⟨⟨hkind, -⟩, -, -⟩
    exact ⟨.format hkind, h⟩

/-- What does not look at the state or the journal does the same. -/
theorem agree_of_concur {β : Type} {x : Segmenting β} (hx : ∀ R, Concur R x x)
    (h : Alike m framed m' framed' j.state j'.state) :
    Agree (fun a k a' k' => a' = a ∧ Alike m framed m' framed' k.state k'.state)
      (fun _ _ _ _ => False) (x j) (x j') := hx _ j j' h

theorem agree_linkOnLoad (h : Alike m framed m' framed' j.state j'.state) (f f' : LogicalFile)
    (hpool : f'.pool = f.pool) :
    Agree
      (fun g k g' k' => Alike m framed m' framed' k.state k'.state ∧ ∃ pool,
        g = { f with pool } ∧ g' = { f' with pool })
      (fun _ _ _ _ => False) (linkOnLoad f j) (linkOnLoad f' j') := by
  refine agree_of_ends (ends_linkOnLoad f j) (ends_linkOnLoad f' j') ?_
    (fun _ _ _ _ => False.elim) (fun _ _ _ _ _ => id) fun _ _ _ _ h _ => h
  rintro g k g' k' ⟨rfl, hk⟩ ⟨rfl, hk'⟩
  rw [hk, hk', h.settings, hpool]
  exact ⟨h, _, rfl, rfl⟩

/-- **The same records make the same logical file.** -/
theorem agree_loadFile {index index' : RecordIndex}
    (h : Alike m framed m' framed' j.state j'.state) (hF : F.Alike F') (hopens : F.Opens)
    (hindex : index.Alike ⟨m, framed, F⟩ ⟨m', framed', F'⟩ index')
    (hs : LogicalStream.Tied ⟨m, framed, F⟩ ⟨m', framed', F'⟩ stream stream') :
    Agree
      (fun f k f' k' => f.Alike f' ∧ Alike m framed m' framed' k.state k'.state)
      (fun e k e' k' => e.Alike e' ∧ Alike m framed m' framed' k.state k'.state)
      (loadFile index stream j) (loadFile index' stream' j') := by
  unfold loadFile
  rw [hindex.explicits, hindex.implicits, RecordIndex.isBroken, RecordIndex.isBroken, hindex.ending]
  refine agree_bind (agree_aside (Agree.mono
    (LogicalStream.Tied.agree_extractRecords hF hs hopens index.explicits) ?_ ?_))
  · rintro records ⟨u, notes⟩ records' ⟨u', notes'⟩ ⟨rfl, hu⟩
    refine agree_bind (Agree.mono
      (agree_of_concur (fun _ => Record.concur_objectSets records') h) ?_ fun _ _ _ _ => False.elim)
    rintro sets k sets' k' ⟨rfl, hk⟩
    replace hu : LogicalStream.Tied ⟨m, framed, F⟩ ⟨m', framed', F'⟩
      (Journalled.mk u k.notes).state (Journalled.mk u' k'.notes).state := hu
    refine agree_bind (agree_aside (Agree.mono
      (hu.agree_indexFrames hF hopens index.implicits) ?_ ?_))
    · rintro frames ⟨v, notes⟩ frames' ⟨v', notes'⟩ ⟨rfl, hv⟩
      refine agree_bind (agree_state.2 (agree_bind (agree_apart ?_)))
      rw [hk.registry]
      refine (Pool.concur_addSets sets' ⟨_, notes⟩ ⟨_, notes'⟩ rfl).mono ?_ fun _ _ _ _ => False.elim
      rintro _ ⟨pool, notes⟩ _ ⟨pool', notes'⟩ ⟨-, hpool⟩
      replace hpool : pool = pool' := hpool
      subst hpool
      simp only [hk.settings, hk.label]
      replace hk : Alike m framed m' framed' (Journalled.mk k.state notes).state
        (Journalled.mk k'.state notes').state := hk
      refine agree_bind (Agree.mono (agree_linkOnLoad hk ⟨v, _, _, _, _⟩ ⟨v', _, _, _, _⟩ rfl) ?_
        fun _ _ _ _ => False.elim)
      rintro g l g' l' ⟨hl, linked, rfl, rfl⟩
      refine ⟨⟨rfl, rfl, rfl, rfl, fun offsets notes notes' => ?_⟩,
        { hl with emitted := congrArg (· + 1) hk.emitted }⟩
      replace hv : LogicalStream.Tied ⟨m, framed, F⟩ ⟨m', framed', F'⟩
        (Journalled.mk v notes).state (Journalled.mk v' notes').state := hv
      exact hv.agree_tryRecords hF hopens offsets
    · rintro e p e' p' ⟨hkind, -⟩
      exact ⟨.format hkind, hk⟩
  · rintro e p e' p' ⟨hkind, -⟩
    exact ⟨.format hkind, h⟩

end

/-! ### Turns and calls -/

/-- From the first visible record on, the same is done. -/
theorem agree_indexAndLoad {stream stream' : LogicalStream}
    (h : Alike m framed m' framed' j.state j'.state) (hF : Matched m framed m' framed' F F')
    (hopens : F.Opens)
    (hs : LogicalStream.Twins ⟨m, framed, F⟩ ⟨m', framed', F'⟩ 0 stream stream')
    (hpasses : Ends (fun index _ => stream.origin.Passes index.resume) (fun _ _ => True)
      (LogicalStream.findRecords ⟨stream, j.notes⟩))
    (hpasses' : Ends (fun index _ => stream'.origin.Passes index.resume) (fun _ _ => True)
      (LogicalStream.findRecords ⟨stream', j'.notes⟩)) :
    Agree (fun r k r' k' => r.Alike r' ∧ Alike m framed m' framed' k.state k'.state)
      (fun e k e' k' => e.Alike e' ∧ Alike m framed m' framed' k.state k'.state)
      (indexAndLoad stream j) (indexAndLoad stream' j') := by
  unfold indexAndLoad
  refine agree_bind ((agree_indexRecords h hF hs hpasses hpasses').mono ?_ fun _ _ _ _ => id)
  rintro ⟨index, u⟩ k ⟨index', u'⟩ k' ⟨hk, hindex, htied⟩
  have hempty : index'.isEmpty = index.isEmpty := by
    rw [RecordIndex.isEmpty, RecordIndex.isEmpty, RecordIndex.size, RecordIndex.size,
      hindex.explicits, hindex.implicits]
  simp only [hempty]
  split
  · exact agree_bind ⟨.again, hk⟩
  · refine agree_bind ((agree_loadFile hk hF.alike hopens hindex htied).mono ?_ fun _ _ _ _ => id)
    rintro f k f' k' ⟨hfile, hk⟩
    exact ⟨.file hfile, hk⟩

/-- So it is from the search for the first visible record on. -/
theorem agree_locateAndLoad (h : Alike m framed m' framed' j.state j'.state)
    (hF : Matched m framed m' framed' F F') (ht : t.Delivers m framed F)
    (ht' : t'.Delivers m' framed' F') :
    Agree (fun r k r' k' => r.Alike r' ∧ Alike m framed m' framed' k.state k'.state)
      (fun e k e' k' => e.Alike e' ∧ Alike m framed m' framed' k.state k'.state)
      (locateAndLoad t j) (locateAndLoad t' j') := by
  unfold locateAndLoad
  refine agree_bind ((agree_locate h hF ht ht').mono ?_ fun _ _ _ _ => id)
  rintro found ⟨s, notes⟩ found' ⟨s', notes'⟩ ⟨h, hfound⟩
  match found, found' with
  | none, none => exact ⟨.finished, h⟩
  | some (p, u), some (p', u') =>
    obtain ⟨hm, hf, hm', hf', bytes, hp, hp', hheader⟩ := hfound
    obtain ⟨stream, hopen, hat, rfl, hfresh⟩ := openAt_fresh hm hf hp hheader
    obtain ⟨stream', hopen', hat', rfl, hfresh'⟩ := openAt_fresh hm' hf' hp' hheader
    simp only
    rw [hopen, hopen']
    exact agree_bind (agree_indexAndLoad h (hF.withBytes bytes) hheader ⟨hat, hat'⟩
      ((hfresh notes).mono (fun _ _ h => h.1) fun _ _ => id)
      ((hfresh' notes').mono (fun _ _ h => h.1) fun _ _ => id))
  | some _, none => exact hfound.elim
  | none, some _ => exact hfound.elim

/-- So it is from the storage unit label on. -/
theorem agree_labelAndLoad (h : Alike m framed m' framed' j.state j'.state)
    (hF : Matched m framed m' framed' F F') (ht : t.Delivers m framed F)
    (ht' : t'.Delivers m' framed' F') (hb : F.bytes ≠ []) :
    Agree (fun r k r' k' => r.Alike r' ∧ Alike m framed m' framed' k.state k'.state)
      (fun e k e' k' => e.Alike e' ∧ Alike m framed m' framed' k.state k'.state)
      (labelAndLoad t j) (labelAndLoad t' j') := by
  unfold labelAndLoad
  refine agree_bind ((agree_readLabel h hF ht ht' hb).mono ?_ fun _ _ _ _ => False.elim)
  rintro u ⟨s, notes⟩ u' ⟨s', notes'⟩ ⟨h, hu, hu'⟩
  have hG := hF.withBytes (StorageLabel.behind F.bytes)
  refine agree_bind ((agree_ahead hG hu hu').mono ?_ fun _ _ _ _ => False.elim)
  rintro ⟨a, v⟩ ⟨s, notes⟩ ⟨a', v'⟩ ⟨s', notes'⟩ ⟨rfl, rfl, hahead⟩
  cases hahead with
  | stop stop habreast => exact agree_stopAt h habreast stop
  | byte b _ hv hv' => exact agree_locateAndLoad h hG hv hv'

/-- **A turn keeps segmentations alike.** -/
theorem agree_turn (h : Alike m framed m' framed' j.state j'.state) (hdone : j.state.done = false) :
    Agree (fun r k r' k' => r.Alike r' ∧ Alike m framed m' framed' k.state k'.state)
      (fun e k e' k' => e.Alike e' ∧ Alike m framed m' framed' k.state k'.state)
      (turn j) (turn j') := by
  rw [turn_eq]
  refine agree_bind ((agree_openTrack h hdone).mono ?_ fun _ _ _ _ => False.elim)
  rintro t ⟨s, notes⟩ t' ⟨s', notes'⟩ ⟨rfl, rfl, F, F', hF, ht, ht'⟩
  replace h : Alike m framed m' framed' { j.state with openings := j.state.openings + 1 }
    { j'.state with openings := j'.state.openings + 1 } := { h with }
  refine agree_bind ((agree_ahead hF ht ht').mono ?_ fun _ _ _ _ => False.elim)
  rintro ⟨a, u⟩ ⟨s, notes⟩ ⟨a', u'⟩ ⟨s', notes'⟩ ⟨rfl, rfl, hahead⟩
  cases hahead with
  | stop stop habreast =>
    simp only
    split
    · exact agree_bind (agree_stopAt h habreast stop)
    · exact agree_stopAt h habreast stop
  | byte b hb hu hu' => exact agree_labelAndLoad h hF hu hu' hb

/-- What two calls return, where they return the same. -/
inductive CallAlike :
    Except LoadError (Option LogicalFile) → Except LoadError (Option LogicalFile) → Prop where
  /-- The same logical file. -/
  | file {f f' : LogicalFile} (alike : f.Alike f') : CallAlike (.ok (some f)) (.ok (some f'))
  /-- The end. -/
  | nothing : CallAlike (.ok none) (.ok none)
  /-- Failures of the same kind. -/
  | failure {e e' : LoadError} (alike : e.Alike e') : CallAlike (.error e) (.error e')

theorem agree_turns (h : Alike m framed m' framed' j.state j'.state) (most : Nat) :
    Agree
      (fun r k r' k' => CallAlike (.ok r) (.ok r') ∧ Alike m framed m' framed' k.state k'.state)
      (fun e k e' k' => e.Alike e' ∧ Alike m framed m' framed' k.state k'.state)
      (turns most j) (turns most j') := by
  induction most generalizing j j' with
  | zero => exact ⟨.nothing, h⟩
  | succ most ih =>
    rw [turns, bind_state, bind_state, h.done]
    cases hdone : j.state.done with
    | true => exact ⟨.nothing, h⟩
    | false =>
      refine agree_bind ((agree_turn h hdone).mono ?_ fun _ _ _ _ => id)
      rintro r k r' k' ⟨hr, hk⟩
      cases hr with
      | again => exact ih hk
      | finished => exact ⟨.nothing, hk⟩
      | file hfile => exact ⟨.file hfile, hk⟩

theorem agree_nextFile (h : Alike m framed m' framed' j.state j'.state) (hready : j.state.Ready)
    (hready' : j'.state.Ready) :
    Agree
      (fun r k r' k' => CallAlike (.ok r) (.ok r') ∧ Alike m framed m' framed' k.state k'.state)
      (fun e k e' k' => e.Alike e' ∧ Alike m framed m' framed' k.state k'.state)
      (nextFile j) (nextFile j') := by
  have hleft := j.state.turnsLeft_lt_size
  have hleft' := j'.state.turnsLeft_lt_size
  -- neither call runs into the bound on its turns, so both may have the same bound
  have hmax := Nat.lt_of_lt_of_le hleft (Nat.le_max_left _ (j'.state.source.image.size + 2))
  have hmax' := Nat.lt_of_lt_of_le hleft' (Nat.le_max_right (j.state.source.image.size + 2) _)
  have hturns := agree_turns h (max (j.state.source.image.size + 2) (j'.state.source.image.size + 2))
  rw [← turns_eq_of_lt hready hleft hmax, ← turns_eq_of_lt hready' hleft' hmax'] at hturns
  unfold nextFile
  refine agree_bind (agree_state.2 (agree_bind (agree_attempt (hturns.mono ?_ ?_))))
  · rintro r k r' k' ⟨hr, hk⟩
    exact ⟨hr, hk⟩
  · rintro e k e' k' ⟨he, hk⟩
    exact ⟨he, hk.finish _ _⟩

/-- **A call returns the same**, and the segmentations are alike behind it. -/
theorem Alike.call (h : Alike m framed m' framed' j.state j'.state) (hready : j.state.Ready)
    (hready' : j'.state.Ready) :
    CallAlike (Segmentation.call j).1 (Segmentation.call j').1 ∧
      Alike m framed m' framed' (Segmentation.call j).2.state (Segmentation.call j').2.state := by
  have hrun := agree_nextFile h hready hready'
  unfold Segmentation.call
  generalize nextFile j = r at hrun ⊢
  generalize nextFile j' = r' at hrun ⊢
  cases r with
  | ok found k =>
    cases r' with
    | ok found' k' => exact hrun
    | error e' k' => exact hrun.elim
  | error e k =>
    cases r' with
    | ok found' k' => exact hrun.elim
    | error e' k' => exact ⟨.failure hrun.1, hrun.2⟩

theorem Alike.after (h : Alike m framed m' framed' j.state j'.state) (hready : j.state.Ready)
    (hready' : j'.state.Ready) (n : Nat) :
    Alike m framed m' framed' (Segmentation.after j n).state (Segmentation.after j' n).state := by
  induction n with
  | zero => exact h
  | succ n ih => exact (ih.call (ready_after hready n) (ready_after hready' n)).2

/-- **All calls return the same.** -/
theorem Alike.results (h : Alike m framed m' framed' j.state j'.state) (hready : j.state.Ready)
    (hready' : j'.state.Ready) (n : Nat) : CallAlike (result j n) (result j' n) :=
  ((h.after hready hready' n).call (ready_after hready n) (ready_after hready' n)).1

end Segmentation

end WellLog
