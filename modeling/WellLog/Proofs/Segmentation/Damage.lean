import WellLog.Proofs.Record.Damage
import WellLog.Proofs.Segmentation.Progress
import WellLog.Proofs.Segmentation.Start
/-!
# Damage behind a logical file

Damaged data in a logical file ends its records and does not keep it from being returned.  What is
in front of a logical file is another matter.  Whoever looks there for a label and for the first
visible record may come upon a tape mark that is damaged, and then the call fails.

`Medium.Barred limit framed p e` says that a damaged mark bars the way from `p` to another logical
file, and that `e` is the failure.

* `Segmentation.ends_turn_barred` : **a turn behind the first logical file fails where the way is
  barred**, and nowhere else.
* `Segmentation.ends_load` : what is loaded is what the calls return, unless one of them fails.
* `Segmentation.error_iff_barred` : **so does every call**, and on a file that is no tape image none
  fails.
-/

namespace WellLog

/-! ### Where the way is barred -/

namespace Medium

/-- A damaged tape mark lies between a place and whatever logical file comes next. -/
inductive Barred (m : Medium) (framed : Bool) (limit : Nat) : Place → FormatError → Prop where
  /-- It lies at the place. -/
  | opening {p : Place} {e : FormatError} (feed : m.feedAt framed p = .error e) :
    Barred m framed limit p e
  /-- It lies behind bytes that do not decide what comes next. -/
  | probing {p : Place} {F : Feed} {x : IoError} (feed : m.feedAt framed p = .ok F)
    (ending : F.ending = .failed x) (undecided : F.Undecided limit) :
    Barred m framed limit p (.io x)
  /-- It lies behind a file mark, with nothing or a label in front of that. -/
  | fileMark {p q : Place} {F : Feed} {e : FormatError} (feed : m.feedAt framed p = .ok F)
    (nothing : StorageLabel.behind F.bytes = []) (ending : F.ending = .stopped .fileMark q)
    (behind : Barred m framed limit q e) : Barred m framed limit p e

variable {m : Medium} {framed : Bool} {limit : Nat} {p q : Place} {F : Feed} {e e' : FormatError}

theorem barred_iff_of_feedAt (h : m.feedAt framed p = .ok F) :
    m.Barred framed limit p e ↔
      (∃ x, F.ending = .failed x ∧ F.Undecided limit ∧ e = .io x) ∨
        ∃ q, StorageLabel.behind F.bytes = [] ∧ F.ending = .stopped .fileMark q ∧
          m.Barred framed limit q e := by
  constructor
  · intro hbarred
    cases hbarred with
    | opening feed =>
      rw [h] at feed
      cases feed
    | probing feed ending undecided =>
      rw [h] at feed
      cases feed
      exact .inl ⟨_, ending, undecided, rfl⟩
    | fileMark feed nothing ending behind =>
      rw [h] at feed
      cases feed
      exact .inr ⟨_, nothing, ending, behind⟩
  · rintro (⟨x, hending, hundecided, rfl⟩ | ⟨q, hnothing, hending, hbehind⟩)
    · exact .probing h hending hundecided
    · exact .fileMark h hnothing hending hbehind

/-- The way is barred by one mark only. -/
theorem Barred.unique (h : m.Barred framed limit p e) (h' : m.Barred framed limit p e') : e = e' := by
  induction h with
  | opening feed =>
    cases h' with
    | opening feed' =>
      rw [feed] at feed'
      cases feed'
      rfl
    | probing feed' | fileMark feed' =>
      rw [feed] at feed'
      cases feed'
  | probing feed ending =>
    obtain ⟨x, hx, -, rfl⟩ | ⟨q, -, hq, -⟩ := (barred_iff_of_feedAt feed).1 h'
    · rw [ending] at hx
      cases hx
      rfl
    · rw [ending] at hq
      cases hq
  | fileMark feed nothing ending behind ih =>
    obtain ⟨x, hx, -, rfl⟩ | ⟨q, -, hq, hbehind⟩ := (barred_iff_of_feedAt feed).1 h'
    · rw [ending] at hx
      cases hx
    · rw [ending] at hq
      cases hq
      exact ih hbehind

/-- Where every byte is data, nothing bars the way. -/
theorem not_barred_of_plain (hfault : m.manner.fault = none) : ¬ m.Barred false limit p e := by
  have hfeed : m.feedAt false p = .ok (m.plainFeed (p.offset + p.skip)) := rfl
  rw [barred_iff_of_feedAt hfeed, plainFeed, endingAt, failure_of_faultless hfault]
  rintro (⟨x, hx, -⟩ | ⟨q, -, hq, -⟩)
  · cases hx
  · cases hq

end Medium

namespace Segmentation

variable {m : Medium} {F : Feed} {track : Track} {s s' s'' : Segmentation}
  {j : Journalled Segmentation}

/-- The way to another logical file is barred. -/
def Barred (s : Segmentation) (e : FormatError) : Prop :=
  s.done = false ∧
    (Medium.ofBytes s.source.image).Barred s.framed s.settings.searchLimit s.next e

/-- `s'` is `s` with the same physical file and no fewer logical files. -/
structure Precedes (s s' : Segmentation) : Prop where
  /-- The physical file is the same. -/
  source : s'.source = s.source
  /-- So is the framing. -/
  framed : s'.framed = s.framed
  /-- And the limit of the search for visible records. -/
  limit : s'.settings.searchLimit = s.settings.searchLimit
  /-- No logical file is taken back. -/
  emitted : s.emitted ≤ s'.emitted

theorem Precedes.refl (s : Segmentation) : s.Precedes s := ⟨rfl, rfl, rfl, Nat.le_refl _⟩

theorem Precedes.trans (h : s.Precedes s') (h' : s'.Precedes s'') : s.Precedes s'' :=
  ⟨h'.source.trans h.source, h'.framed.trans h.framed, h'.limit.trans h.limit,
    Nat.le_trans h.emitted h'.emitted⟩

theorem not_barred_of_done {e : FormatError} (h : s.done = true) : ¬ s.Barred e := by
  intro hbarred
  rw [hbarred.1] at h
  cases h

/-- A logical file was returned, so there can be memory for the search that found it. -/
structure Productive (s : Segmentation) : Prop where
  /-- The logical file is counted. -/
  emitted : s.emitted ≠ 0
  /-- The window of the search fits into memory. -/
  fits : VisibleHeader.WindowFits s.settings.searchLimit

theorem Precedes.productive (h : s.Precedes s') (hs : s.Productive) : s'.Productive where
  emitted hzero := hs.emitted (Nat.le_zero.1 (hzero ▸ h.emitted))
  fits := h.limit ▸ hs.fits

/-- What a turn leads to, and whether the way was barred. -/
def Passes (s s' : Segmentation) : Turn → Prop
  | .again => ∀ e, s.Barred e ↔ s'.Barred e
  | .finished => ∀ e, ¬ s.Barred e
  | .file _ => (∀ e, ¬ s.Barred e) ∧ s'.Productive

/-- A turn that fails: the way is barred, or there was no logical file before. -/
def Foretells (s : Segmentation) (e : LoadError) : Prop :=
  (∃ x, e = .format x ∧ s.Barred x) ∨ ¬ s.Productive

/-! ### One turn -/

/-- Every reader of a source without faults finds what lies in the image. -/
theorem feedAt_of_reader {source : Source} {n : Nat} {r : Reader} (h : source.Faultless)
    (hr : source.reader n = .ok r) :
    r.medium.manner.fault = none ∧ r.medium.feedAt = (Medium.ofBytes source.image).feedAt := by
  obtain ⟨manner, hmanner, hfault⟩ := h n
  rw [Source.reader, hmanner] at hr
  cases hr
  exact ⟨hfault, Medium.feedAt_of_faultless hfault⟩

/-- What a source without faults sees lies in the image. -/
theorem Sees.of_faultless (h : s.Sees m F) (hsource : s.source.Faultless) :
    m.manner.fault = none ∧ (Medium.ofBytes s.source.image).feedAt s.framed s.next = .ok F := by
  obtain ⟨r, hreader, rfl⟩ := h.reader
  obtain ⟨hfault, himage⟩ := feedAt_of_reader hsource hreader
  exact ⟨hfault, himage ▸ h.feed⟩

/-- What decides what comes next leaves nothing in the way. -/
theorem not_barred_of_decided (hsource : s.source.Faultless) (hsees : s.Sees m F)
    (h : F.Decided s.settings.searchLimit) (e : FormatError) : ¬ s.Barred e := by
  rintro ⟨-, hbarred⟩
  obtain ⟨x, hx, hundecided, -⟩ | ⟨q, hnothing, -⟩ :=
    (Medium.barred_iff_of_feedAt (hsees.of_faultless hsource).2).1 hbarred
  · exact h.delivered x hx hundecided
  · exact h.behind hnothing

/-- A source without faults gets stuck at damaged marks. -/
theorem Stuck.foretells {e : LoadError} (h : s.Stuck e) (hsource : s.source.Faultless)
    (hdone : s.done = false) : s.Foretells e := by
  cases h with
  | closed reader =>
    obtain ⟨manner, hmanner, -⟩ := hsource s.openings
    rw [Source.reader, hmanner] at reader
    cases reader
  | opening reader feed =>
    obtain ⟨-, himage⟩ := feedAt_of_reader hsource reader
    exact .inl ⟨_, rfl, hdone, .opening (himage ▸ feed)⟩
  | probing sees ending undecided =>
    exact .inl ⟨_, rfl, hdone, .probing (sees.of_faultless hsource).2 ending undecided⟩
  | tooWide large => exact .inr fun h => large h.fits
  | nothing first => exact .inr fun h => h.emitted first

/-- A turn that stops in front of a file mark or at the end of the medium. -/
theorem ends_stopAt_barred {stop : Stop} (hsource : s.source.Faultless) (hdone : s.done = false)
    (hsees : s.Sees m F) (hnothing : StorageLabel.behind F.bytes = [])
    (hending : F.ending = .stopped stop track.place) (hs : s.Precedes j.state)
    (hj : j.state.done = false) :
    Ends (fun r j' => s.Precedes j'.state ∧ s.Passes j'.state r) (fun e _ => s.Foretells e)
      (stopAt stop track j) := by
  have hbarred : ∀ e, s.Barred e ↔ stop = .fileMark ∧
      (Medium.ofBytes s.source.image).Barred s.framed s.settings.searchLimit track.place e := by
    intro e
    rw [Barred, Medium.barred_iff_of_feedAt (hsees.of_faultless hsource).2, hending]
    simp [hdone, hnothing]
  rw [ends_stopAt]
  cases stop with
  | fileMark =>
    refine ⟨⟨hs.source, hs.framed, hs.limit, hs.emitted⟩, fun e => ?_⟩
    rw [hbarred, Barred, hs.source, hs.framed, hs.limit]
    simp [hj]
  | mediumEnd =>
    refine ⟨⟨hs.source, hs.framed, hs.limit, hs.emitted⟩, fun e he => ?_⟩
    cases ((hbarred e).1 he).1

/-- Behind the first visible record, nothing fails. -/
theorem ends_indexAndLoad_of_faultless {framed : Bool} {stream : LogicalStream}
    (hfault : m.manner.fault = none) (hfresh : stream.Fresh m framed F) (hs : s.Precedes j.state)
    (hfits : VisibleHeader.WindowFits s.settings.searchLimit) (hclear : ∀ e, ¬ s.Barred e) :
    Ends (fun r j' => s.Precedes j'.state ∧ s.Passes j'.state r) (fun _ _ => False)
      (indexAndLoad stream j) := by
  have hscan : Ends
      (fun index p => stream.origin.Passes index.resume ∧
        (index.isEmpty = true → index.isBroken = true) ∧ p.state.Anchored m framed F)
      (fun _ _ => False) (LogicalStream.findRecords ⟨stream, j.notes⟩) := by
    have htiled := hfresh.position.ends_findRecords_tiled hfault j.notes
    refine ((hfresh.scan j.notes).and htiled).mono ?_ fun _ _ h => h.2
    rintro index q ⟨⟨hpasses, hempty⟩, -, -, -, -, hq⟩
    exact ⟨hpasses, hempty, hq⟩
  unfold indexAndLoad
  rw [ends_bind]
  refine (ends_indexRecords hscan).mono ?_ fun e j₁ ⟨_, _, _, _, h⟩ => h
  rintro ⟨index, stream'⟩ j₁ ⟨-, -, ⟨notes, hempty, hanchored⟩, hstate⟩
  have hs₁ : s.Precedes j₁.state := by
    rw [hstate]
    exact ⟨hs.source, hs.framed, hs.limit, hs.emitted⟩
  simp only
  split
  · -- an empty file is a broken one, so there is no further turn
    rename_i hnone
    rw [ends_bind, ends_note, ends_pure]
    have hlast : j₁.state.done = true := by
      rw [hstate]
      simp [hempty hnone]
    exact ⟨hs₁, fun e => iff_of_false (hclear e) (not_barred_of_done hlast)⟩
  · rw [ends_bind]
    refine (ends_loadFile (E := fun _ => False) (R := fun _ t => t.Anchored m framed F)
      (Q := fun _ _ _ => True) (LogicalStream.Anchored.ends_extractRecords hfault
        (j := ⟨stream', j₁.notes⟩) hanchored hfresh.opens _) ?_).mono ?_ ?_
    · intro records q hq
      exact (hq.ends_indexFrames hfault hfresh.opens _).mono (fun _ _ _ => trivial) fun _ _ => id
    · rintro f j₂ ⟨-, -, -, -, hstate'⟩
      rw [ends_pure, hstate']
      exact ⟨⟨hs₁.source, hs₁.framed, hs₁.limit, Nat.le_succ_of_le hs₁.emitted⟩, hclear,
        Nat.succ_ne_zero _, hs₁.limit ▸ hfits⟩
    · rintro e j₂ ⟨-, x, -, h⟩
      exact h

/-- **One turn**: behind the first logical file it fails where the way is barred, and nowhere
else. -/
theorem ends_turn_barred (hsource : j.state.source.Faultless) (h : j.state.Ready)
    (hdone : j.state.done = false) :
    Ends (fun r j' => j.state.Precedes j'.state ∧ j.state.Passes j'.state r)
      (fun e _ => j.state.Foretells e) (turn j) := by
  have hopened : ∀ label, j.state.Precedes (j.state.opened label) := fun _ =>
    ⟨rfl, rfl, rfl, Nat.le_refl _⟩
  refine Covers.ends_turn ?_ h hdone
  exact
    { stuck := fun _ _ _ hstuck => hstuck.foretells hsource hdone
      stop := fun _ _ _ _ label _ hsees hnothing hending _ =>
        ends_stopAt_barred hsource hdone hsees hnothing hending (hopened label) hdone
      missing := fun _ _ _ _ _ hsees hdecided _ =>
        ⟨⟨rfl, rfl, rfl, Nat.le_refl _⟩, not_barred_of_decided hsource hsees hdecided⟩
      found := fun _ _ _ _ label _ hsees hdecided _ hfresh =>
        (ends_indexAndLoad_of_faultless (hsees.of_faultless hsource).1 hfresh (hopened label)
          hdecided.fits (not_barred_of_decided hsource hsees hdecided)).mono (fun _ _ => id)
          fun _ _ => False.elim }

/-! ### The calls -/

theorem ends_turns_barred {most : Nat} (hsource : j.state.source.Faultless) (h : j.state.Ready)
    (hm : j.state.turnsLeft < most) :
    Ends
      (fun found j' => j.state.Precedes j'.state ∧ (∀ e, ¬ j.state.Barred e) ∧
        (found.isSome → j'.state.Productive))
      (fun e _ => j.state.Foretells e) (turns most j) := by
  induction most generalizing j with
  | zero => exact absurd hm (Nat.not_lt_zero _)
  | succ most ih =>
    rw [turns, bind_state]
    cases hdone : j.state.done with
    | true => exact ⟨.refl _, fun _ => not_barred_of_done hdone, fun h => by cases h⟩
    | false =>
      rw [if_neg (by decide), ends_bind]
      refine ((ends_turn_barred hsource h hdone).and (ends_turn h hdone)).mono ?_ fun _ _ he => he.1
      rintro r j' ⟨⟨hprecedes, hpasses⟩, hfollows, hready, hachieves⟩
      cases r with
      | again =>
        -- the way was barred before if it is barred now, and so is every failure further on
        have hlt := turnsLeft_lt hfollows hdone hachieves
        refine (ih (hprecedes.source ▸ hsource) hready (by omega)).mono ?_ ?_
        · rintro found j'' ⟨hprecedes', hclear, hfile⟩
          exact ⟨hprecedes.trans hprecedes', fun e he => hclear e ((hpasses e).1 he), hfile⟩
        · rintro e j'' (⟨x, rfl, hbarred⟩ | hunproductive)
          · exact .inl ⟨x, rfl, (hpasses x).2 hbarred⟩
          · exact .inr fun hs => hunproductive (hprecedes.productive hs)
      | finished => exact ⟨hprecedes, hpasses, fun h => by cases h⟩
      | file f => exact ⟨hprecedes, hpasses.1, fun _ => hpasses.2⟩

theorem call_barred (hsource : j.state.source.Faultless) (h : j.state.Ready) :
    match call j with
    | (.ok found, j') => j.state.Precedes j'.state ∧ (∀ e, ¬ j.state.Barred e) ∧
      (found.isSome → j'.state.Productive)
    | (.error e, j') => j.state.Foretells e ∧ j'.state.done = true :=
  call_of_ends (E := fun e j' => j.state.Foretells e ∧ j'.state.done = true)
    (ends_nextFile ((ends_turns_barred hsource h j.state.turnsLeft_lt_size).mono (fun _ _ => id)
      fun _ _ he => ⟨he, rfl⟩))

/-- **One call** behind the first logical file fails where the way is barred, and nowhere else. -/
theorem call_error_iff (hsource : j.state.source.Faultless) (h : j.state.Ready)
    (hproductive : j.state.Productive) (e : LoadError) :
    (call j).1 = .error e ↔ ∃ x, e = .format x ∧ j.state.Barred x := by
  have hcall := call_barred hsource h
  cases hrun : call j with
  | mk outcome j' =>
    rw [hrun] at hcall
    cases outcome with
    | ok found =>
      refine iff_of_false (fun h => by cases h) ?_
      rintro ⟨x, -, hbarred⟩
      exact hcall.2.1 x hbarred
    | error e' =>
      obtain ⟨x, rfl, hbarred⟩ := hcall.1.resolve_right (not_not_intro hproductive)
      constructor
      · rintro ⟨⟩
        exact ⟨x, rfl, hbarred⟩
      · rintro ⟨y, rfl, hbarred'⟩
        rw [hbarred.2.unique hbarred'.2]

/-- After some calls there is nothing more, or the physical file is still the same, and a logical file
that was returned is not forgotten. -/
theorem live_after (hsource : j.state.source.Faultless) (h : j.state.Ready) (n : Nat) :
    (after j n).state.done = true ∨ j.state.Precedes (after j n).state ∧
      ∀ i < n, ∀ f, result j i = .ok (some f) → (after j n).state.Productive := by
  -- a failure is the last thing that happens, so the case that there is nothing more is stable
  induction n with
  | zero => exact .inr ⟨.refl _, fun i hi => absurd hi (Nat.not_lt_zero i)⟩
  | succ n ih =>
    rw [after]
    obtain hdone | ⟨hprecedes, hproductive⟩ := ih
    · rw [call_of_done hdone]
      exact .inl hdone
    · have hcall := call_barred (hprecedes.source ▸ hsource) (ready_after h n)
      have hlast : ∀ f, result j n = .ok (some f) → (call (after j n)).1 = .ok (some f) :=
        fun _ => id
      cases hrun : call (after j n) with
      | mk outcome j' =>
        rw [hrun] at hcall hlast
        cases outcome with
        | error e => exact .inl hcall.2
        | ok found =>
          refine .inr ⟨hprecedes.trans hcall.1, fun i hi f hf => ?_⟩
          obtain hi | rfl := Nat.lt_succ_iff_lt_or_eq.1 hi
          · exact hcall.1.productive (hproductive i hi f hf)
          · cases hlast f hf
            exact hcall.2.2 rfl

/-- **Every call** behind the first logical file fails where the way is barred, and nowhere else. -/
theorem result_error_iff (hsource : j.state.source.Faultless) (h : j.state.Ready) {i n : Nat}
    {f : LogicalFile} (hf : result j i = .ok (some f)) (hi : i < n) (e : LoadError) :
    result j n = .error e ↔ ∃ x, e = .format x ∧ (after j n).state.Barred x := by
  obtain hdone | ⟨hprecedes, hproductive⟩ := live_after hsource h n
  · rw [result, call_of_done hdone]
    refine iff_of_false (fun h => by cases h) ?_
    rintro ⟨x, -, hbarred⟩
    exact not_barred_of_done hdone hbarred
  · exact call_error_iff (hprecedes.source ▸ hsource) (ready_after h n) (hproductive i hi f hf) e

/-! ### All files at once -/

/-- The files that are returned one after the other, unless a call fails. -/
theorem ends_files (h : j.state.Ready) (most : Nat) :
    Ends (fun files _ => ∀ n < most, result j n = .ok files[n]?)
      (fun e _ => ∃ n < most, result j n = .error e) (files most j) := by
  induction most generalizing j with
  | zero => exact fun n hn => absurd hn (Nat.not_lt_zero n)
  | succ most ih =>
    have hprogress := (call_progress h).2.1
    rw [files, ends_bind]
    cases hrun : nextFile j with
    | error e j' =>
      have hfirst : call j = (.error e, j') := by rw [call, hrun]
      exact ⟨0, Nat.succ_pos _, congrArg Prod.fst hfirst⟩
    | ok found j' =>
      have hfirst : call j = (.ok found, j') := by rw [call, hrun]
      rw [hfirst] at hprogress
      have hzero : result j 0 = .ok found := congrArg Prod.fst hfirst
      cases found with
      | none =>
        intro n _
        cases n with
        | zero => exact hzero
        | succ n => exact (end_of_result h (fun f hf => by cases hzero.symm.trans hf) n.succ_pos).2
      | some f =>
        have hnext : ∀ n, result j (n + 1) = result j' n := by
          intro n
          rw [Nat.add_comm, result_add, after, after, hfirst]
        rw [ends_ok, ends_bind]
        refine (ih hprogress).mono ?_ ?_
        · intro fs j'' hfs n hn
          cases n with
          | zero => exact hzero
          | succ n => exact (hnext n).trans (hfs n (Nat.lt_of_succ_lt_succ hn))
        · rintro e j'' ⟨n, hn, he⟩
          exact ⟨n + 1, Nat.succ_lt_succ hn, (hnext n).trans he⟩

/-- **What is loaded is what the calls return**, unless one of them fails.  Then it is lost. -/
theorem ends_load {source : Source} {settings : LoadSettings} {registry : Registry}
    {j : Journalled Unit} {s : Segmentation} {k : Journalled Unit}
    (hstart : start source settings registry j = .ok s k) (h : s.Ready) :
    Ends (fun files _ => ∀ n ≤ source.image.size, result ⟨s, k.notes⟩ n = .ok files[n]?)
      (fun e _ => ∃ n ≤ source.image.size, result ⟨s, k.notes⟩ n = .error e)
      (load source settings registry j) := by
  unfold load
  rw [ends_bind, hstart, ends_ok, ends_bind, ends_apart]
  refine (ends_files (j := ⟨s, k.notes⟩) h _).mono ?_ ?_
  · exact fun files _ hfiles n hn => hfiles n (Nat.lt_succ_of_le hn)
  · rintro e _ ⟨n, hn, he⟩
    exact ⟨n, Nat.le_of_lt_succ hn, he⟩

/-- **A call behind the first logical file fails where a damaged tape mark bars the way to another
one**, and nowhere else, on every physical file that can be read.  On one that is no tape image, none
fails.  What is loaded at once is what the calls return, and nothing if one of them fails. -/
theorem error_iff_barred {source : Source} (h : source.Faultless) (settings : LoadSettings)
    (registry : Registry) (j : Journalled Unit) :
    Ends
      (fun s k =>
        (∀ i n f, result ⟨s, k.notes⟩ i = .ok (some f) → i < n →
          (∀ e, result ⟨s, k.notes⟩ n = .error e ↔
            ∃ x, e = .format x ∧ (after ⟨s, k.notes⟩ n).state.Barred x) ∧
          (s.framed = false → ∃ found, result ⟨s, k.notes⟩ n = .ok found)) ∧
        Ends (fun files _ => ∀ n ≤ source.image.size, result ⟨s, k.notes⟩ n = .ok files[n]?)
          (fun e _ => ∃ n ≤ source.image.size, result ⟨s, k.notes⟩ n = .error e)
          (load source settings registry j))
      (fun _ _ => False) (start source settings registry j) := by
  obtain ⟨manner, hmanner, hfault⟩ := h 0
  obtain ⟨s, k, hstart, hs, -⟩ := (ends_start_of_manner hmanner hfault settings registry j).exists_ok
  have hready : s.Ready := by
    rw [hs]
    exact fun _ _ => .inl rfl
  have hsource : s.source = source := by rw [hs]
  rw [hstart]
  refine ⟨fun i n f hf hi => ?_, ends_load hstart hready⟩
  have herror := result_error_iff (j := ⟨s, k.notes⟩) (hsource ▸ h) hready hf hi
  refine ⟨herror, fun hplain => ?_⟩
  cases hresult : result ⟨s, k.notes⟩ n with
  | ok found => exact ⟨found, rfl⟩
  | error e =>
    obtain ⟨x, -, -, hbarred⟩ := (herror e).1 hresult
    have hframed := (follows_after (j := ⟨s, k.notes⟩) hready (Nat.zero_le n)).framed
    rw [hframed] at hbarred
    simp only [after, hplain] at hbarred
    exact absurd hbarred (Medium.not_barred_of_plain rfl)

/-- A tape image with a logical file of one record and a file mark, which is padded with zeros. -/
def paddedTape : Array UInt8 :=
  (Image.tape [.record ([0, 20, 0xFF, 1] ++ [0, 16, 0, 0] ++ List.replicate 12 0), .fileMark] ++
    List.replicate 12 0).toArray

theorem error_iff_barred_paddedTape :
    Ends
      (fun s k =>
        (∀ i n f, result ⟨s, k.notes⟩ i = .ok (some f) → i < n →
          (∀ e, result ⟨s, k.notes⟩ n = .error e ↔
            ∃ x, e = .format x ∧ (after ⟨s, k.notes⟩ n).state.Barred x) ∧
          (s.framed = false → ∃ found, result ⟨s, k.notes⟩ n = .ok found)) ∧
        Ends (fun files _ => ∀ n ≤ paddedTape.size, result ⟨s, k.notes⟩ n = .ok files[n]?)
          (fun e _ => ∃ n ≤ paddedTape.size, result ⟨s, k.notes⟩ n = .error e)
          (load (.ofBytes paddedTape) {} .empty ⟨(), #[]⟩))
      (fun _ _ => False) (start (.ofBytes paddedTape) {} .empty ⟨(), #[]⟩) :=
  error_iff_barred (fun _ => ⟨.plain, rfl, rfl⟩) {} .empty ⟨(), #[]⟩

/-- The zeros are no tape mark.  The logical file in front of them is read, and then it is lost. -/
theorem error_paddedTape :
    Ends
      (fun s k =>
        (∃ f, result ⟨s, k.notes⟩ 0 = .ok (some f) ∧ f.broken = false) ∧
        result ⟨s, k.notes⟩ 1 = .error (.format (.defect (.tapeMark 44 0 0 0))))
      (fun _ _ => False) (start (.ofBytes paddedTape) {} .empty ⟨(), #[]⟩) ∧
    Ends (fun _ _ => False) (fun e _ => e = .format (.defect (.tapeMark 44 0 0 0)))
      (load (.ofBytes paddedTape) {} .empty ⟨(), #[]⟩) := by
  -- logical files cannot be compared, so only what is asked of them is evaluated
  have hcalls : Ends
      (fun s k =>
        (result ⟨s, k.notes⟩ 0).map (·.map (·.broken)) = .ok (some false) ∧
        (result ⟨s, k.notes⟩ 1).map (·.map (·.broken)) =
          .error (.format (.defect (.tapeMark 44 0 0 0))))
      (fun _ _ => False) (start (.ofBytes paddedTape) {} .empty ⟨(), #[]⟩) := by decide +kernel
  refine ⟨hcalls.mono ?_ fun _ _ => id, by decide +kernel⟩
  rintro s k ⟨hfile, herror⟩
  constructor
  · cases hresult : result ⟨s, k.notes⟩ 0 with
    | error e =>
      rw [hresult] at hfile
      cases hfile
    | ok found =>
      rw [hresult] at hfile
      cases found with
      | none => cases hfile
      | some f =>
        simp only [Except.map, Option.map_some, Except.ok.injEq, Option.some.injEq] at hfile
        exact ⟨f, rfl, hfile⟩
  · exact eq_error_of_map herror

end Segmentation

end WellLog
