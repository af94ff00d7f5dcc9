import WellLog.Proofs.Segmentation.Steps
/-!
# Turns go forward

Whatever the bytes are, however they are read and whatever fails, every turn of a segmentation takes
up where it can be taken up, and ends behind the place where it began.

The invariant is `Segmentation.Ready`: the next place is one that a track can be opened at.  One
turn keeps it (`Segmentation.ends_turn`), and so does every run of turns.

* `Segmentation.Covers.ends_turn` : **what a turn can come upon**.  Everything that holds of all turns
  is shown for these few cases.
* `Segmentation.turns_eq_of_lt` : no call runs into the bound on its turns.
* `Segmentation.turns_eq_uncheckedTurns` : no turn finds that a logical file does not advance the
  read position.
-/

namespace WellLog

/-- The bytes alone do not say whether there is a label, whether anything is behind it, or where the
first visible record is. -/
def Feed.Undecided (limit : Nat) (F : Feed) : Prop :=
  F.bytes.length < StorageLabel.size ∨ StorageLabel.behind F.bytes = [] ∨
    (StorageLabel.behind F.bytes).length < VisibleHeader.window limit ∧
      headerIn (VisibleHeader.window limit) (StorageLabel.behind F.bytes) = none

/-- There is more than a label, there can be memory for the search, and whatever has to be searched is
delivered. -/
structure Feed.Decided (limit : Nat) (F : Feed) : Prop where
  /-- There can be memory for the window. -/
  fits : VisibleHeader.WindowFits limit
  /-- A byte is behind the label. -/
  behind : StorageLabel.behind F.bytes ≠ []
  /-- No failure comes before the bytes say what is next. -/
  delivered : ∀ x, F.ending = .failed x → ¬ F.Undecided limit

/-- A stream in front of the first visible record of a logical file. -/
structure LogicalStream.Fresh (m : Medium) (framed : Bool) (F : Feed) (stream : LogicalStream) :
    Prop where
  /-- What lies from there on. -/
  feed : m.feedAt framed stream.origin = .ok F
  /-- The visible record. -/
  opens : F.Opens
  /-- Nothing is read yet. -/
  position : stream.At m framed F 0
  /-- A scan ends behind the place where it begins, and finds records, unless there are none. -/
  scan : ∀ notes, Ends
    (fun index _ => stream.origin.Passes index.resume ∧ (index.isEmpty = true → index.isBroken = true))
    (fun _ _ => True) (findRecords ⟨stream, notes⟩)

/-- What a search does not miss for a failure of the medium is decided. -/
theorem Feed.Decided.of_missed {limit : Nat} {F : Feed} (offset : Nat)
    (hfits : VisibleHeader.WindowFits limit) (hbehind : StorageLabel.behind F.bytes ≠ [])
    (hshort : F.bytes.length < StorageLabel.size → ∃ stop place, F.ending = .stopped stop place)
    (hsearch : headerIn (VisibleHeader.window limit) (StorageLabel.behind F.bytes) = none →
      ∀ x, missed limit offset ⟨StorageLabel.behind F.bytes, F.ending⟩ ≠ .io x) : F.Decided limit where
  fits := hfits
  behind := hbehind
  delivered := by
    rintro x hx (hlt | hnil | ⟨hlt, hnone⟩)
    · obtain ⟨stop, place, hstop⟩ := hshort hlt
      rw [hx] at hstop
      cases hstop
    · exact hbehind hnil
    · exact hsearch hnone x (missed_eq_io_iff.2 ⟨hlt, hx⟩)

namespace Segmentation

/-- The next place, if there is a next turn, can be taken up. -/
def Ready (s : Segmentation) : Prop :=
  s.done = false → s.framed = true → s.next.Held (.ofBytes s.source.image)

/-- `s'` is the segmentation `s` later on. -/
structure Follows (s s' : Segmentation) : Prop where
  /-- The physical file is the same. -/
  source : s'.source = s.source
  /-- So is the framing. -/
  framed : s'.framed = s.framed
  /-- The next place does not go back. -/
  next : s.next.Reaches s'.next

/-- A logical file that lies between the next places of `s` and `s'`, inside the image. -/
structure Between (s s' : Segmentation) (f : LogicalFile) : Prop where
  /-- It begins at the next place or behind. -/
  reaches : s.next.Reaches f.place
  /-- The next place is behind its beginning. -/
  passes : f.place.Passes s'.next
  /-- Only a broken file is the last one for sure. -/
  done : s'.done = f.broken
  /-- It begins inside the image. -/
  offset_le : f.place.offset ≤ s.source.image.size
  /-- So does what is skipped. -/
  skip_le : f.place.skip ≤ s.source.image.size

variable {s s' s'' : Segmentation} {j : Journalled Segmentation} {m : Medium} {F : Feed}
  {track : Track}

theorem Follows.refl (s : Segmentation) : s.Follows s := ⟨rfl, rfl, .refl _⟩

theorem Follows.trans (h : s.Follows s') (h' : s'.Follows s'') : s.Follows s'' :=
  ⟨h'.source.trans h.source, h'.framed.trans h.framed, h.next.trans h'.next⟩

theorem Between.of_follows {f : LogicalFile} (h : s.Follows s') (hf : s'.Between s'' f) :
    s.Between s'' f where
  reaches := h.next.trans hf.reaches
  passes := hf.passes
  done := hf.done
  offset_le := h.source ▸ hf.offset_le
  skip_le := h.source ▸ hf.skip_le

/-- What a turn achieves. -/
def Achieves (s s' : Segmentation) : Turn → Prop
  | .again => s'.done = true ∨ s.next.offset + TapeMark.size ≤ s'.next.offset ∧
    s.next.offset + TapeMark.size ≤ s.source.image.size
  | .finished => s'.done = true
  | .file f => s.Between s' f

/-! ### What a turn comes upon -/

/-- `F` lies ahead in `m`, which is the medium of the next turn. -/
structure Sees (s : Segmentation) (m : Medium) (F : Feed) : Prop where
  /-- The source is opened. -/
  reader : ∃ r, s.source.reader s.openings = .ok r ∧ r.medium = m
  /-- What lies from the next place on. -/
  feed : m.feedAt s.framed s.next = .ok F

/-- Why a turn fails before it has found a visible record. -/
inductive Stuck (s : Segmentation) : LoadError → Prop where
  /-- The source cannot be opened. -/
  | closed {x : IoError} (reader : s.source.reader s.openings = .error x) : Stuck s (.io x)
  /-- The next place cannot be taken up. -/
  | opening {r : Reader} {x : FormatError} (reader : s.source.reader s.openings = .ok r)
    (feed : r.medium.feedAt s.framed s.next = .error x) : Stuck s (.format x)
  /-- A read fails before the bytes say what is next. -/
  | probing {m : Medium} {F : Feed} {x : IoError} (sees : s.Sees m F) (ending : F.ending = .failed x)
    (undecided : F.Undecided s.settings.searchLimit) : Stuck s (.format (.io x))
  /-- There can be no memory for the search. -/
  | tooWide (large : ¬ VisibleHeader.WindowFits s.settings.searchLimit) :
    Stuck s (.tooWide s.settings.searchLimit)
  /-- There is no logical file at all. -/
  | nothing {x : FormatError} (first : s.emitted = 0) : Stuck s (.format x)

/-- The segmentation in a turn that has opened the source. -/
def opened (s : Segmentation) (label : Option StorageLabel) : Segmentation :=
  { s with openings := s.openings + 1, label := label }

/-- Every reader of a source reads its image. -/
theorem bytes_of_reader {source : Source} {n : Nat} {r : Reader} (h : source.reader n = .ok r) :
    r.medium.bytes = source.image := by
  unfold Source.reader at h
  cases hmanner : source.manner n with
  | error e =>
    rw [hmanner] at h
    cases h
  | ok manner =>
    rw [hmanner] at h
    cases h
    rfl

theorem held_iff {p : Place} {image : Array UInt8} (h : m.bytes = image) :
    p.Held m ↔ p.Held (.ofBytes image) := by
  subst h
  exact Iff.rfl

theorem Sees.bytes (h : s.Sees m F) : m.bytes = s.source.image := by
  obtain ⟨r, hreader, rfl⟩ := h.reader
  exact bytes_of_reader hreader

/-- A stream that is opened is in front of its first visible record, and its scan ends behind the
place where it begins. -/
theorem openAt_fresh {framed : Bool} {p : Place} (hm : track.reader.medium = m)
    (hf : track.isFramed = framed) (hp : m.feedAt framed p = .ok F) (hF : F.Opens) :
    ∃ stream, LogicalStream.openAt track p = .ok stream ∧ stream.At m framed F 0 ∧
      stream.origin = p ∧
      ∀ notes, Ends
        (fun index _ => p.Passes index.resume ∧ (index.isEmpty = true → index.isBroken = true))
        (fun _ _ => True) (LogicalStream.findRecords ⟨stream, notes⟩) := by
  obtain ⟨stream, hopen, hat, horigin⟩ := LogicalStream.openAt_at hm hf hp
  have hreach := Track.reaches_of_moveTo hm fun h => Medium.held_of_feedAt hp hF.bytes_ne_nil (hf ▸ h)
  have hfresh : stream.current = none ∧ stream.remaining = 0 ∧ p.Reaches stream.track.place := by
    unfold LogicalStream.openAt at hopen
    cases hmove : track.moveTo p with
    | error e t =>
      rw [hmove] at hopen
      cases hopen
    | ok u t =>
      rw [hmove] at hopen hreach
      cases hopen
      exact ⟨rfl, rfl, hreach⟩
  obtain ⟨hcurrent, hrem, hplace⟩ := hfresh
  refine ⟨stream, hopen, hat, horigin, fun notes => ?_⟩
  refine (hat.ends_findRecords hF hcurrent hrem notes).mono ?_ fun _ _ _ => trivial
  exact fun index _ h => ⟨hplace.trans_passes h.1, h.2⟩

/-- What holds of all that a turn can come upon: it is stuck, it stops, there is no visible record, or
there is one. -/
structure Covers (s : Segmentation) (Q : Turn → Journalled Segmentation → Prop)
    (E : LoadError → Journalled Segmentation → Prop) : Prop where
  /-- The turn is stuck. -/
  stuck : ∀ e label notes, s.Stuck e → E e ⟨s.opened label, notes⟩
  /-- Nothing is in front of a stop, or a label. -/
  stop : ∀ m F stop track label notes, s.Sees m F → StorageLabel.behind F.bytes = [] →
    F.ending = .stopped stop track.place → s.next.Reaches track.place →
    Ends Q E (stopAt stop track ⟨s.opened label, notes⟩)
  /-- There is no visible record. -/
  missing : ∀ m F p label notes, s.Sees m F → F.Decided s.settings.searchLimit →
    s.next.Reaches p → Q .finished ⟨{ s.opened label with next := p, done := true }, notes⟩
  /-- There is a visible record. -/
  found : ∀ m F G stream label notes, s.Sees m F → F.Decided s.settings.searchLimit →
    s.next.Reaches stream.origin → stream.Fresh m s.framed G →
    Ends Q E (indexAndLoad stream ⟨s.opened label, notes⟩)

section

variable {Q : Turn → Journalled Segmentation → Prop}
  {E : LoadError → Journalled Segmentation → Prop}

/-- From the search for the first visible record on.  What the search decides, the bytes do. -/
theorem Covers.ends_locateAndLoad (h : s.Covers Q E) (hsees : s.Sees m F)
    (ht : track.Delivers m s.framed ⟨StorageLabel.behind F.bytes, F.ending⟩)
    (hreach : s.next.Reaches track.place) (hbehind : StorageLabel.behind F.bytes ≠ [])
    (hshort : F.bytes.length < StorageLabel.size → ∃ stop place, F.ending = .stopped stop place)
    (label : Option StorageLabel) (notes : Array Note) :
    Ends Q E (locateAndLoad track ⟨s.opened label, notes⟩) := by
  unfold locateAndLoad
  rw [ends_bind]
  by_cases hfits : VisibleHeader.WindowFits s.settings.searchLimit
  case neg =>
    refine (ends_locate_of_not_fits (j := ⟨s.opened label, notes⟩) hfits).mono
      (fun _ _ => False.elim) ?_
    rintro e _ ⟨rfl, rfl⟩
    exact h.stuck _ _ _ (.tooWide hfits)
  refine (ends_locate (j := ⟨s.opened label, notes⟩) ht hfits).mono ?_ ?_
  · rintro found ⟨s', notes'⟩ hfind
    cases found with
    | none =>
      obtain ⟨rfl, -, -, n, hmissed⟩ := hfind
      have hdecided : F.Decided s.settings.searchLimit :=
        .of_missed track.tell hfits hbehind hshort fun _ x hx => by cases hmissed.symm.trans hx
      exact h.missing _ F _ _ _ hsees hdecided hreach
    | some found =>
      obtain ⟨p, track'⟩ := found
      obtain ⟨rfl, hreach', hm, hf, i, hi, hp⟩ := hfind
      have hF : Feed.Opens ⟨(StorageLabel.behind F.bytes).drop i, F.ending⟩ := header_of_headerIn hi
      have hdecided : F.Decided s.settings.searchLimit :=
        .of_missed track.tell hfits hbehind hshort fun hnone => by cases hnone.symm.trans hi
      obtain ⟨stream, hopen, hat, rfl, hscan⟩ := openAt_fresh hm hf hp hF
      simp only
      rw [ends_bind, hopen, accept, ends_pure]
      exact h.found _ F _ stream _ _ hsees hdecided (hreach.trans hreach') ⟨hp, hF, hat, hscan⟩
  · -- the search fails for want of bytes, if this is not the first file
    rintro e ⟨s', notes'⟩ ⟨rfl, hnone, rfl, hzero | ⟨x, hx⟩⟩
    · exact h.stuck _ _ _ (.nothing hzero)
    · obtain ⟨hlt, hending⟩ := missed_eq_io_iff.1 hx
      rw [hx]
      exact h.stuck _ _ _ (.probing hsees hending (.inr (.inr ⟨hlt, hnone⟩)))

/-- From the storage unit label on. -/
theorem Covers.ends_labelAndLoad (h : s.Covers Q E) (hsees : s.Sees m F)
    (ht : track.Delivers m s.framed F) (hreach : s.next.Reaches track.place) (hne : F.bytes ≠ [])
    (label : Option StorageLabel) (notes : Array Note) :
    Ends Q E (labelAndLoad track ⟨s.opened label, notes⟩) := by
  unfold labelAndLoad
  rw [ends_bind]
  refine (ends_readLabel ht hne).mono ?_ ?_
  · rintro track₁ ⟨s₁, notes₁⟩ ⟨rfl, hreach₁, ht₁, hshort⟩
    replace hreach₁ : s.next.Reaches track₁.place := hreach.trans hreach₁
    rw [ends_bind]
    refine (ends_ahead ht₁).mono ?_ ?_
    · rintro ⟨ahead, track₂⟩ ⟨s₂, notes₂⟩ ⟨rfl, hreach₂, hahead⟩
      replace hreach₂ : s.next.Reaches track₂.place := hreach₁.trans hreach₂
      cases ahead with
      | stop stop =>
        -- nothing but a label is in front of the stop
        exact h.stop _ _ _ _ _ _ hsees (congrArg Feed.bytes hahead :)
          (congrArg Feed.ending hahead :) hreach₂
      | byte b =>
        obtain ⟨⟨rest, hb⟩, ht₂⟩ := hahead
        have hbehind : StorageLabel.behind F.bytes ≠ [] := fun hnil =>
          List.cons_ne_nil b rest (hb.symm.trans hnil)
        exact h.ends_locateAndLoad hsees ht₂ hreach₂ hbehind hshort _ _
    · -- the bytes end behind the label
      rintro e ⟨s₂, notes₂⟩ ⟨rfl, x, rfl, hnothing⟩
      simp only [Feed.mk.injEq] at hnothing
      exact h.stuck _ _ _ (.probing hsees hnothing.2 (.inr (.inl hnothing.1)))
  · -- they end within what could be a label
    rintro e ⟨s₁, notes₁⟩ ⟨rfl, x, rfl, hx, hlt⟩
    exact h.stuck _ _ _ (.probing hsees hx (.inl hlt))

/-- **What a turn can come upon** is covered, so what holds of it holds of every turn. -/
theorem Covers.ends_turn (h : j.state.Covers Q E) (hready : j.state.Ready)
    (hdone : j.state.done = false) : Ends Q E (turn j) := by
  obtain ⟨s, notes⟩ := j
  simp only at h hready hdone
  rw [turn_eq, ends_bind]
  refine (ends_openTrack _).mono ?_ ?_
  · rintro track ⟨s₁, notes₁⟩ ⟨rfl, r, F, hreader, hfeed, ht, hreach⟩
    have hsees : s.Sees r.medium F := ⟨⟨r, hreader, rfl⟩, hfeed⟩
    replace hreach : s.next.Reaches track.place :=
      hreach fun hf => (held_iff hsees.bytes).2 (hready hdone hf)
    rw [ends_bind]
    refine (ends_ahead ht).mono ?_ ?_
    · rintro ⟨ahead, track₁⟩ ⟨s₂, notes₂⟩ ⟨rfl, hreach₁, hahead⟩
      replace hreach₁ : s.next.Reaches track₁.place := hreach.trans hreach₁
      cases ahead with
      | stop stop =>
        -- nothing is left in front of the next file mark
        have hnothing : StorageLabel.behind F.bytes = [] := by
          rw [congrArg Feed.bytes hahead]
          rfl
        have hturn := fun notes => h.stop r.medium F stop track₁ s.label notes hsees hnothing
          (congrArg Feed.ending hahead) hreach₁
        simp only
        split
        · rw [ends_bind, ends_note]
          exact hturn _
        · exact hturn _
      | byte b =>
        obtain ⟨⟨rest, hb⟩, ht₁⟩ := hahead
        exact h.ends_labelAndLoad hsees ht₁ hreach₁ (hb ▸ List.cons_ne_nil b rest) s.label _
    · -- there are no bytes
      rintro e ⟨s₂, notes₂⟩ ⟨rfl, x, rfl, hnothing⟩
      refine h.stuck _ s.label _ (.probing hsees (by rw [hnothing]) (.inl ?_))
      rw [hnothing]
      exact Nat.succ_pos _
  · rintro e ⟨s₁, notes₁⟩ ⟨rfl, ⟨x, hreader, rfl⟩ | ⟨r, x, hreader, hfeed, rfl⟩⟩
    · exact h.stuck _ s.label _ (.closed hreader)
    · exact h.stuck _ s.label _ (.opening hreader hfeed)

end

/-! ### Going forward -/

/-- A turn that ends where the track stops.  A file mark lies inside the image, and the next turn
takes up behind it. -/
theorem ends_stopAt_achieves {stop : Stop} (hsees : s.Sees m F)
    (hend : F.ending = .stopped stop track.place) (hreach : s.next.Reaches track.place)
    (hs : s.Follows j.state) :
    Ends (fun r j' => s.Follows j'.state ∧ j'.state.Ready ∧ s.Achieves j'.state r)
      (fun _ j' => s.Follows j'.state) (stopAt stop track j) := by
  have hbehind := Medium.endsBehind_feedAt hsees.feed
  have hheld := (held_iff hsees.bytes).1 (hbehind.held _ _ hend)
  rw [ends_stopAt]
  cases stop with
  | fileMark =>
    obtain ⟨-, hnext, hsize⟩ := hbehind.fileMark _ hend
    rw [hsees.bytes] at hsize
    exact ⟨⟨hs.source, hs.framed, hreach⟩, fun _ _ => hs.source ▸ hheld, .inr ⟨hnext, hsize⟩⟩
  | mediumEnd => exact ⟨⟨hs.source, hs.framed, hreach⟩, nofun, rfl⟩

/-- The turn that has found a visible record ends with a logical file, or with bytes that are no
record. -/
theorem ends_indexAndLoad {stream : LogicalStream} (hbytes : m.bytes = s.source.image)
    (hdone : j.state.done = false) (hs : s.Follows j.state) (hreach : s.next.Reaches stream.origin)
    (hfresh : stream.Fresh m s.framed F) :
    Ends (fun r j' => s.Follows j'.state ∧ j'.state.Ready ∧ s.Achieves j'.state r)
      (fun _ j' => s.Follows j'.state) (indexAndLoad stream j) := by
  have hscan : Ends
      (fun index _ => stream.origin.Passes index.resume ∧
        (index.isEmpty = true → index.isBroken = true) ∧
        (index.isBroken = false → s.framed = true → index.resume.Held m))
      (fun _ _ => True) (LogicalStream.findRecords ⟨stream, j.notes⟩) := by
    refine ((hfresh.scan j.notes).and (hfresh.position.ends_findRecords_held j.notes)).mono ?_
      fun _ _ _ => trivial
    rintro index p ⟨⟨hpasses, hempty⟩, hheld⟩
    exact ⟨hpasses, hempty, hheld⟩
  unfold indexAndLoad
  rw [ends_bind]
  refine (ends_indexRecords hscan).mono ?_ ?_
  · rintro ⟨index, stream'⟩ j₁ ⟨horigin, hpasses, ⟨-, hempty, hheld⟩, hstate⟩
    rw [hdone, Bool.false_or] at hstate
    have hfollows : s.Follows j₁.state := by
      rw [hstate]
      exact ⟨hs.source, hs.framed, hreach.trans hpasses.reaches⟩
    have hready : j₁.state.Ready := by
      intro hd hf
      rw [hstate] at hd hf ⊢
      simp only [hs.source] at hd hf ⊢
      exact (held_iff hbytes).1 (hheld hd (hs.framed ▸ hf))
    simp only
    split
    · rename_i hnone
      rw [ends_bind, ends_note, ends_pure]
      refine ⟨hfollows, hready, .inl ?_⟩
      rw [hstate]
      exact hempty hnone
    · rw [ends_bind]
      refine (ends_loadFile (R := fun _ _ => True) (Q := fun _ _ _ => True) (E := fun _ => True)
        (Ends.trivial _) fun _ _ _ => Ends.trivial _).mono ?_ ?_
      · rintro f j₂ ⟨-, -, hbroken, hplace, hstate'⟩
        rw [horigin] at hplace
        have hsize := Medium.le_size_of_feedAt hfresh.feed hfresh.opens.bytes_ne_nil
        rw [hbytes] at hsize
        rw [ends_pure, hstate']
        refine ⟨⟨hfollows.source, hfollows.framed, hfollows.next⟩, fun hd hf => hready hd hf, ?_⟩
        rw [← hplace] at hreach hpasses hsize
        rw [Achieves, hstate]
        exact ⟨hreach, hpasses, hbroken.symm, hsize.1, hsize.2⟩
      · rintro e j₂ ⟨hstate', -⟩
        rw [hstate']
        exact hfollows
  · rintro e j₁ ⟨hstate, -⟩
    rw [hstate]
    exact hs

/-- **One turn** takes up where it can be taken up, and never goes back. -/
theorem ends_turn (h : j.state.Ready) (hdone : j.state.done = false) :
    Ends
      (fun r j' => j.state.Follows j'.state ∧ j'.state.Ready ∧ j.state.Achieves j'.state r)
      (fun _ j' => j.state.Follows j'.state) (turn j) := by
  have hopened : ∀ label, j.state.Follows (j.state.opened label) := fun _ => ⟨rfl, rfl, .refl _⟩
  refine Covers.ends_turn ?_ h hdone
  exact
    { stuck := fun _ label _ _ => hopened label
      stop := fun _ _ _ _ label _ hsees _ hend hreach =>
        ends_stopAt_achieves hsees hend hreach (hopened label)
      missing := fun _ _ _ _ _ _ _ hreach => ⟨⟨rfl, rfl, hreach⟩, nofun, rfl⟩
      found := fun _ _ _ _ label _ hsees _ hreach hfresh =>
        ends_indexAndLoad hsees.bytes hdone (hopened label) hreach hfresh }

/-! ### The turns of one call -/

/-- No more turns than these come before the last one. -/
def turnsLeft (s : Segmentation) : Nat :=
  if s.done then 0 else s.source.image.size - s.next.offset + 1

theorem turnsLeft_lt (h : s.Follows s') (hdone : s.done = false) (hagain : s.Achieves s' .again) :
    s'.turnsLeft < s.turnsLeft := by
  rw [turnsLeft, turnsLeft, hdone, if_neg Bool.false_ne_true]
  rcases hagain with hlast | ⟨hnext, hsize⟩
  · rw [if_pos hlast]
    exact Nat.succ_pos _
  · rw [h.source]
    simp only [TapeMark.size] at hnext hsize
    split <;> omega

theorem turnsLeft_lt_size (s : Segmentation) : s.turnsLeft < s.source.image.size + 2 := by
  rw [turnsLeft]
  split <;> omega

/-- **No call runs into the bound on its turns.** -/
theorem turns_eq_of_lt {most most' : Nat} (h : j.state.Ready) (hm : j.state.turnsLeft < most)
    (hm' : j.state.turnsLeft < most') : turns most j = turns most' j := by
  induction most generalizing most' j with
  | zero => exact absurd hm (Nat.not_lt_zero _)
  | succ most ih =>
    obtain ⟨most', rfl⟩ := Nat.exists_eq_add_one_of_ne_zero (Nat.ne_zero_of_lt hm')
    rw [turns, turns, bind_state, bind_state]
    cases hdone : j.state.done with
    | true => rfl
    | false =>
      refine bind_eq_of_ends ((ends_turn h hdone).mono ?_ fun _ _ _ => trivial)
      rintro r j' ⟨hfollows, hready, hachieves⟩
      cases r with
      | again =>
        have hlt := turnsLeft_lt hfollows hdone hachieves
        exact ih hready (by omega) (by omega)
      | finished => rfl
      | file f => rfl

theorem ends_turns {most : Nat} (h : j.state.Ready) (hm : j.state.turnsLeft < most) :
    Ends
      (fun r j' => j.state.Follows j'.state ∧ j'.state.Ready ∧
        match r with
        | some f => j.state.Between j'.state f
        | none => j'.state.done = true)
      (fun _ j' => j.state.Follows j'.state) (turns most j) := by
  induction most generalizing j with
  | zero => exact absurd hm (Nat.not_lt_zero _)
  | succ most ih =>
    rw [turns, bind_state]
    cases hdone : j.state.done with
    | true => exact ⟨.refl _, h, hdone⟩
    | false =>
      rw [if_neg (by decide), ends_bind]
      refine (ends_turn h hdone).mono ?_ fun _ _ => id
      rintro r j' ⟨hfollows, hready, hachieves⟩
      cases r with
      | again =>
        have hlt := turnsLeft_lt hfollows hdone hachieves
        refine (ih hready (by omega)).mono ?_ fun _ _ h => hfollows.trans h
        rintro found j'' ⟨hfollows', hready', hfound⟩
        refine ⟨hfollows.trans hfollows', hready', ?_⟩
        cases found with
        | none => exact hfound
        | some f => exact hfound.of_follows hfollows
      | finished => exact ⟨hfollows, hready, hachieves⟩
      | file f => exact ⟨hfollows, hready, hachieves⟩

/-! ### The check that a logical file advances the read position -/

/-- `indexRecords` as it would be without the check that the scan goes forward. -/
def uncheckedIndex (stream : LogicalStream) : Segmenting (RecordIndex × LogicalStream) := do
  let (index, stream) ← aside stream LogicalStream.findRecords
  update ({ · with next := index.resume })
  if index.isBroken then
    Logged.note .warning
      s!"Logical file at offset {stream.origin.offset} ends in a broken record, stopping after it"
    update ({ · with done := true })
  return (index, stream)

/-- `turn` with `uncheckedIndex` for `indexRecords`. -/
def uncheckedTurn : Segmenting Turn := do
  match ← ahead (← openTrack) with
  | (.stop stop, track) =>
    if stop = .fileMark then
      Logged.note .debug s!"File mark before offset {track.place.offset}, skipping"
    stopAt stop track
  | (.byte _, track) =>
    match ← ahead (← readLabel track) with
    | (.stop stop, track) => stopAt stop track
    | (.byte _, track) =>
      match ← locate track with
      | none => return .finished
      | some (origin, track) =>
        let stream ← accept .format (LogicalStream.openAt track origin)
        let (index, stream) ← uncheckedIndex stream
        if index.isEmpty then
          Logged.note .debug s!"Empty logical file at offset {origin.offset}, skipping"
          return .again
        else return .file (← loadFile index stream)

/-- `turns` with `uncheckedTurn` for `turn`. -/
def uncheckedTurns : (most : Nat) → Segmenting (Option LogicalFile)
  | 0 => return none
  | most + 1 => do
    if (← Logged.state).done then return none
    else
      match ← uncheckedTurn with
      | .again => uncheckedTurns most
      | .finished => return none
      | .file f => return some f

theorem indexRecords_eq_uncheckedIndex {stream : LogicalStream}
    (h : Ends (fun index _ => stream.origin.Passes index.resume) (fun _ _ => True)
      (LogicalStream.findRecords ⟨stream, j.notes⟩)) :
    indexRecords stream j = uncheckedIndex stream j := by
  unfold indexRecords uncheckedIndex
  refine bind_eq_of_ends ?_
  rw [ends_aside]
  refine (h.and (LogicalStream.keeps_findRecords ⟨stream, j.notes⟩)).mono ?_ fun _ _ _ => trivial
  rintro index ⟨stream', notes⟩ ⟨hpasses, horigin, -⟩
  replace horigin : stream'.origin = stream.origin := horigin
  have hno : ¬ index.resume.le stream'.origin = true := by
    rw [horigin, Bool.not_eq_true]
    exact hpasses
  simp only [if_neg hno]

/-- The check is never needed: a scan begins at a visible record, and ends behind its header. -/
theorem turn_eq_uncheckedTurn : turn = uncheckedTurn := by
  funext j
  unfold turn uncheckedTurn
  refine bind_eq_of_ends ((ends_openTrack _).mono ?_ fun _ _ _ => trivial)
  rintro track j₁ ⟨-, r, F, -, -, ht, -⟩
  refine bind_eq_of_ends ((ends_ahead ht).mono ?_ fun _ _ _ => trivial)
  rintro ⟨ahead, t₁⟩ j₂ ⟨-, -, hahead⟩
  cases ahead with
  | stop stop => rfl
  | byte b =>
    obtain ⟨⟨rest, hb⟩, ht₁⟩ := hahead
    have hne : F.bytes ≠ [] := hb ▸ List.cons_ne_nil b rest
    refine bind_eq_of_ends ((ends_readLabel ht₁ hne).mono ?_ fun _ _ _ => trivial)
    rintro t₂ j₃ ⟨-, -, ht₂, -⟩
    refine bind_eq_of_ends ((ends_ahead ht₂).mono ?_ fun _ _ _ => trivial)
    rintro ⟨ahead, t₃⟩ j₄ ⟨-, -, hahead⟩
    cases ahead with
    | stop stop => rfl
    | byte b =>
      by_cases hfits : VisibleHeader.WindowFits j₄.state.settings.searchLimit
      case neg =>
        exact bind_eq_of_ends ((ends_locate_of_not_fits hfits).mono (fun _ _ => False.elim)
          fun _ _ _ => trivial)
      refine bind_eq_of_ends ((ends_locate hahead.2 hfits).mono ?_ fun _ _ _ => trivial)
      rintro found j₅ hfound
      cases found with
      | none => rfl
      | some found =>
        obtain ⟨p, t₄⟩ := found
        obtain ⟨-, -, hm, hf, i, hi, hp⟩ := hfound
        obtain ⟨stream, hopen, -, rfl, hfresh⟩ := openAt_fresh hm hf hp (header_of_headerIn hi)
        have hindex : indexRecords stream j₅ = uncheckedIndex stream j₅ :=
          indexRecords_eq_uncheckedIndex ((hfresh _).mono (fun _ _ h => h.1) fun _ _ => id)
        simp only [hopen, accept, bind, EStateM.bind, pure, EStateM.pure, hindex]

theorem turns_eq_uncheckedTurns (most : Nat) : turns most = uncheckedTurns most := by
  induction most with
  | zero => rfl
  | succ most ih =>
    rewrite [turns, uncheckedTurns, turn_eq_uncheckedTurn, ih]
    rfl

end Segmentation

end WellLog
