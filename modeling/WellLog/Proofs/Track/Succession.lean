import WellLog.Image.Tape
import WellLog.Proofs.Track.Failure
/-!
# Places of successive calls

Bytes are asked for by reads and by looks ahead.  Only a look ahead moves a track back: it reads a
byte and then goes to the place that it had before.  So the places of successive calls are in the
order of the data, whatever the tape marks of the image say, as long as every look ahead gets back
to where it was.

If it does not, the byte counts as read although the reader stands in front of it.  On such a track
the count can run ahead of the reader, until it is in a record that would begin behind the end of the
image; the next look ahead then goes back (`Track.places_strayPeek`).

* `Track.Ask` : the calls, and `Track.places` the places in front of and behind each of them.
* `Track.Backed` : the reader has passed all bytes that the framing counts.
* `Track.ends_read_backed`, `Track.ends_peek_backed` : what one call does to such a track.
* `Track.places_in_order` : **the places of successive calls are in order.**
-/

namespace WellLog

/-- A read passes the bytes that it delivers. -/
theorem Reader.position_of_read {r r' : Reader} {n : Nat} {got : List UInt8}
    (h : read n r = .ok got r') : r'.position = r.position + got.length := by
  unfold read at h
  split at h
  · split at h
    · cases h
    · cases h
      rfl
  · cases h
    rfl

namespace Track

variable {m : Medium} {framed : Bool} {F : Feed} {r : Reader} {s : TapeRecord} {t u : Track}
  {p : Place} {n : Nat}

theorem isFramed_iff : t.isFramed = true ↔ ∃ s, t.framing = .tape s := by
  unfold isFramed
  cases t.framing <;> simp

/-! ### One call -/

/-- The reader has passed all bytes that the framing counts, unless the track has stopped. -/
def Backed (t : Track) : Prop :=
  t.stop = none → ∀ s, t.framing = .tape s → s.tell ≤ t.reader.position

theorem Delivers.backed (h : t.Delivers m framed F) : t.Backed := by
  intro hopen s hs
  cases h with
  | stopped _ hstop =>
    rw [hopen] at hstop
    cases hstop
  | plain _ => cases hs
  | tape hr _ =>
    cases hs
    exact Nat.le_of_eq hr.position.symm

/-- Looking for the next byte passes whole tape marks, and stops behind a file mark if there is one.
A byte is found in the record at hand, or at the beginning of another. -/
theorem ends_toData_backed (r : Reader) (s : TapeRecord) :
    Ends
      (fun found t => (s.tell ≤ r.position → t.Backed) ∧
        (∀ s', found = some s' → s.remaining = 0 ∨ s' = s ∧ t.reader = r) ∧
        (found = none → t.stop = some .fileMark → s.place.Passes t.place))
      (fun _ t => (s.tell ≤ r.position → t.Backed) ∧ t.stop = none) (toData r s) := by
  fun_induction toData r s with
  | case1 r s hrem =>
    refine ⟨?_, ?_, fun h => by cases h⟩
    · rintro h - _ ⟨⟩
      exact h
    · rintro _ ⟨⟩
      exact .inr ⟨rfl, rfl⟩
  | case2 r s hrem e r' hread =>
    have hforward := Reader.proceeds_readMark r
    rw [hread, ends_error] at hforward
    refine ⟨?_, rfl⟩
    rintro h - _ ⟨⟩
    exact Nat.le_trans h hforward.position
  | case3 r s hrem r' hread =>
    exact ⟨fun _ h => (by cases h), fun _ h => (by cases h), fun _ h => (by cases h)⟩
  | case4 r s hrem k r' hread hfits hk =>
    have hnext := hfits.next
    refine ⟨fun _ h => (by cases h), fun _ h => (by cases h), fun _ _ => ?_⟩
    have hspent : (⟨s.next, k.next.toNat, k.dataLength s.next⟩ : TapeRecord).place =
        .start k.next.toNat :=
      TapeRecord.place_of_le (by simp only [TapeMark.dataLength]; omega)
    change s.place.Passes (TapeRecord.place _)
    rw [hspent, TapeRecord.place_of_le (by simp only [TapeRecord.remaining_eq] at hrem; omega)]
    exact Place.passes_start (by simp only [Place.start, TapeMark.size] at hnext ⊢; omega)
  | case5 r s hrem k r' hread hfits hk ih =>
    obtain ⟨-, -, hpos⟩ := hread ▸ TapeMark.ends_read ⟨rfl, rfl⟩
    have hspent : s.remaining = 0 := not_not.1 hrem
    have hgo : s.tell ≤ r.position →
        (⟨s.next, k.next.toNat, 0⟩ : TapeRecord).tell ≤ r'.position := by
      intro h
      rw [hpos rfl]
      simp only [TapeRecord.remaining, TapeRecord.tell] at hspent h ⊢
      omega
    have hreach : s.place.Reaches (⟨s.next, k.next.toNat, 0⟩ : TapeRecord).place :=
      TapeRecord.reaches_next hspent hfits.next
    refine ih.mono ?_ fun _ _ h => ⟨fun hs => h.1 (hgo hs), h.2⟩
    rintro found t' ⟨hbacked, -, hnone⟩
    exact ⟨fun hs => hbacked (hgo hs), fun _ _ => .inl hspent,
      fun hno hstop => hreach.trans_passes (hnone hno hstop)⟩
  | case6 r s hrem k r' hread hfits =>
    have hforward : r.Forward r' := (hread ▸ Reader.proceeds_readMark r).1
    refine ⟨?_, rfl⟩
    rintro h - _ ⟨⟩
    exact Nat.le_trans h hforward.position

/-- The place in front of a byte that is read can be taken up again, if the reader has passed all
bytes that the framing counts.  The byte is in the record `s'`, which begins there or has been read
up to there. -/
theorem place_of_found {r r' r'' : Reader} {s s' : TapeRecord} (hrem : s'.remaining ≠ 0)
    (hfrom : s.remaining = 0 ∨ s' = s ∧ r' = r) (hread : r'.Onward r'') :
    (s.tell ≤ r.position → (⟨r, .tape s, none⟩ : Track).place.Held r.medium) ∧
      (⟨r, .tape s, none⟩ : Track).place.skip ≤ s'.consumed := by
  obtain hspent | ⟨rfl, rfl⟩ := hfrom
  · have hplace : (⟨r, .tape s, none⟩ : Track).place = .start s.next :=
      TapeRecord.place_of_le (by rw [TapeRecord.remaining_eq] at hspent; omega)
    rw [hplace]
    exact ⟨fun _ => .inl rfl, Nat.zero_le _⟩
  · have hplace : (⟨r', .tape s', none⟩ : Track).place = ⟨s'.start, s'.consumed⟩ :=
      TapeRecord.place_of_lt (by rw [TapeRecord.remaining_eq] at hrem; omega)
    rw [hplace]
    refine ⟨fun htell => .inr ?_, Nat.le_refl _⟩
    have hpassed := hread.position
    have hbound := hread.bound
    simp only [TapeRecord.tell] at htell ⊢
    omega

/-- **What one read does** to the bytes that the framing counts: the reader passes them too.  A read
that stops at a file mark is behind it.  A byte that is read lies behind a place that can be taken up
again. -/
theorem ends_read_backed (n : Nat) (t : Track) :
    Ends
      (fun got u => (t.Backed → u.Backed) ∧
        (t.stop ≠ some .fileMark → u.stop = some .fileMark → t.place.Passes u.place) ∧
        (got ≠ [] → ∀ s, u.framing = .tape s →
          (t.Backed → t.place.Held t.reader.medium) ∧ t.place.skip ≤ s.consumed))
      (fun _ u => (t.Backed → u.Backed) ∧ (t.stop ≠ some .fileMark → u.stop ≠ some .fileMark))
      (read n t) := by
  obtain hstay | ⟨hn, r, ⟨p, rfl⟩ | ⟨s, rfl⟩⟩ := read_cases n t
  · rw [hstay]
    exact ⟨id, fun hno hstop => absurd hstop hno, fun hno => absurd rfl hno⟩
  · refine ends_read_plain hn ((Ends.trivial _).mono ?_ fun _ _ _ => ⟨fun _ _ => nofun, fun _ => nofun⟩)
    refine fun got r' _ => ⟨fun _ _ => nofun, fun _ hfile => ?_, fun _ => nofun⟩
    simp only at hfile
    split at hfile <;> cases hfile
  · have hgiven : Backed ⟨r, .tape s, none⟩ → s.tell ≤ r.position := fun h => h rfl s rfl
    refine ends_read_tape hn (P := fun s' r' => (s.tell ≤ r.position → s'.tell ≤ r'.position) ∧
      (s.remaining = 0 ∨ s' = s ∧ r' = r)) ((ends_toData_backed r s).mono ?_ ?_) ?_
    · rintro (_ | s') u ⟨hbacked, hfrom, hnone⟩
      · exact ⟨fun h => hbacked (hgiven h), fun _ => hnone rfl, fun hno => absurd rfl hno⟩
      · rintro r' rfl
        exact ⟨fun h => hbacked h rfl s' rfl, hfrom s' rfl⟩
    · rintro e u ⟨hbacked, hopen⟩
      exact ⟨fun h => hbacked (hgiven h), fun _ => by rw [hopen]; exact nofun⟩
    · rintro s' r' hrem ⟨hbacked, hfrom⟩
      have hread := Reader.proceeds_read (n := min n s'.remaining) (by omega) r'
      cases hrun : r'.read (min n s'.remaining) with
      | error e r'' =>
        rw [hrun, ends_error] at hread
        refine ⟨?_, fun _ => nofun⟩
        rintro h - _ ⟨⟩
        exact Nat.le_trans (hbacked (hgiven h)) hread.position
      | ok got r'' =>
        rw [hrun, ends_ok] at hread
        have hposition := Reader.position_of_read hrun
        refine ⟨fun _ => ⟨fun _ => nofun, fun _ => nofun, fun hno => absurd rfl hno⟩,
          fun hgot => ⟨?_, fun _ => nofun, fun _ => ?_⟩⟩
        · rintro h - _ ⟨⟩
          have htell := hbacked (hgiven h)
          simp only [TapeRecord.tell] at htell ⊢
          omega
        · obtain ⟨hheld, hskip⟩ := place_of_found hrem hfrom (hread.2 hgot)
          rintro _ ⟨⟩
          exact ⟨fun h => hheld (hgiven h), Nat.le_trans hskip (Nat.le_add_right _ _)⟩

/-- A move to a file mark is behind it; a move that fails does not lead behind the place, unless the
track was there. -/
theorem ends_moveTo_onward (hplace : p.Reaches t.place)
    (hskip : ∀ s, t.framing = .tape s → p.skip ≤ s.consumed) :
    Ends (fun _ u => u.stop = some .fileMark → p.Passes u.place)
      (fun _ u => p.Reaches u.place ∧ u.stop = none) (moveTo p t) := by
  obtain ⟨r, framing, stop⟩ := t
  cases framing with
  | plain q =>
    intro h
    cases h
  | tape s =>
    have hmove := movesTo r s stop p
    generalize moveTo p ⟨r, .tape s, stop⟩ = result at hmove ⊢
    cases hmove with
    | unread | misfit => exact ⟨hplace, rfl⟩
    | mediumEnd | record =>
      intro h
      cases h
    | fileMark mark hfits hk =>
      intro _
      change p.Passes (TapeRecord.place _)
      rw [TapeRecord.place_of_le (by simp only [TapeMark.dataLength]; omega)]
      exact passes_of_fits hfits
    | overrun mark hfits hk hshort =>
      -- the bytes counted so far are more than the record has
      have hconsumed := hskip s rfl
      refine ⟨?_, rfl⟩
      change p.Reaches (TapeRecord.place _)
      rw [TapeRecord.place_of_le (by simp only [TapeMark.dataLength] at hshort ⊢; omega)]
      exact (passes_of_fits hfits).reaches

/-- **What a look ahead does** to a track whose reader has passed the bytes that the framing counts:
it does not go back, and unless it fails the track is such a track again. -/
theorem ends_peek_backed (h : t.Backed) :
    Ends
      (fun _ u => u.Backed ∧ t.place.Reaches u.place ∧
        (t.stop ≠ some .fileMark → u.stop = some .fileMark → t.place.Passes u.place))
      (fun _ u => t.place.Reaches u.place ∧ (t.stop ≠ some .fileMark → u.stop ≠ some .fileMark))
      (peek t) := by
  unfold peek
  rw [ends_bind, ends_get, ends_bind, ends_liftIo]
  refine ((ends_read_backed 1 t).and (proceeds_read 1 t)).mono ?_ ?_
  · rintro (_ | ⟨b, more⟩) u ⟨⟨hbacked, hfile, hfound⟩, hforward, -⟩
    · exact ⟨hbacked h, hforward.place, hfile⟩
    · have hrecord := hfound (List.cons_ne_nil b more)
      have hreach := reaches_of_moveTo (p := t.place) hforward.reader.medium fun hu => by
        obtain ⟨s, hs⟩ := isFramed_iff.1 hu
        exact (hrecord s hs).1 h
      have honward := ends_moveTo_onward hforward.place fun s hs => (hrecord s hs).2
      have hends := ends_moveTo hforward.reader.medium rfl t.place
      simp only
      rw [ends_bind]
      refine ((hreach.and honward).and hends).mono ?_ ?_
      · rintro - v ⟨⟨hv, hpasses⟩, F, -, hF⟩
        exact ⟨hF.backed, hv, fun _ => hpasses⟩
      · rintro e v ⟨⟨-, hv, hopen⟩, -⟩
        exact ⟨hv, fun _ => by rw [hopen]; exact nofun⟩
  · rintro e u ⟨⟨-, hfile⟩, hforward⟩
    exact ⟨hforward.place, hfile⟩

/-! ### Successive calls -/

/-- A call that asks for bytes. -/
inductive Ask where
  /-- A read of at most `n` bytes. -/
  | read (n : Nat)
  /-- A look ahead. -/
  | peek
  deriving DecidableEq, Repr

namespace Ask

variable {a : Ask} {asks : List Ask}

/-- The track behind a call, whether it was answered or failed. -/
def after (a : Ask) (t : Track) : Track :=
  match a with
  | read n =>
    match Track.read n t with
    | .ok _ u => u
    | .error _ u => u
  | peek =>
    match Track.peek t with
    | .ok _ u => u
    | .error _ u => u

/-- Whether a call fails. -/
def fails (a : Ask) (t : Track) : Bool :=
  match a with
  | read n =>
    match Track.read n t with
    | .ok _ _ => false
    | .error _ _ => true
  | peek =>
    match Track.peek t with
    | .ok _ _ => false
    | .error _ _ => true

theorem after_read_ok {got : List UInt8} (h : Track.read n t = .ok got u) :
    (read n).after t = u := by
  simp only [after, h]

theorem after_read_error {e : IoError} (h : Track.read n t = .error e u) :
    (read n).after t = u := by
  simp only [after, h]

/-- **One call does not go back**, and a file mark is stepped over for good.  A look ahead needs a
reader that has passed the bytes that the framing counts. -/
theorem proceeds (h : t.Backed ∨ a ≠ .peek) :
    t.place.Reaches (a.after t).place ∧
      (t.stop ≠ some .fileMark → (a.after t).stop = some .fileMark →
        t.place.Passes (a.after t).place) := by
  cases a with
  | read n =>
    have hends := (ends_read_backed n t).and (proceeds_read n t)
    cases hrun : Track.read n t with
    | ok got u =>
      rw [hrun, ends_ok] at hends
      obtain ⟨⟨-, hfile, -⟩, hforward, -⟩ := hends
      rw [after_read_ok hrun]
      exact ⟨hforward.place, hfile⟩
    | error e u =>
      rw [hrun, ends_error] at hends
      obtain ⟨⟨-, hfile⟩, hforward⟩ := hends
      rw [after_read_error hrun]
      exact ⟨hforward.place, fun hno hstop => absurd hstop (hfile hno)⟩
  | peek =>
    have hends := ends_peek_backed (h.resolve_right fun hno => hno rfl)
    unfold after
    cases hrun : Track.peek t with
    | ok ahead u =>
      rw [hrun, ends_ok] at hends
      exact hends.2
    | error e u =>
      rw [hrun, ends_error] at hends
      exact ⟨hends.1, fun hno hstop => absurd hstop (hends.2 hno)⟩

/-- A call leaves the reader behind the bytes that the framing counts, unless it is a look ahead that
fails. -/
theorem backed_after (h : t.Backed) (hfails : a = .peek → a.fails t = false) :
    (a.after t).Backed := by
  cases a with
  | read n =>
    have hends := ends_read_backed n t
    cases hrun : Track.read n t with
    | ok got u =>
      rw [hrun] at hends
      rw [after_read_ok hrun]
      exact hends.1 h
    | error e u =>
      rw [hrun] at hends
      rw [after_read_error hrun]
      exact hends.1 h
  | peek =>
    have hends := ends_peek_backed h
    have hno := hfails rfl
    unfold fails at hno
    unfold after
    cases hrun : Track.peek t with
    | ok ahead u =>
      rw [hrun] at hends
      exact hends.1
    | error e u =>
      rw [hrun] at hno
      cases hno

end Ask

variable {a : Ask} {asks before behind : List Ask} {q : Place}

/-- The track behind calls. -/
def after (asks : List Ask) (t : Track) : Track := asks.foldl (fun t a => a.after t) t

/-- The places of a track in front of each call and behind the last one. -/
def places : List Ask → Track → List Place
  | [], t => [t.place]
  | a :: asks, t => t.place :: places asks (a.after t)

theorem place_mem_places (asks : List Ask) (t : Track) : t.place ∈ places asks t := by
  cases asks <;> exact List.mem_cons_self

/-- No look ahead comes behind one that failed. -/
def Undisturbed : List Ask → Track → Prop
  | [], _ => True
  | a :: asks, t => (a = .peek → a.fails t = true → .peek ∉ asks) ∧ Undisturbed asks (a.after t)

instance decidableUndisturbed : (asks : List Ask) → (t : Track) → Decidable (Undisturbed asks t)
  | [], _ => .isTrue trivial
  | a :: asks, t =>
    have := decidableUndisturbed asks (a.after t)
    inferInstanceAs (Decidable (_ ∧ _))

theorem Undisturbed.of_append (h : Undisturbed (before ++ behind) t) : Undisturbed before t := by
  induction before generalizing t with
  | nil => trivial
  | cons a before ih =>
    exact ⟨fun ha hfails hmem => h.1 ha hfails (List.mem_append_left _ hmem), ih h.2⟩

/-- The track is fit for calls: its reader has passed what the framing counts, or nobody looks ahead
any more. -/
def FitFor (asks : List Ask) (t : Track) : Prop := t.Backed ∨ .peek ∉ asks

/-- A track stays fit for the calls that are to come. -/
theorem FitFor.next (h : t.FitFor (a :: asks)) (hasks : Undisturbed (a :: asks) t) :
    (a.after t).FitFor asks := by
  obtain hbacked | hno := h
  · by_cases hfails : a = .peek ∧ a.fails t = true
    · exact .inr (hasks.1 hfails.1 hfails.2)
    · exact .inl (Ask.backed_after hbacked fun ha => by simpa [ha] using hfails)
  · exact .inr fun hmem => hno (List.mem_cons_of_mem a hmem)

theorem FitFor.proceeds (h : t.FitFor (a :: asks)) :
    t.place.Reaches (a.after t).place ∧
      (t.stop ≠ some .fileMark → (a.after t).stop = some .fileMark →
        t.place.Passes (a.after t).place) :=
  Ask.proceeds (h.imp_right fun hno ha => hno (ha ▸ List.mem_cons_self))

/-- What holds of a track and all calls holds behind the first of them. -/
theorem FitFor.after (h : t.FitFor (before ++ behind)) (hasks : Undisturbed (before ++ behind) t) :
    (after before t).FitFor behind ∧ Undisturbed behind (after before t) := by
  induction before generalizing t with
  | nil => exact ⟨h, hasks⟩
  | cons a before ih => exact ih (h.next hasks) hasks.2

/-- Successive calls do not go back. -/
theorem FitFor.reaches (h : t.FitFor asks) (hasks : Undisturbed asks t) (hq : q ∈ places asks t) :
    t.place.Reaches q := by
  induction asks generalizing t with
  | nil =>
    rw [List.mem_singleton.1 hq]
    exact .refl _
  | cons a asks ih =>
    rcases List.mem_cons.1 hq with rfl | hq
    · exact .refl _
    · exact h.proceeds.1.trans (ih (h.next hasks) hasks.2 hq)

theorem FitFor.pairwise (h : t.FitFor asks) (hasks : Undisturbed asks t) :
    (places asks t).Pairwise Place.Reaches := by
  induction asks generalizing t with
  | nil => exact List.pairwise_singleton _ _
  | cons a asks ih =>
    refine List.pairwise_cons.2 ⟨fun q hq => ?_, ih (h.next hasks) hasks.2⟩
    exact h.reaches hasks (List.mem_cons_of_mem _ hq)

/-- All places of calls are in front of the last. -/
theorem FitFor.reaches_after (h : t.FitFor asks) (hasks : Undisturbed asks t)
    (hq : q ∈ places asks t) : q.Reaches (Track.after asks t).place := by
  induction asks generalizing t q with
  | nil =>
    rw [List.mem_singleton.1 hq]
    exact .refl _
  | cons a asks ih =>
    have hnext := h.next hasks
    rcases List.mem_cons.1 hq with rfl | hq
    · exact h.proceeds.1.trans (ih hnext hasks.2 (place_mem_places asks _))
    · exact ih hnext hasks.2 hq

/-- **The places of successive calls are in order**, on every medium and from every place where a
track can be opened, as long as no look ahead comes behind one that failed.  Behind a read that
delivers bytes all places are behind its own, so two such reads never begin at one place; and behind
a file mark the place is behind all those before. -/
theorem places_in_order (hopen : openAt r framed p = .ok t) (hasks : Undisturbed asks t) :
    (places asks t).Pairwise Place.Reaches ∧
    (∀ before n behind got u, asks = before ++ .read n :: behind →
      read n (after before t) = .ok got u → got ≠ [] →
        ∀ q ∈ places behind u, (after before t).place.Passes q) ∧
    ∀ before a behind, asks = before ++ a :: behind → (after before t).stop ≠ some .fileMark →
      (a.after (after before t)).stop = some .fileMark →
        ∀ q ∈ places before t, q.Passes (a.after (after before t)).place := by
  have hbacked : t.Backed := by
    have hdelivers := openAt_eq r framed p
    rw [hopen] at hdelivers
    obtain ⟨F, -, hF, -⟩ := hdelivers
    exact hF.backed
  refine ⟨FitFor.pairwise (.inl hbacked) hasks, ?_, ?_⟩
  · rintro before n behind got u rfl hread hgot q hq
    obtain ⟨hfit, hbehind⟩ := FitFor.after (.inl hbacked) hasks
    have hafter : (Ask.read n).after (after before t) = u := Ask.after_read_ok hread
    have hpasses : (after before t).place.Passes u.place :=
      ((hread ▸ proceeds_read n (after before t) : _ ∧ _).2 hgot).place
    have hnext := hfit.next hbehind
    have hrest := hbehind.2
    rw [hafter] at hnext hrest
    exact hpasses.trans_reaches (hnext.reaches hrest hq)
  · rintro before a behind rfl hno hstop q hq
    obtain ⟨hfit, -⟩ := FitFor.after (.inl hbacked) hasks
    have hreaches := FitFor.reaches_after (.inl hbacked) hasks.of_append hq
    exact hreaches.trans_passes (hfit.proceeds.2 hno hstop)

/-- Two tape records and a file mark. -/
def markedTape : Medium := .ofBytes (Image.tape [.record [1, 2, 3], .record [4], .fileMark]).toArray

/-- Over the records of a tape, and over the mark behind them. -/
theorem places_in_order_markedTape :
    ∃ t, openAt (.ofMedium markedTape) true (.start 0) = .ok t ∧
      places [.read 2, .peek, .read 2, .peek, .read 9, .peek, .read 1] t =
        [⟨0, 0⟩, ⟨0, 2⟩, ⟨0, 2⟩, ⟨15, 0⟩, ⟨15, 0⟩, ⟨28, 0⟩, ⟨40, 0⟩, ⟨40, 0⟩] ∧
      (places [.read 2, .peek, .read 2, .peek, .read 9, .peek, .read 1] t).Pairwise
        Place.Reaches := by
  have hrun : (openAt (.ofMedium markedTape) true (.start 0)).toOption.map (fun t =>
      (decide (Undisturbed [.read 2, .peek, .read 2, .peek, .read 9, .peek, .read 1] t),
        places [.read 2, .peek, .read 2, .peek, .read 9, .peek, .read 1] t)) =
      some (true, [⟨0, 0⟩, ⟨0, 2⟩, ⟨0, 2⟩, ⟨15, 0⟩, ⟨15, 0⟩, ⟨28, 0⟩, ⟨40, 0⟩, ⟨40, 0⟩]) := by
    decide +kernel
  cases hopen : openAt (.ofMedium markedTape) true (.start 0) with
  | error e =>
    rw [hopen] at hrun
    cases hrun
  | ok t =>
    rw [hopen] at hrun
    simp only [Except.toOption, Option.map_some, Option.some.injEq, Prod.mk.injEq,
      decide_eq_true_eq] at hrun
    exact ⟨t, rfl, hrun.2, (places_in_order hopen hrun.1).1⟩

/-- A tape with two stray marks in front of a record that is said to be longer than the tape. -/
def strayMarks : Medium :=
  .ofBytes ((TapeMark.mk 0 0 12).toBytes ++ List.replicate 12 0 ++ (TapeMark.mk 0 0 51).toBytes ++
    (TapeMark.mk 0 0 80).toBytes ++ [1, 2]).toArray

/-- Looking ahead again after a look ahead that failed can lead back. -/
theorem places_strayPeek :
    ∃ t, openAt (.ofMedium strayMarks) true (.start 0) = .ok t ∧
      ¬ (places [.read 1, .peek, .read 25, .peek, .read 1, .read 1, .peek] t).Pairwise
        Place.Reaches := by
  have hrun : (openAt (.ofMedium strayMarks) true (.start 0)).toOption.map
      (places [.read 1, .peek, .read 25, .peek, .read 1, .read 1, .peek]) =
      some [⟨12, 0⟩, ⟨12, 0⟩, ⟨12, 1⟩, ⟨12, 26⟩, ⟨51, 0⟩, ⟨51, 0⟩, ⟨51, 1⟩, ⟨51, 0⟩] := by
    decide +kernel
  cases hopen : openAt (.ofMedium strayMarks) true (.start 0) with
  | error e =>
    rw [hopen] at hrun
    cases hrun
  | ok t =>
    rw [hopen] at hrun
    simp only [Except.toOption, Option.map_some, Option.some.injEq] at hrun
    refine ⟨t, rfl, ?_⟩
    rw [hrun]
    decide

end Track

end WellLog
