import WellLog.Proofs.Record.Beside
import WellLog.Proofs.Segmentation.Calls
/-!
# Segmentations beside each other

Two segmentations of the same image: the source on the left is read in any pieces and may fail where
`H` says, and the one on the right delivers one byte at a time and never fails.

* `Segmentation.mirrors_turn` : **a turn leads to the same on both sides**, or the source on the left
  refuses.
* `Segmentation.mirrors_nextFile` : so does a call.
* `Segmentation.mirrors_start`, `Segmentation.matches_result` : the segmentations begin in the same
  way and stay beside each other, call by call, **up to the first refusal**.
-/

namespace WellLog

/-- A failure that `H` allows. -/
def LoadError.Of (H : IoError → Prop) : LoadError → Prop
  | .io e => H e
  | .format e => e.Of H
  | .tooWide _ => False

/-! ### Sources -/

/-- Openings and reads fail as `H` says, if they fail. -/
def Source.FailsAs (H : IoError → Prop) (s : Source) : Prop :=
  ∀ n, match s.manner n with
    | .error e => H e
    | .ok manner => ∀ fault, manner.fault = some fault → H fault.error

/-- The image, one byte at a time. -/
def Source.bytewise (image : Array UInt8) : Source := ⟨image, fun _ => .ok (.inBursts 1)⟩

/-- Every opening finds the same image. -/
theorem Source.matches_reader {H : IoError → Prop} {s : Source} (h : s.FailsAs H) (n : Nat) :
    Matches H (Reader.Beside H) (s.reader n) ((bytewise s.image).reader n) := by
  have hn := h n
  unfold reader
  cases hmanner : s.manner n with
  | error e =>
    rw [hmanner] at hn
    exact .refused _ hn
  | ok manner =>
    rw [hmanner] at hn
    exact .ok ⟨rfl, rfl, hn, rfl⟩

/-! ### Logical files -/

namespace LogicalFile

variable {H : IoError → Prop}

/-- The files differ in the medium below only. -/
def Beside (H : IoError → Prop) (f f' : LogicalFile) : Prop :=
  ∃ s', f.stream.Beside H s' ∧ f' = { f with stream := s' }

/-- **The same sample records are read.** -/
theorem mirrors_frameRecords (frame : Fingerprint) :
    Mirrors (LoadError.Of H) (Noted (Beside H)) Eq (frameRecords frame) (frameRecords frame) := by
  refine .bind_state ?_
  rintro f _ ⟨s', -, rfl⟩
  refine .adaptExcept (H := FormatError.Of H) ?_ fun _ => id
  refine .within (.mapM (fun offset => LogicalStream.mirrors_readRecord offset) _) ?_ ?_
  · rintro f _ ⟨s', hs, rfl⟩
    exact hs
  · rintro f _ t t' ⟨s', -, rfl⟩ ht
    exact ⟨t', ht, rfl⟩

end LogicalFile

namespace Segmentation

variable {H : IoError → Prop} {σ σ' α α' : Type}

/-- The segmentations differ in the source only. -/
def Beside (H : IoError → Prop) (s s' : Segmentation) : Prop :=
  s.source.FailsAs H ∧ s' = { s with source := .bytewise s.source.image }

/-- Turns that lead to the same. -/
inductive Turn.Beside (H : IoError → Prop) : Turn → Turn → Prop where
  /-- Another turn. -/
  | again : Beside H .again .again
  /-- The end. -/
  | finished : Beside H .finished .finished
  /-- Logical files that are beside each other. -/
  | file {f f' : LogicalFile} (files : f.Beside H f') : Beside H (.file f) (.file f')

/-! ### The steps of a turn -/

theorem mirrors_accept {ε : Type} {K : ε → Prop} {V : α → α' → Prop} {wrap : ε → LoadError}
    {r : Except ε α} {r' : Except ε α'} (h : Matches K V r r') (hwrap : ∀ e, K e → (wrap e).Of H) :
    Mirrors (LoadError.Of H) (Noted (Beside H)) V (accept wrap r) (accept wrap r') := by
  cases h with
  | refused r' blame => exact .of_refused fun _ => hwrap _ blame
  | ok values => exact .pure values
  | error e => exact .throw _

/-- A change that has nothing to do with the source. -/
theorem mirrors_update {f : Segmentation → Segmentation}
    (h : ∀ s source, f { s with source } = { f s with source } ∧ (f s).source = s.source) :
    Mirrors (LoadError.Of H) (Noted (Beside H)) Eq (update f) (update f) := by
  refine .modify ?_
  rintro ⟨s, notes⟩ ⟨_, notes'⟩ ⟨hs, rfl⟩
  obtain ⟨hf, hsource⟩ := h s (.bytewise s.source.image)
  refine ⟨?_, ?_⟩
  · simp only [hsource]
    exact hs
  · simp only [hf, hsource]

/-- The end of the segmentation. -/
theorem mirrors_done :
    Mirrors (LoadError.Of H) (Noted (Beside H)) Eq (update ({ · with done := true }))
      (update ({ · with done := true })) := mirrors_update fun _ _ => ⟨rfl, rfl⟩

theorem mirrors_aside {S : σ → σ' → Prop} {V : α → α' → Prop} {t : σ} {t' : σ'}
    {x : Logged FormatError σ α} {x' : Logged FormatError σ' α'}
    (h : Mirrors (FormatError.Of H) (Noted S) V x x') (ht : S t t') :
    Mirrors (LoadError.Of H) (Noted (Beside H)) (fun p p' => V p.1 p'.1 ∧ S p.2 p'.2) (aside t x)
      (aside t' x') := .adaptExcept (.apart h ht) fun _ => id

theorem mirrors_openTrack :
    Mirrors (LoadError.Of H) (Noted (Beside H)) (Track.Beside H) openTrack openTrack := by
  refine .bind_state ?_
  rintro s _ ⟨hs, rfl⟩
  refine .bind_eq (mirrors_update fun _ _ => ⟨rfl, rfl⟩) fun _ => ?_
  refine .bind (mirrors_accept (Source.matches_reader hs s.openings) fun _ => id) fun r r' hr => ?_
  exact mirrors_accept (Track.matches_openAt hr s.framed s.next) fun _ => id

theorem mirrors_ahead {t t' : Track} (h : t.Beside H t') :
    Mirrors (LoadError.Of H) (Noted (Beside H)) (fun p p' => p.1 = p'.1 ∧ p.2.Beside H p'.2)
      (ahead t) (ahead t') := mirrors_aside (.lift Track.mirrors_peek) h

theorem mirrors_stopAt (stop : Stop) {t t' : Track} (h : t.Beside H t') :
    Mirrors (LoadError.Of H) (Noted (Beside H)) (Turn.Beside H) (stopAt stop t) (stopAt stop t') := by
  unfold stopAt
  rw [h.place]
  refine .bind_eq (mirrors_update fun _ _ => ⟨rfl, rfl⟩) fun _ => ?_
  cases stop with
  | fileMark => exact .pure .again
  | mediumEnd => exact .bind_eq mirrors_done fun _ => .pure .finished

/-- **The same label is found.** -/
theorem mirrors_readLabel {t t' : Track} (h : t.Beside H t') :
    Mirrors (LoadError.Of H) (Noted (Beside H)) (Track.Beside H) (readLabel t) (readLabel t') := by
  refine .bind_state ?_
  rintro s _ ⟨-, rfl⟩
  refine .bind (mirrors_aside (.lift Track.mirrors_findLabel) h) ?_
  rintro ⟨probe, u⟩ ⟨_, u'⟩ ⟨rfl, hu⟩
  cases probe with
  | found label =>
    simp only
    split
    · exact .bind_note (.bind_note (.bind_eq (mirrors_update fun _ _ => ⟨rfl, rfl⟩) fun _ => .pure hu))
    · exact .bind_note (.bind_eq (mirrors_update fun _ _ => ⟨rfl, rfl⟩) fun _ => .pure hu)
  | cut available => exact .bind_note (.pure hu)
  | missing =>
    simp only
    split
    · exact .bind_note (.pure hu)
    · exact .pure hu

theorem mirrors_search (limit : Nat) {t t' : Track} (h : t.Beside H t') :
    Mirrors (LoadError.Of H) (Noted (Beside H)) (fun p p' => p.1 = p'.1 ∧ p.2.Beside H p'.2)
      (search limit t) (search limit t') := by
  refine .adaptExcept (.apart (Track.mirrors_locateVisible limit) h) fun e he => ?_
  cases e with
  | tooWide limit => exact he
  | format e => exact he

/-- **The first visible record is found in the same place**, or none is found on both sides. -/
theorem mirrors_locate {t t' : Track} (h : t.Beside H t') :
    Mirrors (LoadError.Of H) (Noted (Beside H))
      (Option.Rel fun p p' => p.1 = p'.1 ∧ p.2.Beside H p'.2) (locate t) (locate t') := by
  refine .bind_state ?_
  rintro s _ ⟨-, rfl⟩
  refine .attempt_bind (mirrors_search _ h) ?_ ?_ ?_
  · intro found found' hfound
    exact .pure (.some hfound)
  · -- only the failure to find a visible record is handled
    intro e
    split
    · rename_i heq
      cases heq
    · split
      · exact .throw_bind _
      · refine .bind_note ?_
        rw [h.place]
        exact .bind_eq (mirrors_update fun _ _ => ⟨rfl, rfl⟩) fun _ => .pure .none
    · rename_i heq
      cases heq
      exact .throw _
  · -- a refusal is no such failure, so it is passed on
    intro e j he
    match e, he with
    | .io e, he => exact he
    | .format (.io e), he => exact he

theorem mirrors_linkOnLoad {f f' : LogicalFile} (h : f.Beside H f') :
    Mirrors (LoadError.Of H) (Noted (Beside H)) (LogicalFile.Beside H) (linkOnLoad f)
      (linkOnLoad f') := by
  refine .bind_state ?_
  rintro s _ ⟨-, rfl⟩
  simp only
  split
  · have hlink : Mirrors (LoadError.Of H) (Noted (LogicalFile.Beside H)) Eq
        (LogicalFile.onPool Pool.link) (LogicalFile.onPool Pool.link) := by
      refine .within (.of_concur Pool.concur_link) ?_ ?_
      · rintro f _ ⟨s', -, rfl⟩
        rfl
      · rintro f _ p _ ⟨s', hs, rfl⟩ rfl
        exact ⟨s', hs, rfl⟩
    refine .bind (.apart hlink h) ?_
    rintro ⟨r, g⟩ ⟨r', g'⟩ ⟨-, hg⟩
    exact .pure hg
  · exact .pure h

section

variable (hH : ∀ e, H e → (FormatError.io e).isStructural = false)
include hH

/-- **The same records are found**, and the next turn takes up at the same place. -/
theorem mirrors_indexRecords {s s' : LogicalStream} (h : s.Beside H s') :
    Mirrors (LoadError.Of H) (Noted (Beside H)) (fun p p' => p.1 = p'.1 ∧ p.2.Beside H p'.2)
      (indexRecords s) (indexRecords s') := by
  refine .bind (mirrors_aside (LogicalStream.mirrors_findRecords hH) h) ?_
  rintro ⟨index, u⟩ ⟨_, u'⟩ ⟨rfl, hu⟩
  have horigin : u'.origin = u.origin := by
    obtain ⟨t', -, rfl⟩ := hu
    rfl
  refine .bind_eq (mirrors_update fun _ _ => ⟨rfl, rfl⟩) fun _ => ?_
  simp only [horigin]
  -- either reason to stop changes the segmentation, and not what is returned
  split
  · refine .bind_note (.bind_eq mirrors_done fun _ => ?_)
    split
    · exact .bind_note (.bind_eq mirrors_done fun _ => .pure ⟨rfl, hu⟩)
    · exact .pure ⟨rfl, hu⟩
  · split
    · exact .bind_note (.bind_eq mirrors_done fun _ => .pure ⟨rfl, hu⟩)
    · exact .pure ⟨rfl, hu⟩

/-- **The same logical file is loaded.** -/
theorem mirrors_loadFile (index : RecordIndex) {s s' : LogicalStream} (h : s.Beside H s') :
    Mirrors (LoadError.Of H) (Noted (Beside H)) (LogicalFile.Beside H) (loadFile index s)
      (loadFile index s') := by
  refine .bind (mirrors_aside (LogicalStream.mirrors_extractRecords hH _) h) ?_
  rintro ⟨records, u⟩ ⟨_, u'⟩ ⟨rfl, hu⟩
  refine .bind_eq (.of_concur (Record.concur_objectSets records)) fun sets => ?_
  refine .bind (mirrors_aside (LogicalStream.mirrors_indexFrames hH _) hu) ?_
  rintro ⟨frames, v⟩ ⟨_, v'⟩ ⟨rfl, hv⟩
  refine .bind_state ?_
  rintro s _ ⟨-, rfl⟩
  refine .bind (.apart (.of_concur (Pool.concur_addSets sets)) rfl) ?_
  rintro ⟨_, pool⟩ ⟨_, pool'⟩ ⟨rfl, hpool⟩
  obtain rfl : pool = pool' := hpool
  refine .bind (mirrors_linkOnLoad ?_) fun f f' hf => ?_
  · obtain ⟨t', ht, rfl⟩ := hv
    exact ⟨_, ⟨t', ht, rfl⟩, rfl⟩
  · exact .bind_eq (mirrors_update fun _ _ => ⟨rfl, rfl⟩) fun _ => .bind_note (.pure hf)

/-! ### Turns and calls -/

/-- **A turn leads to the same on both sides.** -/
theorem mirrors_turn :
    Mirrors (LoadError.Of H) (Noted (Beside H)) (Turn.Beside H) turn turn := by
  refine .bind mirrors_openTrack fun t t' ht => .bind (mirrors_ahead ht) ?_
  rintro ⟨ahead₁, u⟩ ⟨_, u'⟩ ⟨rfl, hu⟩
  cases ahead₁ with
  | stop stop =>
    simp only
    split
    · exact .bind_note (mirrors_stopAt stop hu)
    · exact mirrors_stopAt stop hu
  | byte b =>
    refine .bind (mirrors_readLabel hu) fun v v' hv => .bind (mirrors_ahead hv) ?_
    rintro ⟨ahead₂, w⟩ ⟨_, w'⟩ ⟨rfl, hw⟩
    cases ahead₂ with
    | stop stop => exact mirrors_stopAt stop hw
    | byte b =>
      refine .bind (mirrors_locate hw) fun found found' hfound => ?_
      cases hfound with
      | none => exact .pure .finished
      | @some p p' hp =>
        obtain ⟨origin, q⟩ := p
        obtain ⟨_, q'⟩ := p'
        obtain ⟨rfl, hq⟩ := hp
        refine .bind (mirrors_accept (LogicalStream.matches_openAt hq origin) fun _ => id) ?_
        intro s s' hs
        refine .bind (mirrors_indexRecords hH hs) ?_
        rintro ⟨index, s₁⟩ ⟨_, s₁'⟩ ⟨rfl, hs₁⟩
        simp only
        split
        · exact .bind_note (.pure .again)
        · exact .bind (mirrors_loadFile hH index hs₁) fun f f' hf => .pure (.file hf)

theorem mirrors_turns (most : Nat) :
    Mirrors (LoadError.Of H) (Noted (Beside H)) (Option.Rel (LogicalFile.Beside H)) (turns most)
      (turns most) := by
  induction most with
  | zero => exact .pure .none
  | succ most ih =>
    unfold turns
    refine .bind_state ?_
    rintro s _ ⟨-, rfl⟩
    simp only
    split
    · exact .pure .none
    · refine .bind (mirrors_turn hH) fun outcome outcome' h => ?_
      cases h with
      | again => exact ih
      | finished => exact .pure .none
      | file hf => exact .pure (.some hf)

/-- **A call returns the same on both sides.** -/
theorem mirrors_nextFile :
    Mirrors (LoadError.Of H) (Noted (Beside H)) (Option.Rel (LogicalFile.Beside H)) nextFile
      nextFile := by
  refine .bind_state ?_
  rintro s _ ⟨-, rfl⟩
  refine .attempt_bind (mirrors_turns hH _) ?_ ?_ ?_
  · intro found found' hfound
    exact .pure hfound
  · intro e
    exact .bind_eq mirrors_done fun _ => .throw e
  · intro e j he
    exact he

end

/-! ### Calls -/

section

variable {j : Journalled Segmentation} {j' : Journalled Segmentation}
  (hH : ∀ e, H e → (FormatError.io e).isStructural = false)
include hH

/-- One call leaves the segmentations beside each other, unless it is refused. -/
theorem beside_call (h : Noted (Beside H) j j') :
    Matches (LoadError.Of H) (Option.Rel (LogicalFile.Beside H)) (call j).1 (call j').1 ∧
      (Noted (Beside H) (call j).2 (call j').2 ∨ ∃ e, (call j).1 = .error e ∧ e.Of H) := by
  have hmirrors := mirrors_nextFile hH
  unfold call
  generalize nextFile = next at hmirrors ⊢
  cases hleft : next j with
  | error e k =>
    obtain hrefused | ⟨k', hright, hk⟩ := hmirrors.of_error h hleft
    · exact ⟨.refused _ hrefused, .inr ⟨e, rfl, hrefused⟩⟩
    · rw [hright]
      exact ⟨.error e, .inl hk⟩
  | ok found k =>
    obtain ⟨found', k', hright, hfound, hk⟩ := hmirrors.of_ok h hleft
    rw [hright]
    exact ⟨.ok hfound, .inl hk⟩

/-- **The segmentations stay beside each other**, up to the first refusal. -/
theorem beside_after (h : Noted (Beside H) j j') (n : Nat) :
    Noted (Beside H) (after j n) (after j' n) ∨ ∃ i < n, ∃ e, result j i = .error e ∧ e.Of H := by
  induction n with
  | zero => exact .inl h
  | succ n ih =>
    obtain hn | ⟨i, hi, hrefused⟩ := ih
    · obtain ⟨-, hstate | hrefused⟩ := beside_call hH hn
      · exact .inl hstate
      · exact .inr ⟨n, Nat.lt_succ_self n, hrefused⟩
    · exact .inr ⟨i, Nat.lt_succ_of_lt hi, hrefused⟩

/-- **Every call returns the same**, up to the first refusal. -/
theorem matches_result (h : Noted (Beside H) j j') (n : Nat) :
    Noted (Beside H) (after j n) (after j' n) ∧
        Matches (LoadError.Of H) (Option.Rel (LogicalFile.Beside H)) (result j n) (result j' n) ∨
      ∃ i < n, ∃ e, result j i = .error e ∧ e.Of H :=
  (beside_after hH h n).imp_left fun hn => ⟨hn, (beside_call hH hn).1⟩

/-- **Both segmentations begin in the same way**, unless the source on the left refuses. -/
theorem mirrors_start {source : Source} (h : source.FailsAs H) (settings : LoadSettings)
    (registry : Registry) :
    Mirrors (LoadError.Of H) (Noted Eq) (Beside H) (start source settings registry)
      (start (.bytewise source.image) settings registry) := by
  unfold start
  have hreader := Source.matches_reader h 0
  have hright : (Source.bytewise source.image).reader 0 =
      .ok (.ofMedium ⟨source.image, .inBursts 1⟩) := rfl
  rw [hright] at hreader ⊢
  cases hleft : source.reader 0 with
  | error e =>
    rw [hleft] at hreader
    cases hreader with
    | refused _ blame => exact .of_refused fun _ => blame
  | ok r =>
    rw [hleft] at hreader
    cases hreader with
    | ok hr =>
      simp only
      cases hdetect : TapeMark.detect r with
      | error e q =>
        obtain hrefused | ⟨q', hq, -⟩ := (TapeMark.mirrors_detect hH).of_error hr hdetect
        · exact .of_refused fun _ => hrefused
        · rw [hq]
          exact .throw _
      | ok mark q =>
        obtain ⟨_, q', hq, rfl, -⟩ := (TapeMark.mirrors_detect hH).of_ok hr hdetect
        rw [hq]
        exact .bind_note (.pure ⟨h, rfl⟩)

end

end Segmentation

end WellLog
