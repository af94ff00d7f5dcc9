import WellLog.Proofs.LogicalStream.Stall
import WellLog.Proofs.Record.Scan
/-!
# Scans at a header that is no header

A scan is made of calls on a logical stream, so it leaves a stream sound as they do, and finds
nothing where they deliver nothing.  A visible record header that is none is a structural failure
to it: the scan breaks off there, and keeps the records found before.

* `LogicalStream.Tries` : a call or a scan, failing or not, as a step from one stream to the next.
* `LogicalStream.BreaksOff e` : a scan comes to a step that fails with `e`.
* `LogicalStream.stalls_at_damage` : **behind a header that is none, nothing comes before the next
  seek**, exactly if no other header is found there four bytes at a time.
-/

namespace WellLog

namespace LogicalStream

variable {m : Medium} {framed : Bool} {F : Feed} {k n : Nat} {s s' u : LogicalStream}
  {j : Journalled LogicalStream}

/-- A scan passes over records and comes to a step that fails with `e`.  It is said whether the next
record would be the first one. -/
inductive BreaksOff (e : FormatError) :
    Bool → Journalled LogicalStream → Journalled LogicalStream → Prop where
  /-- The next step fails. -/
  | here {first : Bool} {j j' : Journalled LogicalStream} (run : nextRecord first j = .error e j') :
    BreaksOff e first j j'
  /-- A record is found before. -/
  | later {first explicit : Bool} {offset : Nat} {j i j' : Journalled LogicalStream}
    (run : nextRecord first j = .ok (.record offset explicit) i)
    (others : BreaksOff e false i j') : BreaksOff e first j j'

/-- The rest of a scan that breaks off, where some records may have been found. -/
theorem ends_collect_breaksOff (most : Nat) (explicits implicits : Array Nat)
    (j : Journalled LogicalStream) :
    Ends
      (fun index j' => index.isBroken = true → ∃ e i, e.isStructural = true ∧
        BreaksOff e (explicits.size + implicits.size == 0) j i ∧ i.state = j'.state)
      (fun e j' => BreaksOff e (explicits.size + implicits.size == 0) j j')
      (collect most explicits implicits j) := by
  refine ends_collect_keeps
    (I := fun explicits' implicits' i => ∀ e i',
      BreaksOff e (explicits'.size + implicits'.size == 0) i i' →
        BreaksOff e (explicits.size + implicits.size == 0) j i')
    (fun _ _ _ _ => nofun) ?_ fun _ _ => id
  intro explicits' implicits' i hbreaks
  cases hrun : nextRecord (explicits'.size + implicits'.size == 0) i with
  | ok found i' =>
    cases found with
    | record offset explicit =>
      intro e i'' hothers
      rw [size_pushIf_add] at hothers
      exact hbreaks e i'' (.later hrun hothers)
    | boundary place => exact fun _ => nofun
    | nothing =>
      intro hbroken
      simp only [RecordIndex.isBroken] at hbroken
      split at hbroken <;> cases hbroken
  | error e i' =>
    have hhere := hbreaks e i' (.here hrun)
    rw [ends_error, StepFails]
    split
    · exact fun _ _ => ⟨e, i', ‹_›, hhere, rfl⟩
    · exact hhere

/-- A scan that finds bytes that are no record breaks off, and so does one that fails. -/
theorem ends_findRecords_breaksOff (j : Journalled LogicalStream) :
    Ends
      (fun index j' => index.isBroken = true →
        ∃ e i, e.isStructural = true ∧ BreaksOff e true j i ∧ i.state = j'.state)
      (fun e j' => BreaksOff e true j j') (findRecords j) := by
  unfold findRecords
  rw [bind_state]
  exact ends_collect_breaksOff _ #[] #[] j

theorem ends_accept_of {α : Type} {r : Except Defect α} {Q : α → Journalled LogicalStream → Prop}
    {E : FormatError → Journalled LogicalStream → Prop} (hQ : ∀ a, Q a j)
    (hE : ∀ d, E (.defect d) j) : Ends Q E (accept r j) := by
  cases r with
  | ok a => exact hQ a
  | error d => exact hE d

section

variable (hlasts : F.ending.Lasts)
include hlasts

/-! ### Scans on a stream that is blocked -/

theorem Blocked.ends_nextRecord (h : j.state.Blocked m framed F) (first : Bool) :
    Ends
      (fun found j' => found = .nothing ∧ j'.state.Blocked m framed F ∧ OnlyTrack j.state j'.state)
      (fun _ j' => j'.state.Blocked m framed F ∧ OnlyTrack j.state j'.state)
      (nextRecord first j) := by
  unfold nextRecord
  rw [ends_bind, ends_liftRead]
  refine (h.ends_fill hlasts).mono ?_ fun _ _ => id
  rintro more s' ⟨rfl, -, hs'⟩
  exact ⟨rfl, hs'⟩

/-- Where a stream is blocked, a scan finds nothing. -/
theorem Blocked.ends_findRecords (h : j.state.Blocked m framed F) :
    Ends
      (fun index j' => index.isEmpty = true ∧ j'.state.Blocked m framed F ∧
        OnlyTrack j.state j'.state)
      (fun _ j' => j'.state.Blocked m framed F ∧ OnlyTrack j.state j'.state)
      (findRecords j) := by
  unfold findRecords
  rw [bind_state]
  refine ends_collect_succ ((h.ends_nextRecord hlasts _).mono ?_ ?_)
  · rintro found j' ⟨rfl, hj'⟩
    exact ⟨rfl, hj'⟩
  · intro e j' hj'
    unfold StepFails
    split
    · exact fun _ => ⟨rfl, hj'⟩
    · exact hj'

/-! ### Scans on any stream -/

variable (hsealed : F.Sealed)
include hsealed

/-- A header is read in front of the damage only. -/
theorem Sound.ends_readHeader (h : s.Sound m framed F) :
    Ends
      (fun found s' => s'.Sound m framed F ∧
        (found.isSome = true → s.tell < F.contents.bytes.length))
      (fun e s' => s'.Leaves m framed F (.io e)) (SegmentHeader.read s) := by
  have hkeeps : Ends (fun _ s' => s'.Sound m framed F) (fun e s' => s'.Leaves m framed F (.io e))
      (SegmentHeader.read s) := by
    unfold SegmentHeader.read SegmentHeader.readFrom
    rw [ends_bind]
    refine (h.ends_gather hlasts hsealed _).mono ?_ fun _ _ => id
    intro got s' hs'
    split
    · exact hs'
    · exact hs'
    · exact ⟨hs', False.elim⟩
  have hbound : Ends (fun found _ => found.isSome = true → s.tell < F.contents.bytes.length)
      (fun _ _ => True) (SegmentHeader.read s) := by
    obtain ⟨k, hat⟩ | hstalled := h
    · refine hat.ends_readHeader.mono ?_ fun _ _ _ => trivial
      rintro found s' ⟨rfl, -⟩ hsome
      by_contra hle
      rw [List.drop_of_length_le (by rw [← hat.tell]; omega)] at hsome
      cases hsome
    · unfold SegmentHeader.read SegmentHeader.readFrom
      rw [ends_bind]
      refine (hstalled.ends_gather hlasts (by decide)).mono ?_ fun _ _ _ => trivial
      rintro got s' ⟨rfl, -⟩
      exact nofun
  exact (hkeeps.and hbound).mono (fun _ _ => id) fun _ _ h => h.1

theorem Sound.ends_requireHeader (h : j.state.Sound m framed F) (offset : Nat) :
    Ends (fun _ j' => j'.state.Sound m framed F) (fun e j' => j'.state.Leaves m framed F e)
      (requireHeader offset j) := by
  unfold requireHeader
  rw [ends_bind, ends_liftRead]
  refine (h.ends_readHeader hlasts hsealed).mono ?_ fun _ _ => id
  rintro found s' ⟨hs', -⟩
  cases found with
  | none => exact ⟨hs', False.elim⟩
  | some header =>
    simp only
    rw [ends_bind]
    exact ends_accept_of (fun _ => hs') fun _ => ⟨hs', False.elim⟩

theorem Sound.ends_skipSegments (h : j.state.Sound m framed F) (offset most : Nat)
    (header : SegmentHeader) :
    Ends (fun _ j' => j'.state.Sound m framed F) (fun e j' => j'.state.Leaves m framed F e)
      (skipSegments offset most header j) := by
  induction most generalizing j header with
  | zero => exact h
  | succ most ih =>
    unfold skipSegments
    rw [ends_bind, ends_liftRead]
    refine (h.ends_skip hlasts hsealed _).mono ?_ fun _ _ => id
    rintro - s' hs'
    split
    · rw [ends_bind]
      refine (Sound.ends_requireHeader hlasts hsealed (j := ⟨s', j.notes⟩) hs' offset).mono ?_
        fun _ _ => id
      intro next j' hj'
      split
      · exact ⟨hj', False.elim⟩
      · exact ih hj' next
    · exact hs'

/-- Behind a header that was read in front of the damage. -/
theorem Sound.ends_pass (h : j.state.Sound m framed F) (header : SegmentHeader) (opens : Bool)
    (hbound : s.tell < F.contents.bytes.length) :
    Ends
      (fun found j' => j'.state.Sound m framed F ∧
        ∀ offset explicit, found = .record offset explicit → offset < F.contents.bytes.length)
      (fun e j' => j'.state.Leaves m framed F e) (pass s header opens j) := by
  refine LogicalStream.ends_pass (fun _ place atStart _ => ?_) ?_
  · cases atStart with
    | false => exact ⟨h, False.elim⟩
    | true => exact ⟨h, fun _ _ => nofun⟩
  · refine (h.ends_skipSegments hlasts hsealed _ _ header).mono ?_ fun _ _ => id
    intro _ j' hj'
    refine ⟨hj', ?_⟩
    rintro offset explicit ⟨⟩
    exact hbound

/-- A step of a scan finds records in front of the damage only. -/
theorem Sound.ends_nextRecord (h : j.state.Sound m framed F) (first : Bool) :
    Ends
      (fun found j' => j'.state.Sound m framed F ∧
        ∀ offset explicit, found = .record offset explicit → offset < F.contents.bytes.length)
      (fun e j' => j'.state.Leaves m framed F e) (nextRecord first j) := by
  unfold nextRecord
  rw [ends_bind, ends_liftRead]
  refine (h.ends_fill hlasts hsealed).mono ?_ fun _ _ h => h.1
  intro more s hs
  split
  · exact ⟨hs, fun _ _ => nofun⟩
  · rw [ends_bind, ends_state, ends_bind, ends_liftRead]
    refine (hs.ends_readHeader hlasts hsealed).mono ?_ fun _ _ => id
    rintro found s' ⟨hs', hbound⟩
    cases found with
    | none => exact ⟨hs', fun _ _ => nofun⟩
    | some header =>
      simp only
      rw [ends_bind]
      refine ends_accept_of (fun _ => ?_) fun _ => ⟨hs', False.elim⟩
      split
      · exact ⟨hs', False.elim⟩
      · exact Sound.ends_pass hlasts hsealed (j := ⟨s', j.notes⟩) hs' header _ (hbound rfl)

/-- A scan that breaks off leaves what its last step does. -/
theorem Sound.leaves_of_breaksOff (h : j.state.Sound m framed F) {e : FormatError} {first : Bool}
    {j' : Journalled LogicalStream} (hbreaks : BreaksOff e first j j') :
    j'.state.Leaves m framed F e := by
  induction hbreaks with
  | @here first j j' run =>
    have hstep := h.ends_nextRecord hlasts hsealed first
    rw [run] at hstep
    exact hstep
  | @later first explicit offset j i j' run others ih =>
    have hstep := h.ends_nextRecord hlasts hsealed first
    rw [run] at hstep
    exact ih hstep.1

/-- **A scan finds records in front of the damage only.** -/
theorem Sound.ends_collect (h : j.state.Sound m framed F) (most : Nat)
    {explicits implicits : Array Nat}
    (hbefore : ∀ offset ∈ explicits.toList ++ implicits.toList,
      offset < F.contents.bytes.length) :
    Ends
      (fun index j' => j'.state.Sound m framed F ∧
        ∀ offset ∈ index.explicits ++ index.implicits, offset < F.contents.bytes.length)
      (fun e j' => j'.state.Leaves m framed F e) (collect most explicits implicits j) := by
  refine ends_collect_keeps
    (I := fun explicits implicits j => j.state.Sound m framed F ∧
      ∀ offset ∈ explicits.toList ++ implicits.toList, offset < F.contents.bytes.length)
    (fun _ _ _ => id) ?_ ⟨h, hbefore⟩
  rintro explicits implicits j ⟨h, hbefore⟩
  refine (h.ends_nextRecord hlasts hsealed _).mono ?_ ?_
  · rintro found j' ⟨hj', hfound⟩
    cases found with
    | record offset explicit =>
      have hoffset := hfound offset explicit rfl
      refine ⟨hj', fun o ho => ?_⟩
      obtain (ho | rfl) | ho | rfl :=
        (List.mem_append.1 ho).imp mem_of_mem_pushIf mem_of_mem_pushIf
      · exact hbefore o (List.mem_append_left _ ho)
      · exact hoffset
      · exact hbefore o (List.mem_append_right _ ho)
      · exact hoffset
    | boundary place => exact fun _ => ⟨hj', hbefore⟩
    | nothing => exact ⟨hj', hbefore⟩
  · intro e j' hj'
    unfold StepFails
    split
    · exact fun _ => ⟨hj'.sound, hbefore⟩
    · exact hj'

theorem Sound.ends_findRecords (h : j.state.Sound m framed F) :
    Ends
      (fun index j' => j'.state.Sound m framed F ∧
        ∀ offset ∈ index.explicits ++ index.implicits, offset < F.contents.bytes.length)
      (fun e j' => j'.state.Leaves m framed F e) (findRecords j) := by
  unfold findRecords
  rw [bind_state]
  exact h.ends_collect hlasts hsealed _ nofun

end

/-! ### Any calls and scans -/

/-- A call of `P`, or a scan, leads from the one stream to the other, whether it fails or not. -/
inductive Tries (P : Call → Prop) : LogicalStream → LogicalStream → Prop where
  /-- A call that succeeds. -/
  | answered {s s' : LogicalStream} {call : Call} {answer : Answer} (allowed : P call)
    (run : call.run s = .ok answer s') : Tries P s s'
  /-- A call that fails. -/
  | failed {s s' : LogicalStream} {call : Call} {e : FormatError} (allowed : P call)
    (run : call.run s = .error e s') : Tries P s s'
  /-- A scan. -/
  | scanned {s : LogicalStream} {notes : Array Note} {index : RecordIndex}
    {j : Journalled LogicalStream} (run : findRecords ⟨s, notes⟩ = .ok index j) :
    Tries P s j.state
  /-- A scan that fails. -/
  | scanFailed {s : LogicalStream} {notes : Array Note} {e : FormatError}
    {j : Journalled LogicalStream} (run : findRecords ⟨s, notes⟩ = .error e j) :
    Tries P s j.state

/-- What every call and every scan leads to, whether it fails or not. -/
theorem Tries.of_ends {P : Call → Prop} {Q : LogicalStream → Prop} (h : Tries P s s')
    (hcall : ∀ call, P call → Ends (fun _ u => Q u) (fun _ u => Q u) (call.run s))
    (hscan : ∀ notes, Ends (fun _ j => Q j.state) (fun _ j => Q j.state)
      (findRecords ⟨s, notes⟩)) : Q s' := by
  cases h with
  | @answered _ call _ allowed run =>
    have hrun := hcall call allowed
    rw [run] at hrun
    exact hrun
  | @failed _ call _ allowed run =>
    have hrun := hcall call allowed
    rw [run] at hrun
    exact hrun
  | @scanned notes _ _ run =>
    have hrun := hscan notes
    rw [run] at hrun
    exact hrun
  | @scanFailed notes _ _ run =>
    have hrun := hscan notes
    rw [run] at hrun
    exact hrun

/-- Any number of calls and scans. -/
abbrev ComesTo : LogicalStream → LogicalStream → Prop := Relation.ReflTransGen (Tries fun _ => True)

/-- Any number of calls and scans, without a seek. -/
abbrev GoesOn : LogicalStream → LogicalStream → Prop :=
  Relation.ReflTransGen (Tries fun call => ¬ call.IsSeek)

/-- A call other than a seek, or a scan, meets the failure `e`. -/
inductive Meets (e : FormatError) : LogicalStream → LogicalStream → Prop where
  /-- The call fails. -/
  | call {s s' : LogicalStream} {call : Call} (other : ¬ call.IsSeek)
    (run : call.run s = .error e s') : Meets e s s'
  /-- The scan breaks off. -/
  | scan {s : LogicalStream} {notes : Array Note} {j : Journalled LogicalStream}
    (run : BreaksOff e true ⟨s, notes⟩ j) : Meets e s j.state

/-- Nothing comes from `u`, which has the offset and the visible records of `s`. -/
structure Idles (F : Feed) (s u : LogicalStream) : Prop where
  /-- The offset is the same. -/
  tell : u.tell = s.tell
  /-- No visible record was passed. -/
  passed : u.passed = s.passed
  /-- A call that asks for a byte fails, unless the track stops. -/
  run : ∀ call : Call, call.Asks →
    Ends (fun answer _ => answer.IsNothing ∧ F.ending.Stops) (fun _ _ => True) (call.run u)
  /-- No record is found. -/
  findRecords : ∀ notes, Ends (fun index _ => index.isEmpty = true) (fun _ _ => True)
    (LogicalStream.findRecords ⟨u, notes⟩)

section

variable (hlasts : F.ending.Lasts)
include hlasts

/-- A stream that is blocked remains so, whatever is tried. -/
theorem Blocked.of_goesOn (h : s.Blocked m framed F) (hgo : GoesOn s u) :
    u.Blocked m framed F ∧ OnlyTrack s u := by
  induction hgo with
  | refl => exact ⟨h, .refl s⟩
  | @tail s₁ s₂ _ step ih =>
    obtain ⟨h₁, honly⟩ := ih
    have hstep : s₂.Blocked m framed F ∧ OnlyTrack s₁ s₂ :=
      step.of_ends
        (fun _ hseek => (h₁.ends_run hlasts hseek).mono (fun _ _ h => h.2) fun _ _ => id)
        fun notes => (Blocked.ends_findRecords hlasts (j := ⟨s₁, notes⟩) h₁).mono
          (fun _ _ h => h.2) fun _ _ => id
    exact ⟨hstep.1, honly.trans hstep.2⟩

theorem Blocked.idles (h : s.Blocked m framed F) (hgo : GoesOn s u) : Idles F s u := by
  obtain ⟨hu, honly⟩ := h.of_goesOn hlasts hgo
  refine ⟨honly.tell, honly.passed, fun call hasks => ?_, fun notes => ?_⟩
  · exact (hu.ends_run hlasts hasks.not_isSeek).mono (fun _ _ h => h.1 hasks)
      fun _ _ _ => trivial
  · exact (Blocked.ends_findRecords hlasts (j := ⟨u, notes⟩) hu).mono (fun _ _ h => h.1)
      fun _ _ _ => trivial

variable (hsealed : F.Sealed)
include hsealed

theorem Sound.of_comesTo (h : s.Sound m framed F) (hcomes : ComesTo s u) : u.Sound m framed F := by
  induction hcomes with
  | refl => exact h
  | @tail s₁ s₂ _ step ih =>
    exact step.of_ends
      (fun call _ => (ih.ends_run hlasts hsealed call).mono (fun _ _ => id) fun _ _ h => h.sound)
      fun notes => (Sound.ends_findRecords hlasts hsealed (j := ⟨s₁, notes⟩) ih).mono
        (fun _ _ h => h.1) fun _ _ h => h.sound

theorem Sound.leaves_of_meets (h : s.Sound m framed F) {e : FormatError} (hmeets : Meets e s s') :
    s'.Leaves m framed F e := by
  cases hmeets with
  | @call _ call _ run =>
    have hrun := h.ends_run hlasts hsealed call
    rw [run] at hrun
    exact hrun
  | @scan notes _ run => exact Sound.leaves_of_breaksOff hlasts hsealed (j := ⟨s, notes⟩) h run

end

/-- Where a header lies ahead four bytes at a time, it is entered in the end. -/
theorem exists_fill_of_headed (i : Nat) {bytes : List UInt8} (hrem : s.remaining = 0)
    (hd : s.track.Delivers m framed ⟨bytes, F.ending⟩)
    (hheaded : Headed (bytes.drop (VisibleHeader.size * i))) :
    ∃ u v, GoesOn s u ∧ Call.fill.run u = .ok (.filled true) v ∧ v.tell = s.tell ∧
      ((∀ record ∈ s.passed, record.start < s.tell) →
        ∃ record, v.passed = record :: s.passed) := by
  -- every fill that fails uses up four bytes
  induction i generalizing s bytes with
  | zero =>
    obtain ⟨v, hrun, hv⟩ := fill_of_headed hrem hd hheaded
    exact ⟨s, v, .refl, hrun, hv⟩
  | succ i ih =>
    by_cases hnow : Headed bytes
    · obtain ⟨v, hrun, hv⟩ := fill_of_headed hrem hd hnow
      exact ⟨s, v, .refl, hrun, hv⟩
    · have hsize := hheaded.size_le
      rw [List.length_drop] at hsize
      obtain ⟨e, s', hrun, -, honly, hd'⟩ :=
        fill_of_not_headed hrem hd (by omega) hnow
      rw [Nat.mul_add, Nat.mul_one, Nat.add_comm, ← List.drop_drop] at hheaded
      obtain ⟨u, v, hgo, hfill, hv⟩ := ih (honly.remaining.trans hrem) hd' hheaded
      rw [honly.tell, honly.passed] at hv
      exact ⟨u, v, .head (.failed id hrun) hgo, hfill, hv⟩

/-- Unless nothing else is found behind it, a header that is none is stepped over: a later `fill`
takes other bytes for the header of a visible record, at the same offset. -/
theorem At.steps_over (h : s.At m framed F 0) (hno : ¬ F.Sealed) :
    ∃ r e r' u v, ComesTo s r ∧ Call.fill.run r = .error e r' ∧ e.IsHeaderFault ∧ GoesOn r' u ∧
      Call.fill.run u = .ok (.filled true) v ∧ v.tell = r'.tell ∧
      ∃ record, v.passed = record :: r'.passed := by
  -- first to the end of the contents, in front of the damage
  have hlen : 0 + F.contents.bytes.length ≤ F.contents.bytes.length :=
    Nat.le_of_eq (Nat.zero_add _)
  obtain ⟨r, hskip, hr⟩ := h.skip_of_le hlen
  rw [Nat.zero_add] at hr
  have hcall : Ends (fun answer u => answer = .moved ∧ u = r) (fun _ _ => False)
      ((Call.skip F.contents.bytes.length).run s) := by
    unfold Call.run
    rw [ends_bind, ends_liftIo, hskip]
    exact ⟨rfl, rfl⟩
  obtain ⟨_, _, hrun, rfl, rfl⟩ := hcall.exists_ok
  have hrem := hr.remaining_of_not_sealed hno
  obtain ⟨hout, hd⟩ := hr.delivers hrem
  have hnone := Feed.not_headed_of_not_sealed hno hout
  obtain ⟨i, hi⟩ : ∃ i, Headed (((F.outlook F.contents.bytes.length).bytes.drop
      VisibleHeader.size).drop (VisibleHeader.size * i)) := by
    simpa only [Feed.Sealed, Barren, not_forall, not_not] using hno
  have hsize := hi.size_le
  rw [List.length_drop, List.length_drop] at hsize
  obtain ⟨e, r', hfault, he, honly, hd'⟩ := fill_of_not_headed hrem hd (by omega) hnone
  obtain ⟨u, v, hgo, hfill, htell, hpassed⟩ :=
    exists_fill_of_headed i (honly.remaining.trans hrem) hd' hi
  refine ⟨_, e, r', u, v, .single (.answered trivial hrun), hfault, he, hgo, hfill, htell,
    hpassed fun record hrecord => ?_⟩
  rw [honly.passed] at hrecord
  rw [honly.tell, hr.tell]
  obtain ⟨hle, -, hheader, -⟩ := hr.passed record hrecord
  refine Nat.lt_of_le_of_ne hle fun heq => hnone ?_
  rwa [heq] at hheader

/-- **Nothing comes behind a header that is none**, if no other header is found there four bytes at
a time, and only then.  No tape mark that is malformed or cut short may lie ahead.

Then, when a call or a scan has met such a header, the stream keeps its offset and its visible
records, and nothing comes from it before the next seek: every call that asks for a byte fails,
unless the track stops there and the call says so.  No scan finds a record behind the damage, and
every seek leads to what it leads to on a stream that was just opened, up to the place that is named
with a header cut short. -/
theorem stalls_at_damage {t : Track} (hm : t.reader.medium = m) (hf : t.isFramed = framed)
    {origin : Place} (hplace : m.feedAt framed origin = .ok F) (hlasts : F.ending.Lasts) :
    ∃ start, openAt t origin = .ok start ∧
      (F.Sealed ↔ ∀ s e s', ComesTo start s → Meets e s s' → e.IsHeaderFault →
        ∀ u, GoesOn s' u → Idles F s' u) ∧
      (F.Sealed → ∀ s, ComesTo start s →
        (∀ n e s', Call.fill.run s = .error e s' ∨ (Call.read n).run s = .error e s' →
          e.IsHeaderFault → s'.tell = s.tell ∧ s'.passed = s.passed) ∧
        (∀ notes, Ends
          (fun index j =>
            (∀ offset ∈ index.explicits ++ index.implicits, offset < F.contents.bytes.length) ∧
            (index.isBroken = true →
              ∃ e i, e.isStructural = true ∧ BreaksOff e true ⟨s, notes⟩ i ∧ i.state = j.state))
          (fun _ _ => True) (findRecords ⟨s, notes⟩)) ∧
        ∀ offset, Agree (fun _ u _ v => Twins ⟨m, framed, F⟩ ⟨m, framed, F⟩ offset u v)
          (fun e _ e' _ => ∃ x x', e = .io x ∧ e' = .io x' ∧ x.unplaced = x'.unplaced)
          (seek offset s) (seek offset start)) := by
  obtain ⟨start, hopen, hat, -⟩ := openAt_at hm hf hplace
  refine ⟨start, hopen, ⟨fun hsealed s e s' hs hmeets hfault u hu => ?_, fun hidles => ?_⟩,
    fun hsealed s hs => ?_⟩
  · have hsound := hat.sound.of_comesTo hlasts hsealed hs
    have hblocked := (hsound.leaves_of_meets hlasts hsealed hmeets).blocked hfault
    exact hblocked.idles hlasts hu
  · by_contra hno
    obtain ⟨r, e, r', u, v, hr, hfault, he, hu, hfill, -⟩ := hat.steps_over hno
    have hrun := (hidles r e r' hr (.call id hfault) he u hu).run .fill trivial
    rw [hfill] at hrun
    exact Bool.noConfusion hrun.1
  · have hsound := hat.sound.of_comesTo hlasts hsealed hs
    refine ⟨?_, fun notes => ?_, fun offset => ?_⟩
    · intro n e s' hrun hfault
      have honly := hsound.onlyTrack_of_run hlasts hsealed hrun hfault
      exact ⟨honly.tell, honly.passed⟩
    · have hfound := Sound.ends_findRecords hlasts hsealed (j := ⟨s, notes⟩) hsound
      exact (hfound.and (ends_findRecords_breaksOff ⟨s, notes⟩)).mono
        (fun _ _ h => ⟨h.1.2, h.2⟩) fun _ _ _ => trivial
    · exact Anchored.agree_seek (O := ⟨m, framed, F⟩) hsound.anchored hat.toAnchored offset

/-- A visible record, and twelve bytes behind it that are no header. -/
def deadEnd : Medium := ⟨(pack [List.replicate 16 7] ++ List.replicate 12 0).toArray, .inBursts 2⟩

/-- The first four of the twelve bytes are met, and nothing comes from then on. -/
theorem stalls_at_damage_deadEnd :
    ∃ start s e s' e' u, openAt ⟨.ofMedium deadEnd, .plain 0, none⟩ (.start 0) = .ok start ∧
      (Call.skip 16).run start = .ok .moved s ∧ Call.fill.run s = .error e s' ∧
      e.IsHeaderFault ∧ Call.fill.run s' = .error e' u ∧ Idles (deadEnd.plainFeed 0) s' u := by
  have hlasts : (deadEnd.plainFeed 0).ending.Lasts := by
    have hending : (deadEnd.plainFeed 0).ending = .stopped .mediumEnd (.start 32) := by
      decide +kernel
    intro e he
    rw [hending] at he
    cases he
  have hplace : deadEnd.feedAt false (.start 0) = .ok (deadEnd.plainFeed 0) := rfl
  obtain ⟨start, hopen, hiff, -⟩ :=
    stalls_at_damage (t := ⟨.ofMedium deadEnd, .plain 0, none⟩) rfl rfl hplace hlasts
  have hidles := hiff.1 (by decide +kernel)
  obtain rfl : start = ⟨⟨.ofMedium deadEnd, .plain 0, none⟩, .start 0, [], none, 0, 0⟩ := by
    cases hopen
    rfl
  let calls : EStateM FormatError LogicalStream
      (Answer × Except FormatError Answer × Except FormatError Answer) := do
    return (← (Call.skip 16).run, ← attempt Call.fill.run, ← attempt Call.fill.run)
  have hcalls : Ends
      (fun (skipped, first, second) _ => skipped = .moved ∧
        first = .error (.io (.malformed (.visibleRecord 0 0 0))) ∧
        second = .error (.io (.malformed (.visibleRecord 0 0 0))))
      (fun _ _ => False)
      (calls ⟨⟨.ofMedium deadEnd, .plain 0, none⟩, .start 0, [], none, 0, 0⟩) := by
    decide +kernel
  rw [ends_bind] at hcalls
  obtain ⟨_, s, hskip, hcalls⟩ := hcalls.exists_ok
  rw [ends_bind, ends_attempt] at hcalls
  cases hfirst : Call.fill.run s with
  | ok answer s' =>
    rw [hfirst, ends_ok, ends_bind, ends_attempt] at hcalls
    cases hsecond : Call.fill.run s' with
    | ok _ u | error _ u =>
      rw [hsecond] at hcalls
      obtain ⟨-, hno, -⟩ := hcalls
      cases hno
  | error e s' =>
    rw [hfirst, ends_error, ends_bind, ends_attempt] at hcalls
    cases hsecond : Call.fill.run s' with
    | ok _ u =>
      rw [hsecond] at hcalls
      obtain ⟨-, -, hno⟩ := hcalls
      cases hno
    | error e' u =>
      rw [hsecond] at hcalls
      obtain ⟨rfl, hseen, -⟩ := hcalls
      cases hseen
      refine ⟨_, s, _, s', e', u, hopen, hskip, hfirst, trivial, hsecond, ?_⟩
      exact hidles s _ s' (.single (.answered trivial hskip)) (.call id hfirst) trivial u
        (.single (.failed id hsecond))

/-- A visible record, four bytes that are no header, and another visible record. -/
def torn : Medium :=
  .ofBytes (pack [(List.range 16).map UInt8.ofNat] ++ List.replicate 4 0 ++
    pack [List.replicate 16 0x77]).toArray

/-- **A header that is none may be stepped over.**  The `fill` behind the first visible record
fails, and the next one succeeds: it enters the visible record behind the damage, at the offset
where it failed before, and remembers it. -/
theorem fill_torn :
    ∃ start s e s' u, openAt ⟨.ofMedium torn, .plain 0, none⟩ (.start 0) = .ok start ∧
      (Call.skip 16).run start = .ok .moved s ∧ Call.fill.run s = .error e s' ∧
      e.IsHeaderFault ∧ Call.fill.run s' = .ok (.filled true) u ∧ u.tell = s'.tell ∧
      u.passed = ⟨16, .start 24, 16⟩ :: s'.passed := by
  let start : LogicalStream := ⟨⟨.ofMedium torn, .plain 0, none⟩, .start 0, [], none, 0, 0⟩
  let calls : EStateM FormatError LogicalStream
      (Answer × Except FormatError Answer × LogicalStream × Answer) := do
    return (← (Call.skip 16).run, ← attempt Call.fill.run, ← get, ← Call.fill.run)
  have hcalls : Ends
      (fun (skipped, first, between, second) u => skipped = .moved ∧
        first = .error (.io (.malformed (.visibleRecord 0 0 0))) ∧ second = .filled true ∧
        u.tell = between.tell ∧ u.passed = ⟨16, .start 24, 16⟩ :: between.passed)
      (fun _ _ => False) (calls start) := by
    decide +kernel
  rw [ends_bind] at hcalls
  obtain ⟨_, s, hskip, hcalls⟩ := hcalls.exists_ok
  rw [ends_bind, ends_attempt] at hcalls
  cases hfirst : Call.fill.run s with
  | ok answer s' =>
    rw [hfirst, ends_ok, ends_bind, ends_get, ends_bind] at hcalls
    obtain ⟨_, u, -, -, hno, -⟩ := hcalls.exists_ok
    cases hno
  | error e s' =>
    rw [hfirst, ends_error, ends_bind, ends_get, ends_bind] at hcalls
    obtain ⟨_, u, hsecond, rfl, hseen, rfl, htell, hpassed⟩ := hcalls.exists_ok
    cases hseen
    exact ⟨start, s, _, s', u, rfl, hskip, hfirst, trivial, hsecond, htell, hpassed⟩

end LogicalStream

end WellLog
