import Mathlib.Logic.Relation
import WellLog.Image.Tape
import WellLog.Proofs.Track.InStep
/-!
# Calls on a track that fail

A call on a track can fail in two ways: the medium refuses to be read, or what it delivers is not
what a tape image has there.  After a refusal a track is as good as before.  Whatever is read from
it is refused in the same way, for as long as the medium refuses.

A tape mark that does not fit is different.  Its bytes are used up, but the track still has the
place in front of them, so the next read takes what follows for the mark (`Track.read_strayTape`).
Such a track has to be moved before it is read again: a move puts every track in step
(`Track.movesAsOpened`).

* `Track.Refuses e t` : every read of the track fails with `e`, and leaves the track as it is.
* `Track.refuses_of_read`, `Track.ends_moveTo_failure` : a call that is refused leads to such a
  track.
* `Track.Delivers.place_of_read_error` : a read that fails keeps the place.
* `Track.after_failure` : **a refusal lasts, a failure keeps the place**, and a move puts the track in
  step.
-/

namespace WellLog

namespace Reader

/-- The medium fails in this way at the reader's place and behind it. -/
def Refuses (e : IoError) (r : Reader) : Prop :=
  ∃ fault, r.medium.manner.fault = some fault ∧ fault.error = e ∧ fault.start ≤ r.position

variable {r r' : Reader} {e : IoError} {n : Nat}

theorem Refuses.read (h : r.Refuses e) (n : Nat) : Reader.read n r = .error e r := by
  obtain ⟨fault, hfault, rfl, hstart⟩ := h
  unfold Reader.read
  rw [hfault]
  exact if_pos hstart

/-- A read that fails is refused. -/
theorem ends_read_refuses (n : Nat) (r : Reader) :
    Ends (fun _ _ => True) (fun e r' => r'.Refuses e) (Reader.read n r) := by
  unfold Reader.read
  cases hfault : r.medium.manner.fault with
  | none => exact trivial
  | some fault =>
    simp only
    split
    · rename_i hstart
      exact ⟨fault, hfault, rfl, hstart⟩
    · exact trivial

theorem Refuses.readMark (h : r.Refuses e) : TapeMark.read r = .error e r := by
  have hgather : gather Reader.read TapeMark.size r = .error e r := by
    rw [gather_of_pos (by decide), h.read]
  unfold TapeMark.read
  simp only [bind, EStateM.bind]
  rw [hgather]

/-- Reading a tape mark is refused, or the mark is cut. -/
theorem ends_readMark_refuses (r : Reader) :
    Ends (fun _ _ => True) (fun e r' => r'.Refuses e ∨ ∃ n, e = .tapeMarkCut n)
      (TapeMark.read r) := by
  unfold TapeMark.read
  rw [ends_bind]
  have hgather := ends_gather_keeps (I := fun _ => True)
    (fun n r _ _ => ends_read_refuses n r) TapeMark.size (s := r) trivial
  refine hgather.mono ?_ fun _ _ => .inl
  intro bytes r' _
  split
  · exact trivial
  · split
    · exact trivial
    · exact .inr ⟨_, rfl⟩

end Reader

/-- An empty tape record stands at the offset. -/
def Medium.EmptyRecordAt (m : Medium) (offset : Nat) : Prop :=
  ∃ k, m.markAt offset = .ok (some k) ∧ k.Fits offset ∧ ¬ k.IsFileMark ∧
    k.next.toNat = offset + TapeMark.size

namespace Track

variable {m : Medium} {framed : Bool} {t t' u : Track} {e : IoError} {n : Nat} {p : Place}

/-- The medium fails in this way wherever the track is read. -/
structure Refuses (e : IoError) (t : Track) : Prop where
  /-- So does it for the reader. -/
  reader : t.reader.Refuses e
  /-- The track has not stopped. -/
  stop : t.stop = none

/-- **A track that refuses refuses every read**, and stays as it is. -/
theorem Refuses.read (h : t.Refuses e) (hn : 0 < n) : Track.read n t = .error e t := by
  obtain ⟨r, framing, stop⟩ := t
  obtain ⟨hr, rfl⟩ := h
  simp only at hr
  cases framing with
  | plain q => rw [read_plain hn, hr.read]
  | tape s =>
    rw [read_tape hn]
    by_cases hrem : s.remaining ≠ 0
    · have hdata : toData r s = .ok (some s) ⟨r, .tape s, none⟩ := by
        rw [toData, if_pos hrem]
      rw [hdata]
      simp only
      rw [hr.read]
    · have hdata : toData r s = .error e ⟨r, .tape s, none⟩ := by
        rw [toData, if_neg hrem, hr.readMark]
      rw [hdata]

/-- Where the next byte is looked for, the medium refuses, or a tape mark is not what it should
be. -/
theorem ends_toData_refuses (r : Reader) (s : TapeRecord) :
    Ends (fun _ _ => True) (fun e t => t.Refuses e ∨ (∃ n, e = .tapeMarkCut n) ∨ ∃ d, e = .malformed d)
      (toData r s) := by
  fun_induction toData r s with
  | case2 r s hrem e r' hread =>
    obtain hr' | hcut := hread ▸ Reader.ends_readMark_refuses r
    · exact .inl ⟨hr', rfl⟩
    · exact .inr (.inl hcut)
  | case1 | case3 | case4 => exact True.intro
  | case5 r s hrem k r' hread hfits hmark ih => exact ih
  | case6 => exact .inr (.inr ⟨_, rfl⟩)

/-- Where a track is read, the medium refuses, or a tape mark is not what it should be. -/
theorem ends_read_refuses (n : Nat) (t : Track) :
    Ends (fun _ _ => True) (fun e u => u.Refuses e ∨ (∃ n, e = .tapeMarkCut n) ∨ ∃ d, e = .malformed d)
      (read n t) := by
  obtain hstay | ⟨hn, r, ⟨p, rfl⟩ | ⟨s, rfl⟩⟩ := read_cases n t
  · rw [hstay]
    exact True.intro
  · exact ends_read_plain hn
      ((Reader.ends_read_refuses n r).mono (fun _ _ _ => True.intro) fun _ _ h => .inl ⟨h, rfl⟩)
  · refine ends_read_tape hn (P := fun _ _ => True) ((ends_toData_refuses r s).mono ?_ fun _ _ => id)
      fun s' r' _ _ => (Reader.ends_read_refuses _ r').mono
        (fun _ _ _ => ⟨fun _ => True.intro, fun _ => True.intro⟩) fun _ _ h => .inl ⟨h, rfl⟩
    rintro (_ | s') u -
    · exact True.intro
    · exact fun _ _ => True.intro

/-- **A read that the medium refuses leads to a track that refuses.** -/
theorem refuses_of_read {kind : IoKind} {message : String}
    (h : read n t = .error (.medium kind message) t') : t'.Refuses (.medium kind message) := by
  have hread := ends_read_refuses n t
  rw [h, ends_error] at hread
  obtain hrefuses | ⟨k, hcut⟩ | ⟨d, hbad⟩ := hread
  · exact hrefuses
  · cases hcut
  · cases hbad

/-- **A move that the medium refuses leads to a track that refuses.**  Every move that fails keeps
the place, unless it finds the tape record too short for the bytes to skip. -/
theorem ends_moveTo_failure (p : Place) (t : Track) :
    Ends (fun _ _ => True)
      (fun e t' => (∀ x, e = .io x → t'.Refuses x ∨ ∃ n, x = .tapeMarkCut n) ∧
        ((∀ offset skip length, e ≠ .defect (.segmentOverrun offset skip length)) →
          t'.place = t.place))
      (moveTo p t) := by
  obtain ⟨r, framing, stop⟩ := t
  cases framing with
  | plain q => exact trivial
  | tape s =>
    have hmark := Reader.ends_readMark_refuses (r.seek p.offset)
    have hmove := movesTo r s stop p
    generalize moveTo p ⟨r, .tape s, stop⟩ = result at hmove ⊢
    cases hmove with
    | unread mark =>
      rw [mark, ends_error] at hmark
      refine ⟨?_, fun _ => rfl⟩
      rintro _ ⟨⟩
      exact hmark.imp_left fun hr' => ⟨hr', rfl⟩
    | mediumEnd | fileMark | record => exact trivial
    | misfit =>
      refine ⟨?_, fun _ => rfl⟩
      rintro _ ⟨⟩
    | overrun =>
      refine ⟨?_, fun hno => absurd rfl (hno _ _ _)⟩
      rintro _ ⟨⟩

/-! ### The place of a track that fails -/

/-- Behind a record that is used up, unless an empty one follows, the next byte is looked for at the
place of the track, and nowhere else. -/
theorem ends_toData_place {r : Reader} {s : TapeRecord} (hr : r.At m s.tell) (hs : s.On m)
    (hempty : s.remaining = 0 → ¬ m.EmptyRecordAt s.next) :
    Ends (fun found _ => ∀ s', found = some s' → s'.place = s.place)
      (fun _ t => t.place = s.place) (toData r s) := by
  by_cases hrem : s.remaining = 0
  · have hplace : s.place = .start s.next :=
      TapeRecord.place_of_le (Nat.le_of_eq (hs.tell_eq hrem).symm)
    have hmark := TapeMark.ends_read hr
    rw [hs.tell_eq hrem] at hmark
    rw [toData, if_neg (not_not.2 hrem)]
    cases hread : TapeMark.read r with
    | error e r' => exact rfl
    | ok found r' =>
      rw [hread, ends_ok] at hmark
      obtain ⟨hmark, -, -⟩ := hmark
      cases found with
      | none => rintro _ ⟨⟩
      | some k =>
        simp only
        by_cases hfits : k.Fits s.next
        · rw [dif_pos hfits]
          by_cases hfile : k.IsFileMark
          · rw [if_pos hfile]
            rintro _ ⟨⟩
          · -- the record behind the mark is not empty, so the byte is looked for in it
            have hnext : k.next.toNat ≠ s.next + TapeMark.size := fun hno =>
              hempty hrem ⟨k, hmark, hfits, hfile, hno⟩
            have hlt : s.next + TapeMark.size < k.next.toNat :=
              Nat.lt_of_le_of_ne hfits.next hnext.symm
            have hrem' : (⟨s.next, k.next.toNat, 0⟩ : TapeRecord).remaining ≠ 0 := by
              simp only [TapeRecord.remaining, TapeRecord.tell]
              omega
            rw [if_neg hfile, toData, if_pos hrem']
            rintro s' ⟨⟩
            rw [hplace, TapeRecord.place_of_lt (s := ⟨s.next, k.next.toNat, 0⟩) hlt]
            rfl
        · rw [dif_neg hfits]
          exact rfl
  · rw [toData, if_pos hrem]
    rintro s' ⟨⟩
    rfl

/-- **A read that fails keeps the place**, unless it steps over an empty tape record. -/
theorem Delivers.place_of_read_error {F : Feed} (h : t.Delivers m framed F)
    (hempty : ¬ m.EmptyRecordAt t.place.offset) (hread : read n t = .error e t') :
    t'.place = t.place := by
  have hends : Ends (fun _ _ => True) (fun _ u => u.place = t.place) (read n t) := by
    obtain hstay | ⟨hn, r, ⟨p, rfl⟩ | ⟨s, rfl⟩⟩ := read_cases n t
    · rw [hstay]
      exact True.intro
    · exact ends_read_plain hn ((Ends.trivial _).mono (fun _ _ _ => True.intro) fun _ _ _ => rfl)
    · cases h with
      | stopped _ hstop => cases hstop
      | tape hr hs =>
        have hplace : ∀ r stop, (⟨r, .tape s, stop⟩ : Track).place = s.place := fun _ _ => rfl
        rw [hplace] at hempty ⊢
        have hsteps := ends_toData_place hr hs fun hrem => by
          rwa [TapeRecord.place_of_le (Nat.le_of_eq (hs.tell_eq hrem).symm)] at hempty
        refine ends_read_tape hn (P := fun s' _ => s'.place = s.place) (hsteps.mono ?_ fun _ _ => id) ?_
        · rintro (_ | s') u hfound
          · exact True.intro
          · exact fun _ _ => hfound s' rfl
        · exact fun s' r' _ hs' => (Ends.trivial _).mono
            (fun _ _ _ => ⟨fun _ => True.intro, fun _ => True.intro⟩) fun _ _ _ => hs'
  rw [hread] at hends
  exact hends

/-! ### Moves -/

/-- A move to `p` leads to what a track delivers that is opened there, or it fails as opening one
does. -/
def MovesAsOpened (t : Track) (p : Place) : Prop :=
  ∀ r : Reader, r.medium = t.reader.medium →
    match moveTo p t, openAt r t.isFramed p with
    | .ok _ u, .ok v => ∃ bytes ending, u.Unrolls bytes ending ∧ v.Unrolls bytes ending
    | .error e _, .error e' => e' = e
    | _, _ => False

/-- **A move puts every track in step.** -/
theorem movesAsOpened (t : Track) (p : Place) : t.MovesAsOpened p := by
  intro r hr
  have hmove := ends_moveTo (t := t) rfl rfl p
  have hopen := openAt_eq r t.isFramed p
  rw [hr] at hopen
  cases hmoved : moveTo p t with
  | ok _ u =>
    rw [hmoved, ends_ok] at hmove
    obtain ⟨F, hF, hu⟩ := hmove
    cases hopened : openAt r t.isFramed p with
    | ok v =>
      rw [hopened] at hopen
      obtain ⟨G, hG, hv, -⟩ := hopen
      rw [hF] at hG
      cases hG
      exact ⟨F.bytes, F.ending, hu.unrolls, hv.unrolls⟩
    | error e' =>
      rw [hopened, hF] at hopen
      cases hopen
  | error e u =>
    rw [hmoved] at hmove
    obtain ⟨he, -⟩ := hmove
    cases hopened : openAt r t.isFramed p with
    | ok v =>
      rw [hopened] at hopen
      obtain ⟨G, hG, -⟩ := hopen
      rw [he] at hG
      cases hG
    | error e' =>
      rw [hopened, he] at hopen
      cases hopen
      rfl

/-! ### What follows a failure -/

/-- One call on a track, a read or a move, that fails with `e`. -/
inductive Fails : FormatError → Track → Track → Prop where
  /-- A read of at most `n` bytes. -/
  | read {t t' : Track} {e : IoError} (n : Nat) (run : Track.read n t = .error e t') :
    Fails (.io e) t t'
  /-- A move to `p`. -/
  | moved {t t' : Track} {e : FormatError} (p : Place) (run : moveTo p t = .error e t') :
    Fails e t t'

/-- One read leads from one track to the other, whether it fails or not. -/
def Tries (t t' : Track) : Prop :=
  ∃ n, (∃ got, read n t = .ok got t') ∨ ∃ e, read n t = .error e t'

/-- A track that refuses stays as it is, however often it is read. -/
theorem Refuses.eq_of_tries (h : t.Refuses e) (htries : Relation.ReflTransGen Tries t u) :
    u = t := by
  induction htries with
  | refl => rfl
  | tail _ step ih =>
    obtain ⟨n, hstep⟩ := ih ▸ step
    obtain hzero | hpos := Nat.eq_zero_or_pos n
    · subst hzero
      rw [read_zero] at hstep
      obtain ⟨got, hgot⟩ | ⟨x, hx⟩ := hstep
      · cases hgot
        rfl
      · cases hx
    · rw [h.read hpos] at hstep
      obtain ⟨got, hgot⟩ | ⟨x, hx⟩ := hstep
      · cases hgot
      · cases hx
        rfl

/-- **What a call that fails leaves.**  If the medium refuses the call, every read after it is
refused in the same way, whatever was read in between.  The place is still the one from before the
call: after a move unless the tape record there was too short for the bytes to skip, and after a
read if the track was in step and no empty tape record was stepped over. -/
theorem after_failure {e : FormatError} (h : Fails e t t') :
    (∀ kind message, e = .io (.medium kind message) → ∀ u, Relation.ReflTransGen Tries t' u →
      ∀ n, 0 < n → read n u = .error (.medium kind message) u) ∧
    ((t.InStep ∧ ¬ t.reader.medium.EmptyRecordAt t.place.offset ∨ ∃ p, moveTo p t = .error e t') →
      (∀ offset skip length, e ≠ .defect (.segmentOverrun offset skip length)) →
        t'.place = t.place) ∧
    ∀ p, t'.MovesAsOpened p := by
  refine ⟨?_, ?_, t'.movesAsOpened⟩
  · rintro kind message rfl u htries n hn
    have hrefuses : t'.Refuses (.medium kind message) := by
      cases h with
      | read n run => exact refuses_of_read run
      | moved p run =>
        have hmove := ends_moveTo_failure p t
        rw [run, ends_error] at hmove
        obtain hrefuses | ⟨n, hcut⟩ := hmove.1 _ rfl
        · exact hrefuses
        · cases hcut
    rw [hrefuses.eq_of_tries htries]
    exact hrefuses.read hn
  · intro hcall hlong
    have hmoved : ∀ p, moveTo p t = .error e t' → t'.place = t.place := by
      intro p run
      have hmove := ends_moveTo_failure p t
      rw [run, ends_error] at hmove
      exact hmove.2 hlong
    obtain ⟨hstep, hempty⟩ | ⟨p, run⟩ := hcall
    · cases h with
      | read n run =>
        obtain ⟨F, hF⟩ := hstep.delivers
        exact hF.place_of_read_error hempty run
      | moved p run => exact hmoved p run
    · exact hmoved p run

/-- A tape that cannot be read from the middle of its second mark on. -/
def tornTape : Medium :=
  ⟨(Image.tape [.record [1, 2, 3, 4], .record [5]]).toArray,
    Manner.plain.withFault ⟨20, .medium .other "torn"⟩⟩

/-- The bytes in front of a tape mark that the medium refuses are read, and then every read is
refused, but the track can be moved back. -/
theorem after_failure_tornTape :
    ∃ start t t', openAt (.ofMedium tornTape) true (.start 0) = .ok start ∧
      read 4 start = .ok [1, 2, 3, 4] t ∧ read 4 t = .error (.medium .other "torn") t' ∧
      t'.place = t.place ∧ (∀ n, 0 < n → read n t' = .error (.medium .other "torn") t') ∧
      t'.MovesAsOpened (.start 0) := by
  let calls : EStateM FormatError Track (List UInt8 × Place × Except IoError (List UInt8)) := do
    moveTo (.start 0)
    let got ← read 4
    let here := (← get).place
    return (got, here, ← attempt (read 4))
  have hcalls : Ends
      (fun (got, here, failed) _ => got = [1, 2, 3, 4] ∧ here = .start 16 ∧
        failed = .error (.medium .other "torn"))
      (fun _ _ => False) (calls ⟨.ofMedium tornTape, .tape ⟨0, 0, 0⟩, none⟩) := by decide +kernel
  rw [ends_bind] at hcalls
  obtain ⟨_, start, hmove, hcalls⟩ := hcalls.exists_ok
  rw [ends_bind, ends_liftIo] at hcalls
  obtain ⟨got, t, hread, hcalls⟩ := hcalls.exists_ok
  rw [ends_bind, ends_get, ends_bind, ends_attempt] at hcalls
  have hopen := openAt_of_moveTo hmove
  cases hrun : read 4 t with
  | ok got' t' =>
    rw [hrun, ends_ok, ends_pure] at hcalls
    obtain ⟨-, -, hno⟩ := hcalls
    cases hno
  | error e t' =>
    rw [hrun, ends_error, ends_pure] at hcalls
    obtain ⟨rfl, hplace, he⟩ := hcalls
    cases he
    obtain ⟨hlasts, hkeeps, hmoves⟩ := after_failure (.read 4 hrun)
    have hstart := openAt_eq (.ofMedium tornTape) true (.start 0)
    rw [hopen] at hstart
    obtain ⟨F, -, hF, -⟩ := hstart
    obtain ⟨rest, -, ht⟩ := hF.of_reads (.tail (.refl start) hread (List.cons_ne_nil _ _))
    have hmark : tornTape.markAt 16 = .error (.medium .other "torn") := by decide +kernel
    refine ⟨start, t, t', hopen, hread, hrun,
      hkeeps (.inl ⟨.read (.opened hopen) hread, ?_⟩) nofun, hlasts _ _ rfl t' .refl,
      hmoves (.start 0)⟩
    rw [ht.medium, hplace]
    rintro ⟨k, hk, -⟩
    rw [Place.start, Reader.ofMedium, hmark] at hk
    cases hk

/-- A tape whose second mark is all zeros; the twelve bytes behind it make a mark that would fit
there. -/
def strayTape : Medium :=
  .ofBytes ((TapeMark.mk 0 0 16).toBytes ++ [1, 2, 3, 4] ++ (TapeMark.mk 0 0 0).toBytes ++
    (TapeMark.mk 0 0 42).toBytes ++ [5, 6]).toArray

/-- **Behind a mark that does not fit, reading goes on in the wrong place.**  The read fails and
keeps the place, where no track can be opened; the next read takes the bytes behind the mark for the
mark, and delivers what is behind those. -/
theorem read_strayTape :
    ∃ start t t' u, openAt (.ofMedium strayTape) true (.start 0) = .ok start ∧
      read 4 start = .ok [1, 2, 3, 4] t ∧ t.place = .start 16 ∧
      read 4 t = .error (.malformed (.tapeMark 16 0 0 0)) t' ∧ t'.place = .start 16 ∧
      openAt (.ofMedium strayTape) true (.start 16) = .error (.defect (.tapeMark 16 0 0 0)) ∧
      read 4 t' = .ok [5, 6] u := by
  let calls : EStateM FormatError Track
      (List UInt8 × Place × Except IoError (List UInt8) × Place × List UInt8) := do
    moveTo (.start 0)
    let got ← read 4
    let before := (← get).place
    let failed ← attempt (read 4)
    let after := (← get).place
    return (got, before, failed, after, ← read 4)
  have hcalls : Ends
      (fun (got, before, failed, after, more) _ => got = [1, 2, 3, 4] ∧ before = .start 16 ∧
        failed = .error (.malformed (.tapeMark 16 0 0 0)) ∧ after = .start 16 ∧ more = [5, 6])
      (fun _ _ => False) (calls ⟨.ofMedium strayTape, .tape ⟨0, 0, 0⟩, none⟩) := by decide +kernel
  rw [ends_bind] at hcalls
  obtain ⟨_, start, hmove, hcalls⟩ := hcalls.exists_ok
  rw [ends_bind, ends_liftIo] at hcalls
  obtain ⟨got, t, hread, hcalls⟩ := hcalls.exists_ok
  rw [ends_bind, ends_get, ends_bind, ends_attempt] at hcalls
  have hopen := openAt_of_moveTo hmove
  have hmark : strayTape.feedAt true (.start 16) = .error (.defect (.tapeMark 16 0 0 0)) := by
    have hzeros : strayTape.markAt 16 = .ok (some ⟨0, 0, 0⟩) := by decide +kernel
    simp only [Medium.feedAt, if_true, Place.start, hzeros]
    exact if_neg (by decide)
  have hopen' := openAt_eq (.ofMedium strayTape) true (.start 16)
  cases hrun : read 4 t with
  | ok got' t' =>
    rw [hrun, ends_ok, ends_bind, ends_get, ends_bind, ends_liftIo] at hcalls
    obtain ⟨more, u, -, hseen⟩ := hcalls.exists_ok
    obtain ⟨-, -, hno, -⟩ := hseen
    cases hno
  | error e t' =>
    rw [hrun, ends_error, ends_bind, ends_get, ends_bind, ends_liftIo] at hcalls
    obtain ⟨more, u, hmore, hseen⟩ := hcalls.exists_ok
    obtain ⟨rfl, hbefore, he, hafter, rfl⟩ := hseen
    cases he
    refine ⟨start, t, t', u, hopen, hread, hbefore, hrun, hafter, ?_, hmore⟩
    cases hrun' : openAt (.ofMedium strayTape) true (.start 16) with
    | ok v =>
      rw [hrun'] at hopen'
      obtain ⟨F, hF, -⟩ := hopen'
      rw [Reader.ofMedium, hmark] at hF
      cases hF
    | error e' =>
      rw [hrun'] at hopen'
      simp only [Reader.ofMedium, hmark] at hopen'
      cases hopen'
      rfl

end Track

end WellLog
