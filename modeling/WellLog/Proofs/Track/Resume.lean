import Mathlib.Logic.Relation
import WellLog.Image.Tape
import WellLog.Proofs.Track.Probe
import WellLog.Proofs.Track.Reading
/-!
# Taking up a track again

The place of a track is a bookmark.  Whatever was read and looked at before, a track that is opened
at this place delivers what the first one has still to deliver, although the place does not tell
all: behind the last byte of a tape record it is that of the next mark, and empty records and cut
ones share their places with what is behind them.

* `Track.Step` : one call that succeeds; `Track.Reached` : any number of them.
* `Track.Reached.delivers` : every track that calls lead to delivers a feed of its medium.
* `Track.resumes` : **a track is taken up at its place as if it had not been left**.
-/

namespace WellLog

/-- The same bytes, which can be read up to the same place, in pieces of any size. -/
structure Medium.Twin (m m' : Medium) : Prop where
  /-- The image. -/
  bytes : m'.bytes = m.bytes
  /-- Where reading fails, if it does. -/
  fault : m'.manner.fault = m.manner.fault

theorem Medium.Twin.feedAt_eq {m m' : Medium} (h : m.Twin m') : m'.feedAt = m.feedAt := by
  refine feedAt_congr ?_ ?_
  · funext p
    rw [bytesFrom, readable, h.bytes, h.fault]
    rfl
  · funext p
    rw [failure, h.fault]
    rfl

namespace Track

variable {m : Medium} {framed : Bool} {F : Feed} {t t' : Track} {bytes : List UInt8}
  {ending : Ending}

/-- One call on a track, which succeeds. -/
inductive Step : Track → Track → Prop where
  /-- A read of at most `n` bytes. -/
  | read {t t' : Track} {got : List UInt8} (n : Nat) (run : read n t = .ok got t') : Step t t'
  /-- A look at what comes next. -/
  | peek {t t' : Track} {found : Ahead} (run : peek t = .ok found t') : Step t t'

/-- Successful calls lead from one track to the other. -/
def Reached (t t' : Track) : Prop := Relation.ReflTransGen Step t t'

theorem Step.delivers (h : Step t t') (ht : t.Delivers m framed F) :
    ∃ F', t'.Delivers m framed F' := by
  cases h with
  | read n run =>
    cases n with
    | zero =>
      rw [read_zero] at run
      cases run
      exact ⟨F, ht⟩
    | succ n =>
      have hread := ht.readsFrom (Nat.succ_pos n)
      rw [ReadsFrom, run, ends_ok] at hread
      exact ⟨_, hread.2.2.2⟩
  | peek run =>
    have hpeek := ht.ends_peek
    rw [run, ends_ok] at hpeek
    exact ⟨F, hpeek.2.1⟩

/-- Whatever calls lead to, it delivers a feed of the same medium. -/
theorem Reached.delivers (h : Reached t t') (ht : t.Delivers m framed F) :
    ∃ F', t'.Delivers m framed F' := by
  induction h with
  | refl => exact ⟨F, ht⟩
  | tail _ step ih =>
    obtain ⟨F', hF'⟩ := ih
    exact step.delivers hF'

/-- What a reader leads to that opens a track at a place: the track unrolls `bytes`, or opening fails
in the way in which the first read of `bytes` would. -/
def Resumes (r : Reader) (framed : Bool) (p : Place) (bytes : List UInt8) (ending : Ending) : Prop :=
  match openAt r framed p with
  | .ok t => t.Unrolls bytes ending
  | .error e => bytes = [] ∧ ending = .failed e.toIo

/-- The place of a track that has not stopped leads to what the track delivers. -/
theorem Delivers.resumes_of_open (h : t.Delivers m framed F) (hopen : t.stop = none) {r : Reader}
    (hr : r.medium.feedAt = m.feedAt) : Resumes r framed t.place F.bytes F.ending := by
  have hplace := h.feedAt_place_of_open hopen
  have hat := openAt_eq r framed t.place
  unfold Resumes
  rw [hr] at hat
  cases hrun : openAt r framed t.place with
  | error e =>
    rw [hrun] at hat
    simp only at hat
    rw [hat] at hplace
    exact ⟨congrArg Feed.bytes hplace, congrArg Feed.ending hplace⟩
  | ok u =>
    rw [hrun] at hat
    obtain ⟨G, hG, hu, -⟩ := hat
    rw [hG] at hplace
    rw [hplace]
    exact hu.unrolls

/-- A byte that is seen ahead is the first one to come, and still comes. -/
theorem Delivers.unrolls_of_peek (h : t.Delivers m framed F) {b : UInt8}
    (hpeek : peek t = .ok (.byte b) t') :
    t'.stop = none ∧ t'.Unrolls F.bytes F.ending ∧ ∃ rest, F.bytes = b :: rest := by
  have hends := h.ends_peek
  rw [hpeek, ends_ok] at hends
  obtain ⟨-, hd, rest, hF⟩ := hends
  exact ⟨hd.stop_eq_none (hF ▸ List.cons_ne_nil b rest), hd.unrolls, rest, hF⟩

/-- **A track is taken up at its place as if it had not been left.**  Its place is a bookmark for
every reader of the same bytes: what it has still to deliver, in reads of any sizes, is delivered
from there in reads of any sizes, and the ending is the same.  In particular a byte that was seen
ahead is the first of these bytes. -/
theorem resumes {r r' : Reader} {p : Place} {start t : Track} (htwin : r.medium.Twin r'.medium)
    (hstart : openAt r framed p = .ok start) (hreached : Reached start t) :
    ∃ bytes ending, t.Unrolls bytes ending ∧
      (t.stop = none → Resumes r' framed t.place bytes ending) ∧
      ∀ b t', peek t = .ok (.byte b) t' →
        t'.stop = none ∧ t'.Unrolls bytes ending ∧ ∃ rest, bytes = b :: rest := by
  have hat := openAt_eq r framed p
  rw [hstart] at hat
  obtain ⟨F, -, hd, -⟩ := hat
  obtain ⟨F', hd'⟩ := hreached.delivers hd
  exact ⟨F'.bytes, F'.ending, hd'.unrolls, fun hopen => hd'.resumes_of_open hopen htwin.feedAt_eq,
    fun b t' hpeek => hd'.unrolls_of_peek hpeek⟩

/-- A tape with an empty record between two others. -/
def threeRecords : Medium := .ofBytes (Image.tape [.record [1, 2], .record [], .record [3]]).toArray

/-- Behind the first record, the place is that of the mark of the empty one. -/
theorem resumes_threeRecords :
    ∃ start t, openAt (.ofMedium threeRecords) true (.start 0) = .ok start ∧ Reached start t ∧
      t.stop = none ∧ t.place = .start 14 ∧
      ∃ bytes ending, t.Unrolls bytes ending ∧
        Resumes (.ofMedium ⟨threeRecords.bytes, .inBursts 1⟩) true (.start 14) bytes ending ∧
        ∃ t', peek t = .ok (.byte 3) t' ∧ t'.stop = none ∧ t'.Unrolls bytes ending ∧
          ∃ rest, bytes = 3 :: rest := by
  let calls : EStateM FormatError Track (Option Stop × Place × Ahead) := do
    moveTo (.start 0)
    let _ ← read 2
    let t ← get
    return (t.stop, t.place, ← peek)
  have hcalls : Ends (fun seen _ => seen = (none, .start 14, .byte 3)) (fun _ _ => False)
      (calls ⟨.ofMedium threeRecords, .tape ⟨0, 0, 0⟩, none⟩) := by decide +kernel
  rw [ends_bind] at hcalls
  obtain ⟨_, start, hmove, hcalls⟩ := hcalls.exists_ok
  rw [ends_bind, ends_liftIo] at hcalls
  obtain ⟨got, t, hread, hcalls⟩ := hcalls.exists_ok
  rw [ends_bind, ends_get, ends_bind] at hcalls
  obtain ⟨found, t', hpeek, hseen⟩ := hcalls.exists_ok
  obtain ⟨hstop, hplace, rfl⟩ : t.stop = none ∧ t.place = .start 14 ∧ found = .byte 3 := by
    simpa only [ends_pure, Prod.mk.injEq] using hseen
  have hstart := openAt_of_moveTo hmove
  have hreached : Reached start t := .single (.read 2 hread)
  obtain ⟨bytes, ending, hunrolls, hresumes, hahead⟩ :=
    @resumes true (.ofMedium threeRecords) (.ofMedium ⟨threeRecords.bytes, .inBursts 1⟩) (.start 0)
      start t ⟨rfl, rfl⟩ hstart hreached
  rw [hplace] at hresumes
  exact ⟨start, t, hstart, hreached, hstop, hplace, bytes, ending, hunrolls, hresumes hstop, t',
    hpeek, hahead 3 t' hpeek⟩

end Track

end WellLog
