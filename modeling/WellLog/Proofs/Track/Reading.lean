import WellLog.Proofs.Track.Order
import WellLog.Proofs.Track.Sections
/-!
# Reading a track to its end

A track can be read to its end with reads of any sizes.  `Track.ReadsOut sizes t bytes ending` is
one such reading, where `sizes` says how many bytes each read asks for, and `Track.Unrolls` says
that all of them deliver the same.

`Track.Reads t bytes u` is a reading that breaks off: it delivers `bytes` and leads to `u`.

* `Track.Delivers.unrolls` : every reading of a track delivers its feed.
* `Track.Delivers.of_reads` : a reading that breaks off leaves the rest of the feed.
* `Track.unrolls_of_feedAt` : a track that is opened at a place unrolls what the medium has there.
* `Medium.RunsTo.unrolls` : a medium is read section by section, each taken up at the place where
  the one before ended.
-/

namespace WellLog

variable {m : Medium} {framed : Bool} {F : Feed} {t : Track} {bytes : List UInt8} {ending : Ending}

namespace Track

/-- Reading the track to its end, where `sizes` says how many bytes each read asks for, delivers
`bytes` and comes to this ending. -/
inductive ReadsOut : (Nat → Nat) → Track → List UInt8 → Ending → Prop where
  /-- A read delivers something, and the others the rest. -/
  | more {sizes : Nat → Nat} {t t' : Track} {got bytes : List UInt8} {ending : Ending}
    (delivered : read (sizes 0) t = .ok got t') (ne_nil : got ≠ [])
    (others : ReadsOut (fun i => sizes (i + 1)) t' bytes ending) :
    ReadsOut sizes t (got ++ bytes) ending
  /-- A read delivers nothing, and the track has stopped. -/
  | stop {sizes : Nat → Nat} {t t' : Track} {stop : Stop}
    (delivered : read (sizes 0) t = .ok [] t') (stopped : t'.stop = some stop) :
    ReadsOut sizes t [] (.stopped stop t'.place)
  /-- A read fails. -/
  | fail {sizes : Nat → Nat} {t t' : Track} {e : IoError}
    (failed : read (sizes 0) t = .error e t') : ReadsOut sizes t [] (.failed e)

/-- Whatever the sizes of the reads are, the track delivers `bytes` and comes to this ending. -/
def Unrolls (t : Track) (bytes : List UInt8) (ending : Ending) : Prop :=
  ∀ sizes : Nat → Nat, (∀ i, 0 < sizes i) → ReadsOut sizes t bytes ending

/-- What a reading delivers is determined by the sizes of its reads. -/
theorem ReadsOut.unique {sizes : Nat → Nat} {bytes' : List UInt8} {ending' : Ending}
    (h : ReadsOut sizes t bytes ending) (h' : ReadsOut sizes t bytes' ending') :
    bytes' = bytes ∧ ending' = ending := by
  induction h generalizing bytes' with
  | more delivered ne_nil others ih =>
    cases h' with
    | more delivered' ne_nil' others' =>
      rw [delivered] at delivered'
      cases delivered'
      obtain ⟨rfl, rfl⟩ := ih others'
      exact ⟨rfl, rfl⟩
    | stop delivered' _ =>
      rw [delivered] at delivered'
      cases delivered'
      exact absurd rfl ne_nil
    | fail failed' =>
      rw [delivered] at failed'
      cases failed'
  | stop delivered stopped =>
    cases h' with
    | more delivered' ne_nil' _ =>
      rw [delivered] at delivered'
      cases delivered'
      exact absurd rfl ne_nil'
    | stop delivered' stopped' =>
      rw [delivered] at delivered'
      cases delivered'
      rw [stopped] at stopped'
      cases stopped'
      exact ⟨rfl, rfl⟩
    | fail failed' =>
      rw [delivered] at failed'
      cases failed'
  | fail failed =>
    cases h' with
    | more delivered' _ _ | stop delivered' _ =>
      rw [failed] at delivered'
      cases delivered'
    | fail failed' =>
      rw [failed] at failed'
      cases failed'
      exact ⟨rfl, rfl⟩

/-- **Every reading of a track delivers its feed.** -/
theorem Delivers.unrolls (h : t.Delivers m framed F) : t.Unrolls F.bytes F.ending := by
  intro sizes hsizes
  -- every read but the last one leaves fewer bytes
  induction hlen : F.bytes.length using Nat.strongRecOn generalizing t F sizes with
  | _ n ih =>
    have hread := h.readsFrom (hsizes 0)
    unfold ReadsFrom at hread
    cases hrun : read (sizes 0) t with
    | error e t' =>
      obtain ⟨rfl, -⟩ := hrun ▸ hread
      exact .fail hrun
    | ok got t' =>
      obtain ⟨hgot, -, hpre, hd⟩ := hrun ▸ hread
      by_cases hnil : got = []
      · subst hnil
        obtain ⟨hb, stop, hstop⟩ := hgot.resolve_left fun h => h rfl
        have hending : F.ending = .stopped stop t'.place :=
          congrArg Feed.ending (hd.eq_of_stop hstop)
        rw [hb, hending]
        exact .stop hrun hstop
      · have hpos := List.length_pos_iff.2 hnil
        have hcount := congrArg List.length hpre
        rw [List.length_append] at hcount
        rw [hpre]
        exact .more hrun hnil (ih _ (by simp only; omega) hd _ (fun i => hsizes (i + 1)) rfl)

/-- A track unrolls in one way. -/
theorem Unrolls.unique {bytes' : List UInt8} {ending' : Ending} (h : t.Unrolls bytes ending)
    (h' : t.Unrolls bytes' ending') : bytes' = bytes ∧ ending' = ending :=
  (h (fun _ => 1) fun _ => Nat.one_pos).unique (h' (fun _ => 1) fun _ => Nat.one_pos)

/-- Reads of any sizes, each of which delivers something, deliver `bytes` in all and lead to another
track. -/
inductive Reads : Track → List UInt8 → Track → Prop where
  /-- Nothing is read. -/
  | refl (t : Track) : Reads t [] t
  /-- One more read. -/
  | tail {t u v : Track} {bytes got : List UInt8} {n : Nat} (before : Reads t bytes u)
    (run : read n u = .ok got v) (ne_nil : got ≠ []) : Reads t (bytes ++ got) v

/-- A read that delivers something asks for something. -/
theorem pos_of_read {n : Nat} {t' : Track} {got : List UInt8} (run : read n t = .ok got t')
    (ne_nil : got ≠ []) : 0 < n := by
  refine Nat.pos_of_ne_zero ?_
  rintro rfl
  rw [read_zero] at run
  cases run
  exact ne_nil rfl

/-- What was read comes off the feed. -/
theorem Delivers.of_reads (h : t.Delivers m framed F) {u : Track} (hr : t.Reads bytes u) :
    ∃ rest, F.bytes = bytes ++ rest ∧ u.Delivers m framed ⟨rest, F.ending⟩ := by
  induction hr with
  | refl => exact ⟨F.bytes, rfl, h⟩
  | @tail u v bytes got n before run ne_nil ih =>
    obtain ⟨rest, hF, hu⟩ := ih
    have hread := hu.readsFrom (pos_of_read run ne_nil)
    rw [ReadsFrom, run, ends_ok] at hread
    obtain ⟨-, -, hrest, hv⟩ := hread
    simp only at hrest
    refine ⟨rest.drop got.length, ?_, hv⟩
    rw [hF, List.append_assoc, ← hrest]

/-- Reading does not go back. -/
theorem Reads.reaches {u : Track} (h : t.Reads bytes u) : t.place.Reaches u.place := by
  induction h with
  | refl => exact .refl t.place
  | @tail u v bytes got n before run ne_nil ih =>
    obtain ⟨hforward, -⟩ := run ▸ proceeds_read n u
    exact ih.trans hforward.place

/-- A track that is opened at a place unrolls what the medium has there. -/
theorem unrolls_of_feedAt {p : Place} (h : m.feedAt framed p = .ok ⟨bytes, ending⟩) {r : Reader}
    (hr : r.medium = m) : ∃ t, openAt r framed p = .ok t ∧ t.Unrolls bytes ending := by
  have hopen := openAt_eq r framed p
  rw [hr] at hopen
  cases hrun : openAt r framed p with
  | error e =>
    rw [hrun, h] at hopen
    cases hopen
  | ok t =>
    rw [hrun] at hopen
    obtain ⟨F, hF, hd, -⟩ := hopen
    rw [h] at hF
    cases hF
    exact ⟨t, rfl, hd.unrolls⟩

end Track

namespace Medium

/-- A track that is opened at `p`, by any reader on the medium, unrolls `bytes`. -/
def UnrollsAt (m : Medium) (framed : Bool) (p : Place) (bytes : List UInt8) (ending : Ending) :
    Prop :=
  ∀ r : Reader, r.medium = m → ∃ t, Track.openAt r framed p = .ok t ∧ t.Unrolls bytes ending

/-- Tracks that are opened at `p`, and then at every place where the one before ended, unroll these
sections.  Behind the last one is the place `finish`. -/
inductive Unrolls (m : Medium) (framed : Bool) (finish : Place) :
    Place → List (List UInt8) → Prop where
  /-- The last section ends with the medium. -/
  | last {p : Place} {bytes : List UInt8}
    (read : m.UnrollsAt framed p bytes (.stopped .mediumEnd finish)) :
    Unrolls m framed finish p [bytes]
  /-- The others end with file marks. -/
  | cons {p q : Place} {bytes : List UInt8} {sections : List (List UInt8)}
    (read : m.UnrollsAt framed p bytes (.stopped .fileMark q))
    (others : Unrolls m framed finish q sections) : Unrolls m framed finish p (bytes :: sections)

/-- **A medium is read section by section**, in the places where its sections begin. -/
theorem RunsTo.unrolls {p finish : Place} {sections : List (List UInt8)}
    (h : m.RunsTo framed finish p sections) : m.Unrolls framed finish p sections := by
  induction h with
  | last feed => exact .last fun _ => Track.unrolls_of_feedAt feed
  | cons feed others ih => exact .cons (fun _ => Track.unrolls_of_feedAt feed) ih

end Medium

end WellLog
