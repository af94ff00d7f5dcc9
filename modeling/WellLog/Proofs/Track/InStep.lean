import WellLog.Proofs.Track.Beside
import WellLog.Proofs.Track.Probe
/-!
# Tracks in step

A track keeps its place twice: the reader has an offset on the medium, and the framing counts the
bytes of the tape record.  A call that fails may leave the two apart.  `Track.InStep` says that they
agree because no call on the track has failed since it was opened or moved for the last time; what
happened before that plays no part.

`Track.Reads` is any number of reads.  How many bytes each of them asked for can be seen neither in
what they deliver nor in the place that they lead to.

* `Track.InStep.delivers` : a track in step delivers a feed of its medium.
* `Track.ends_peek_inStep` : looking ahead puts a track in step, if a byte is seen.
* `Track.Reads.place_eq` : **the place behind some bytes depends on how many they are**, not on the
  sizes of the reads.
-/

namespace WellLog

namespace Track

/-- No call on the track has failed since it was opened or moved for the last time. -/
inductive InStep : Track → Prop where
  /-- The track is opened. -/
  | opened {r : Reader} {framed : Bool} {p : Place} {t : Track} (run : openAt r framed p = .ok t) :
    InStep t
  /-- The track is moved, from wherever it was. -/
  | moved {p : Place} {t t' : Track} (run : moveTo p t = .ok () t') : InStep t'
  /-- The track is read. -/
  | read {n : Nat} {t t' : Track} {got : List UInt8} (before : InStep t)
    (run : Track.read n t = .ok got t') : InStep t'

variable {t u u' : Track} {bytes : List UInt8}

/-- **A track in step delivers a feed of its medium.** -/
theorem InStep.delivers (h : t.InStep) : ∃ F, t.Delivers t.reader.medium t.isFramed F := by
  induction h with
  | @opened r framed p t run =>
    have hopen := openAt_eq r framed p
    rw [run] at hopen
    obtain ⟨F, -, ht, -⟩ := hopen
    rw [ht.medium, ht.isFramed]
    exact ⟨F, ht⟩
  | @moved p t t' run =>
    have hmove := ends_moveTo (t := t) rfl rfl p
    rw [run, ends_ok] at hmove
    obtain ⟨F, -, ht'⟩ := hmove
    rw [ht'.medium, ht'.isFramed]
    exact ⟨F, ht'⟩
  | @read n t t' got before run ih =>
    obtain ⟨F, ht⟩ := ih
    cases n with
    | zero =>
      rw [read_zero] at run
      cases run
      exact ⟨F, ht⟩
    | succ n =>
      have hread := ht.readsFrom (Nat.succ_pos n)
      rw [ReadsFrom, run, ends_ok] at hread
      obtain ⟨-, -, -, ht'⟩ := hread
      rw [ht'.medium, ht'.isFramed]
      exact ⟨_, ht'⟩

/-- **Looking ahead puts a track in step**, whatever it was before, if a byte is seen: the track
moves back to the place that it had. -/
theorem ends_peek_inStep (t : Track) :
    Ends (fun found u => (∃ b, found = .byte b) → u.InStep) (fun _ _ => True) (peek t) := by
  unfold peek
  rw [ends_bind, ends_get, ends_bind]
  refine (Ends.trivial _).mono ?_ fun _ _ => id
  rintro (_ | ⟨b, more⟩) u -
  · rintro ⟨b, hb⟩
    cases hb
  · simp only
    rw [ends_bind]
    cases hmove : moveTo t.place u with
    | ok _ v => exact fun _ => .moved hmove
    | error e v => exact trivial

/-- On a track in step, the first byte that it delivers is seen ahead. -/
theorem InStep.exists_peek (h : t.InStep) {b : UInt8} {rest : List UInt8} {ending : Ending}
    (hbytes : t.Unrolls (b :: rest) ending) : ∃ u, peek t = .ok (.byte b) u := by
  obtain ⟨F, hF⟩ := h.delivers
  obtain ⟨hb, -⟩ := hF.unrolls.unique hbytes
  have hends := hF.ends_peek
  cases hpeek : peek t with
  | ok found u =>
    rw [hpeek, ends_ok] at hends
    obtain ⟨-, -, hfound⟩ := hends
    cases found with
    | byte c =>
      obtain ⟨others, hothers⟩ := hfound
      rw [← hb] at hothers
      cases hothers
      exact ⟨u, rfl⟩
    | stop stop =>
      simp only at hfound
      rw [hfound] at hb
      cases hb
  | error e u =>
    rw [hpeek] at hends
    obtain ⟨x, -, hfailed⟩ := hends
    rw [hfailed] at hb
    cases hb

/-- The same image, read byte by byte and without failures. -/
theorem exists_beside (t : Track) : ∃ t', t.Beside (fun _ => True) t' :=
  ⟨_, ⟨⟨t.reader.medium.bytes, .inBursts 1⟩, t.reader.position, 0⟩,
    ⟨rfl, rfl, fun _ _ => trivial, rfl⟩, rfl⟩

/-- A track of single bytes catches up with any number of reads. -/
theorem Reads.catchUp {t' : Track} (h : t.Reads bytes u) (ht : t.Beside (fun _ => True) t') :
    ∃ v, gather Track.read bytes.length t' = .ok bytes v ∧ u.Beside (fun _ => True) v := by
  induction h with
  | refl => exact ⟨t', gather_zero t', ht⟩
  | @tail u w bytes got n before run ne_nil ih =>
    obtain ⟨v, hgather, hv⟩ := ih
    have hspelled := spelled_read n u v hv (pos_of_read run ne_nil)
    rw [run, ends_ok] at hspelled
    obtain ⟨v', hv', ⟨hnil, -⟩ | ⟨-, -, hmore⟩⟩ := hspelled
    · exact absurd hnil ne_nil
    · refine ⟨v', ?_, hv'⟩
      rw [List.length_append, single_read.gather_add ht.bytewise hgather rfl, hmore]
      rfl

/-- **The place behind some bytes does not depend on the sizes of the reads.** -/
theorem Reads.place_eq (h : t.Reads bytes u) (h' : t.Reads bytes u') : u'.place = u.place := by
  obtain ⟨t', ht⟩ := t.exists_beside
  obtain ⟨v, hgather, hv⟩ := h.catchUp ht
  obtain ⟨v', hgather', hv'⟩ := h'.catchUp ht
  rw [hgather] at hgather'
  cases hgather'
  exact hv'.place.symm.trans hv.place

end Track

end WellLog
