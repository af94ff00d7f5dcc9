import WellLog.Proofs.Mirror
import WellLog.Proofs.Track.Feed
import WellLog.StorageLabel
import WellLog.VisibleRecord
/-!
# Tracks beside each other

The same image on two media: the one on the left is read in any pieces and may fail where `H` says,
and the one on the right delivers one byte at a time and never fails.

* `Reader.Beside H r r'`, `Track.Beside H t t'` : readers and tracks at the same place of two such
  media.
* `Reader.spelled_read`, `Track.spelled_read` : **the track on the right can catch up with every read
  of the one on the left.**
* `Track.mirrors_moveTo`, `Track.mirrors_peek`, `Track.mirrors_findLabel`,
  `Track.mirrors_locateVisible` : whatever is done on both tracks ends in the same way, or the medium
  on the left refuses.
-/

namespace WellLog

/-! ### Readers -/

namespace Reader

/-- One byte at a time, and no failure. -/
def Bytewise (r : Reader) : Prop := r.medium.manner = .inBursts 1

/-- The readers are at the same place of the same image.  The one on the left may fail as `H` says,
and the other one delivers single bytes. -/
structure Beside (H : IoError → Prop) (r r' : Reader) : Prop where
  /-- The image. -/
  bytes : r'.medium.bytes = r.medium.bytes
  /-- The place. -/
  position : r'.position = r.position
  /-- How reading on the left may fail. -/
  fault : ∀ fault, r.medium.manner.fault = some fault → H fault.error
  /-- The reader on the right. -/
  bytewise : r'.Bytewise

variable {H : IoError → Prop} {r r' : Reader}

theorem Bytewise.fault (h : r.Bytewise) : r.medium.manner.fault = none := by rw [h]; rfl

/-- A reader of single bytes beside itself. -/
theorem Bytewise.beside (h : r.Bytewise) : r.Beside (fun _ => False) r where
  bytes := rfl
  position := rfl
  fault _ hfault := by
    rw [h.fault] at hfault
    cases hfault
  bytewise := h

theorem Beside.seek (h : r.Beside H r') (position : Nat) :
    (r.seek position).Beside H (r'.seek position) := ⟨h.bytes, rfl, h.fault, h.bytewise⟩

/-- The readers are still beside each other when both have gone on by the same number of bytes. -/
theorem Beside.of_at (h : r.Beside H r') {p : Nat} {q q' : Reader} (hq : q.At r.medium p)
    (hq' : q'.At r'.medium p) : q.Beside H q' :=
  ⟨by rw [hq.medium, hq'.medium, h.bytes], by rw [hq.position, hq'.position],
    by rw [hq.medium]; exact h.fault, by rw [Bytewise, hq'.medium]; exact h.bytewise⟩

/-- The bytes on the right go on at least as far as those on the left. -/
theorem Beside.take_bytesFrom (h : r.Beside H r') (p : Nat) {k : Nat}
    (hk : k ≤ (r.medium.bytesFrom p).length) :
    k ≤ (r'.medium.bytesFrom p).length ∧
      (r'.medium.bytesFrom p).take k = (r.medium.bytesFrom p).take k := by
  have hright : r'.medium.bytesFrom p = r.medium.bytes.toList.drop p := by
    rw [Medium.bytesFrom_of_faultless h.bytewise.fault, h.bytes]
  have hsize := r.medium.readable_le_size
  rw [Medium.length_bytesFrom] at hk
  refine ⟨?_, ?_⟩
  · rw [hright, List.length_drop, Array.length_toList]
    omega
  · rw [hright, Medium.bytesFrom, List.drop_take, List.take_take, Nat.min_eq_left hk]

theorem single_read : Single Bytewise read where
  read_eq n r hr hn := by
    have hmost : ∀ n, 0 < n → min n (max 1 ((Manner.inBursts 1).burst r.reads n)) = 1 := by
      intro n hn
      change min n (max 1 1) = 1
      omega
    unfold read
    rw [hr, hmost n hn, hmost 1 Nat.one_pos]
  ends_read r hr := by
    by_cases hb : r.medium.bytesFrom r.position = []
    · refine (read_of_bytesFrom_nil ⟨rfl, rfl⟩ hb 1).mono ?_ fun _ _ _ => trivial
      rintro got q ⟨rfl, -, hq⟩
      exact ⟨Nat.zero_le 1, by rw [Bytewise, hq.medium]; exact hr⟩
    · obtain ⟨k, q, hread, -, hk, -, hq⟩ := read_of_bytesFrom_ne_nil ⟨rfl, rfl⟩ hb Nat.one_pos
      rw [hread, ends_ok, List.length_take]
      exact ⟨Nat.le_trans (Nat.min_le_left _ _) hk, by rw [Bytewise, hq.medium]; exact hr⟩

/-- **A reader of single bytes catches up with every read.** -/
theorem spelled_read : Spelled H (Beside H) read read := by
  intro n r r' h hn
  have hleft : r.At r.medium r.position := ⟨rfl, rfl⟩
  have hright : r'.At r'.medium r.position := ⟨rfl, h.position⟩
  by_cases hb : r.medium.bytesFrom r.position = []
  · refine (read_of_bytesFrom_nil hleft hb n).mono ?_ ?_
    · -- no byte is left on either side
      rintro got q ⟨rfl, hfail, hq⟩
      have hreadable : r.medium.readable ≤ r.position := by
        have hlen := r.medium.length_bytesFrom r.position
        rw [hb, List.length_nil] at hlen
        omega
      have hsize := Medium.size_le_of_failure_eq_none hreadable hfail
      have hnone : r'.medium.bytesFrom r.position = [] := by
        rw [Medium.bytesFrom_of_faultless h.bytewise.fault, h.bytes, List.drop_eq_nil_iff,
          Array.length_toList]
        exact hsize
      have hend := read_of_bytesFrom_nil hright hnone 1
      rw [Medium.failure_of_faultless h.bytewise.fault] at hend
      cases hread : read 1 r' with
      | error e q' =>
        rw [hread] at hend
        cases hend.1
      | ok got q' =>
        rw [hread, ends_ok] at hend
        obtain ⟨rfl, -, hq'⟩ := hend
        exact ⟨q', h.of_at hq hq', .inl ⟨rfl, rfl⟩⟩
    · -- a failure on the left is the fault of its medium
      rintro e q ⟨hfail, -⟩
      unfold Medium.failure at hfail
      left
      split at hfail
      · rename_i fault hfault
        split at hfail
        · cases hfail
          exact h.fault fault hfault
        · cases hfail
      · cases hfail
  · obtain ⟨k, q, hread, hpos, hkn, hk, hq⟩ := read_of_bytesFrom_ne_nil hleft hb hn
    obtain ⟨hk', htake⟩ := h.take_bytesFrom r.position hk
    obtain ⟨q', hgather, hq'⟩ := gather_of_le hright hk'
    have hlen : ((r.medium.bytesFrom r.position).take k).length = k := by
      rw [List.length_take, Nat.min_eq_left hk]
    rw [hread, ends_ok, hlen, ← htake]
    refine ⟨q', h.of_at hq hq', .inr ⟨List.ne_nil_of_length_pos ?_, hkn, hgather⟩⟩
    rw [htake, hlen]
    exact hpos

theorem mirrors_gather (n : Nat) : Mirrors H (Beside H) Eq (gather read n) (gather read n) :=
  spelled_read.gather single_read (fun _ _ h => h.bytewise) n

end Reader

namespace TapeMark

variable {H : IoError → Prop}

theorem mirrors_read : Mirrors H (Reader.Beside H) Eq read read := by
  refine .bind_eq (Reader.mirrors_gather size) fun bytes => ?_
  split
  · exact .pure rfl
  · split
    · exact .pure rfl
    · exact .throw _

/-- **Whether there is a tape mark** is seen on both sides. -/
theorem mirrors_detect (hH : ∀ e, H e → (FormatError.io e).isStructural = false) :
    Mirrors H (Reader.Beside H) Eq detect detect := by
  unfold detect
  refine .bind_get fun r r' hr => ?_
  rw [hr.position]
  refine .attempt_bind mirrors_read ?_ ?_ ?_
  · rintro found _ rfl
    refine .bind_eq (.modify fun q q' hq => hq.seek r.position) fun _ => ?_
    cases found <;> exact .pure rfl
  · intro e
    refine .bind_eq (.modify fun q q' hq => hq.seek r.position) fun _ => ?_
    simp only
    split
    · exact .pure rfl
    · exact .throw e
  · intro e q he
    simp only [hH e he]
    exact he

end TapeMark

/-! ### Tracks -/

/-- A failed search that `H` allows. -/
def SearchError.Of (H : IoError → Prop) : SearchError → Prop
  | .tooWide _ => False
  | .format e => e.Of H

namespace Track

/-- The tracks are at the same place of the same image. -/
def Beside (H : IoError → Prop) (t t' : Track) : Prop :=
  ∃ r', t.reader.Beside H r' ∧ t' = { t with reader := r' }

/-- One byte at a time, and no failure. -/
def Bytewise (t : Track) : Prop := t.reader.Bytewise

variable {H : IoError → Prop} {t t' : Track} {r r' : Reader} {s : TapeRecord}

theorem Beside.bytewise (h : t.Beside H t') : t'.Bytewise := by
  obtain ⟨r', hr, rfl⟩ := h
  exact hr.bytewise

theorem Beside.place (h : t.Beside H t') : t'.place = t.place := by
  obtain ⟨r', -, rfl⟩ := h
  rfl

theorem Beside.stop (h : t.Beside H t') : t'.stop = t.stop := by
  obtain ⟨r', -, rfl⟩ := h
  rfl

theorem beside_mk (h : r.Beside H r') (framing : Framing) (stop : Option Stop) :
    Beside H ⟨r, framing, stop⟩ ⟨r', framing, stop⟩ := ⟨r', h, rfl⟩

/-- Both tracks find the same tape record. -/
theorem mirror_toData (h : r.Beside H r') :
    Mirror H (Beside H) (fun found t found' t' => found' = found ∧ Beside H t t') (toData r s)
      (toData r' s) := by
  -- the marks are read in the same order on both sides
  fun_induction toData r s generalizing r' with
  | case1 r s hrem =>
    rw [toData, if_pos hrem]
    exact .inr ⟨rfl, beside_mk h _ _⟩
  | case2 r s hrem e q hread =>
    obtain hrefused | ⟨q', hright, hq⟩ := TapeMark.mirrors_read.of_error h hread
    · exact .inl hrefused
    · rw [toData, if_neg hrem, hright]
      exact .inr ⟨rfl, beside_mk hq _ _⟩
  | case3 r s hrem q hread =>
    obtain ⟨_, q', hright, rfl, hq⟩ := TapeMark.mirrors_read.of_ok h hread
    rw [toData, if_neg hrem, hright]
    exact .inr ⟨rfl, beside_mk hq _ _⟩
  | case4 r s hrem k q hread hfits hmark =>
    obtain ⟨_, q', hright, rfl, hq⟩ := TapeMark.mirrors_read.of_ok h hread
    rw [toData, if_neg hrem, hright]
    simp only [dif_pos hfits, if_pos hmark]
    exact .inr ⟨rfl, beside_mk hq _ _⟩
  | case5 r s hrem k q hread hfits hmark ih =>
    obtain ⟨_, q', hright, rfl, hq⟩ := TapeMark.mirrors_read.of_ok h hread
    have hnext : toData r' s = toData q' ⟨s.next, k.next.toNat, 0⟩ := by
      rw [toData, if_neg hrem, hright]
      simp only [dif_pos hfits, if_neg hmark]
    rw [hnext]
    exact ih hq
  | case6 r s hrem k q hread hmisfit =>
    obtain ⟨_, q', hright, rfl, hq⟩ := TapeMark.mirrors_read.of_ok h hread
    rw [toData, if_neg hrem, hright]
    simp only [dif_neg hmisfit]
    exact .inr ⟨rfl, beside_mk hq _ _⟩

/-- A track that has stopped delivers nothing. -/
theorem read_of_stop {stop : Stop} (h : t.stop = some stop) (n : Nat) : read n t = .ok [] t :=
  if_pos (.inr (by rw [h]; exact nofun))

/-- Looking for the next byte keeps a track one of single bytes. -/
theorem ends_toData_of_bytewise (h : r.Bytewise) :
    Ends (fun _ t => t.Bytewise) (fun _ _ => True) (toData r s) :=
  (mirror_toData h.beside).ends_self.mono (fun _ _ ha => ha.2.bytewise) fun _ _ => id

theorem single_read : Single Bytewise read where
  read_eq n t ht hn := by
    obtain ⟨r, framing, stop⟩ := t
    cases stop with
    | some stop => rw [read_of_stop rfl, read_of_stop rfl]
    | none =>
      cases framing with
      | plain p =>
        rw [read_plain hn, read_plain Nat.one_pos, Reader.single_read.read_eq n r ht hn]
      | tape s =>
        have hdata := (ends_toData_of_bytewise (s := s) ht).and (ends_toData_found r s)
        rw [read_tape hn, read_tape Nat.one_pos]
        cases hto : toData r s with
        | error e t => rfl
        | ok found t =>
          rw [hto, ends_ok] at hdata
          cases found with
          | none => rfl
          | some s =>
            obtain ⟨hrem, -⟩ := hdata.2 s rfl
            simp only
            rw [Reader.single_read.read_eq (min n s.remaining) t.reader hdata.1 (by omega),
              Reader.single_read.read_eq (min 1 s.remaining) t.reader hdata.1 (by omega)]
  ends_read t ht := by
    obtain hstay | ⟨hn, r, ⟨p, rfl⟩ | ⟨s, rfl⟩⟩ := read_cases 1 t
    · rw [hstay]
      exact ⟨Nat.zero_le 1, ht⟩
    · exact ends_read_plain hn (Reader.single_read.ends_read r ht)
    · refine ends_read_tape hn (P := fun _ q => q.Bytewise)
        ((ends_toData_of_bytewise (s := s) ht).mono ?_ fun _ _ => id) ?_
      · rintro (_ | s') u hu
        · exact ⟨Nat.zero_le 1, hu⟩
        · rintro q rfl
          exact hu
      · intro s' q hrem hq
        rw [Reader.single_read.read_eq (min 1 s'.remaining) q hq (by omega)]
        refine (Reader.single_read.ends_read q hq).mono ?_ fun _ _ => id
        rintro got q' ⟨hle, hq'⟩
        exact ⟨fun _ => ⟨Nat.zero_le 1, hq'⟩, fun _ => ⟨hle, hq'⟩⟩

/-- What a read on the left leads to, with the track `t'` on the right. -/
def CaughtUp (H : IoError → Prop) (n : Nat) (t' : Track)
    (result : EStateM.Result IoError Track (List UInt8)) : Prop :=
  Ends
    (fun got u => ∃ u', Beside H u u' ∧
      (got = [] ∧ read 1 t' = .ok [] u' ∨
        got ≠ [] ∧ got.length ≤ n ∧ gather read got.length t' = .ok got u'))
    (fun e u => H e ∨ ∃ u', Beside H u u' ∧ read 1 t' = .error e u') result

/-- On a plain medium, a read is one of the reader. -/
theorem caughtUp_plain (hr : r.Beside H r') (p : Nat) {n : Nat} (hn : 0 < n) :
    CaughtUp H n ⟨r', .plain p, none⟩ (read n ⟨r, .plain p, none⟩) := by
  have hread := Reader.spelled_read n r r' hr hn
  unfold CaughtUp
  rw [read_plain hn, read_plain Nat.one_pos]
  cases hleft : r.read n with
  | error e q =>
    rw [hleft] at hread
    refine hread.imp id ?_
    rintro ⟨q', hq, hright⟩
    rw [hright]
    exact ⟨_, beside_mk hq _ _, rfl⟩
  | ok got q =>
    rw [hleft, ends_ok] at hread
    simp only
    obtain ⟨q', hq, ⟨rfl, hright⟩ | ⟨hgot, hle, hright⟩⟩ := hread
    · rw [hright]
      exact ⟨_, beside_mk hq _ _, .inl ⟨rfl, rfl⟩⟩
    · rw [if_neg (by simpa using hgot)]
      refine ⟨_, beside_mk hq _ _, .inr ⟨hgot, hle, ?_⟩⟩
      -- with every byte, the track on the right goes on by one
      have hwrap : ∀ n k q b u, 0 < n → k < got.length → q.Bytewise → Reader.read 1 q = .ok [b] u →
          read n ⟨q, .plain (p + k), none⟩ = .ok [b] ⟨u, .plain (p + (k + 1)), none⟩ := by
        intro n k q b u hn _ hq hone
        rw [read_plain hn, Reader.single_read.read_eq n q hq hn, hone]
        rfl
      have hgather :=
        Reader.single_read.gather_wrapped hwrap (k := 0) hr.bytewise (by omega) hright rfl
      rwa [Nat.zero_add] at hgather

/-- In a tape record, a read is one of the reader, which does not leave the record. -/
theorem read_in_record {n : Nat} (hn : 0 < n) (hrem : s.remaining ≠ 0) :
    read n ⟨r, .tape s, none⟩ =
      match r.read (min n s.remaining) with
      | .error e q => .error e ⟨q, .tape s, none⟩
      | .ok got q =>
        if got.isEmpty then .ok [] ⟨q, .tape s, some .mediumEnd⟩
        else .ok got ⟨q, .tape { s with consumed := s.consumed + got.length }, none⟩ := by
  have hstay : toData r s = .ok (some s) ⟨r, .tape s, none⟩ := by rw [toData, if_pos hrem]
  have hread := read_tape (r := r) (s := s) hn
  rw [hstay] at hread
  exact hread

theorem caughtUp_record (hr : r.Beside H r') (hrem : s.remaining ≠ 0) {n : Nat} (hn : 0 < n) :
    CaughtUp H n ⟨r', .tape s, none⟩ (read n ⟨r, .tape s, none⟩) := by
  have hread := Reader.spelled_read (min n s.remaining) r r' hr (by omega)
  have hone : min 1 s.remaining = 1 := by omega
  unfold CaughtUp
  rw [read_in_record hn hrem, read_in_record Nat.one_pos hrem, hone]
  cases hleft : r.read (min n s.remaining) with
  | error e q =>
    rw [hleft] at hread
    refine hread.imp id ?_
    rintro ⟨q', hq, hright⟩
    rw [hright]
    exact ⟨_, beside_mk hq _ _, rfl⟩
  | ok got q =>
    rw [hleft, ends_ok] at hread
    simp only
    obtain ⟨q', hq, ⟨rfl, hright⟩ | ⟨hgot, hle, hright⟩⟩ := hread
    · rw [hright]
      exact ⟨_, beside_mk hq _ _, .inl ⟨rfl, rfl⟩⟩
    · rw [if_neg (by simpa using hgot)]
      refine ⟨_, beside_mk hq _ _, .inr ⟨hgot, by omega, ?_⟩⟩
      -- the left read has stayed in the record, so the record has room for every byte of it
      have hwrap : ∀ n k q b u, 0 < n → k < s.remaining → q.Bytewise → Reader.read 1 q = .ok [b] u →
          read n ⟨q, .tape { s with consumed := s.consumed + k }, none⟩ =
            .ok [b] ⟨u, .tape { s with consumed := s.consumed + (k + 1) }, none⟩ := by
        intro n k q b u hn hk hq hone
        have hleft : ({ s with consumed := s.consumed + k } : TapeRecord).remaining ≠ 0 := by
          simp only [TapeRecord.remaining, TapeRecord.tell] at hk ⊢
          omega
        rw [read_in_record hn hleft, Reader.single_read.read_eq _ q hq (by omega), hone]
        rfl
      have hgather :=
        Reader.single_read.gather_wrapped hwrap (k := 0) hr.bytewise (by omega) hright rfl
      rwa [Nat.zero_add] at hgather

/-- Behind the tape marks, the next byte is in the record. -/
theorem read_of_toData {n : Nat} (hn : 0 < n) {q : Reader} {s' : TapeRecord}
    (h : toData r s = .ok (some s') ⟨q, .tape s', none⟩) (hrem : s'.remaining ≠ 0) :
    read n ⟨r, .tape s, none⟩ = read n ⟨q, .tape s', none⟩ := by
  have hstay : toData q s' = .ok (some s') ⟨q, .tape s', none⟩ := by rw [toData, if_pos hrem]
  rw [read_tape hn, read_tape hn, h, hstay]

theorem caughtUp_tape (hr : r.Beside H r') (s : TapeRecord) {n : Nat} (hn : 0 < n) :
    CaughtUp H n ⟨r', .tape s, none⟩ (read n ⟨r, .tape s, none⟩) := by
  have hdata := mirror_toData (s := s) hr
  cases hleft : toData r s with
  | error e t =>
    rw [hleft] at hdata
    unfold CaughtUp
    rw [read_tape hn, read_tape Nat.one_pos, hleft]
    match toData r' s, hdata with
    | _, .inl hrefused => exact .inl hrefused
    | .error _ t', .inr hagree =>
      obtain ⟨rfl, ht⟩ := hagree
      exact .inr ⟨t', ht, rfl⟩
  | ok found t =>
    rw [hleft] at hdata
    cases hright : toData r' s with
    | error e t' =>
      rw [hright] at hdata
      obtain hrefused | hagree := hdata
      · exact hrefused.elim
      · exact hagree.elim
    | ok found' t' =>
      rw [hright] at hdata
      obtain ⟨rfl, ht⟩ := hdata.resolve_left id
      cases found' with
      | none =>
        unfold CaughtUp
        rw [read_tape hn, read_tape Nat.one_pos, hleft, hright]
        exact ⟨t', ht, .inl ⟨rfl, rfl⟩⟩
      | some s' =>
        have hfound := ends_toData_found r s
        rw [hleft, ends_ok] at hfound
        obtain ⟨hrem, q, rfl⟩ := hfound s' rfl
        obtain ⟨q', hq, rfl⟩ := ht
        -- the marks have led both tracks into the same record
        have hcaught := caughtUp_record hq hrem hn
        unfold CaughtUp at hcaught ⊢
        rw [read_of_toData hn hleft hrem, read_of_toData Nat.one_pos hright hrem]
        refine hcaught.mono ?_ fun _ _ => id
        rintro got u ⟨u', hu, hnil | ⟨hgot, hle, hgather⟩⟩
        · exact ⟨u', hu, .inl hnil⟩
        · refine ⟨u', hu, .inr ⟨hgot, hle, ?_⟩⟩
          rw [← hgather]
          exact gather_congr (fun n hn => read_of_toData hn hright hrem) (List.length_pos_iff.2 hgot)

/-- **A track of single bytes catches up with every read.** -/
theorem spelled_read : Spelled H (Beside H) read read := by
  rintro n ⟨r, framing, stop⟩ _ ⟨r', hr, rfl⟩ hn
  cases stop with
  | some stop =>
    rw [read_of_stop rfl, read_of_stop rfl]
    exact ⟨_, beside_mk hr _ _, .inl ⟨rfl, rfl⟩⟩
  | none =>
    cases framing with
    | plain p => exact caughtUp_plain hr p hn
    | tape s => exact caughtUp_tape hr s hn

theorem mirrors_gather (n : Nat) : Mirrors H (Beside H) Eq (gather read n) (gather read n) :=
  spelled_read.gather single_read (fun _ _ h => h.bytewise) n

theorem mirrors_read_one : Mirrors H (Beside H) Eq (read 1) (read 1) :=
  spelled_read.read_one single_read fun _ _ h => h.bytewise

/-! ### Going to a place -/

/-- **Both tracks move**, or neither does. -/
theorem mirrors_moveTo (p : Place) :
    Mirrors (FormatError.Of H) (Beside H) Eq (moveTo p) (moveTo p) := by
  have hmodify : ∀ {f f' : Track → Track}, (∀ t t', Beside H t t' → Beside H (f t) (f' t')) →
      Mirrors (FormatError.Of H) (Beside H) Eq (modify f) (modify f') := .modify
  unfold moveTo
  refine .bind_eq (hmodify ?_) fun _ => .bind_get ?_
  · rintro t _ ⟨r', hr, rfl⟩
    exact ⟨r', hr, rfl⟩
  rintro ⟨r, framing, stop⟩ _ ⟨r', hr, rfl⟩
  cases framing with
  | plain q =>
    refine hmodify ?_
    rintro t _ ⟨r', hr, rfl⟩
    exact beside_mk (hr.seek _) _ _
  | tape s =>
    refine .bind_get ?_
    rintro t _ ⟨r', hr, rfl⟩
    have hseek := hr.seek p.offset
    simp only
    -- both tracks read the mark that is at the place
    cases hleft : TapeMark.read (t.reader.seek p.offset) with
    | error e q =>
      obtain hrefused | ⟨q', hright, hq⟩ := TapeMark.mirrors_read.of_error hseek hleft
      · exact .of_refused fun _ => hrefused
      · rw [hright]
        refine .bind_eq (hmodify ?_) fun _ => .throw _
        rintro t _ ⟨-, -, rfl⟩
        exact beside_mk hq _ _
    | ok found q =>
      obtain ⟨_, q', hright, rfl, hq⟩ := TapeMark.mirrors_read.of_ok hseek hleft
      rw [hright]
      cases found with
      | none => exact .set (beside_mk hq _ _)
      | some k =>
        refine .bind_eq (hmodify ?_) fun _ => ?_
        · rintro t _ ⟨-, -, rfl⟩
          exact beside_mk hq _ _
        split
        · split
          · exact .set (beside_mk hq _ _)
          · split
            · refine .bind_eq (hmodify ?_) fun _ => .throw _
              rintro t _ ⟨r', hr, rfl⟩
              exact beside_mk hr _ _
            · rw [hq.position]
              exact .set (beside_mk (hq.seek _) _ _)
        · exact .throw _

theorem matches_openAt (h : r.Beside H r') (framed : Bool) (p : Place) :
    Matches (FormatError.Of H) (Beside H) (openAt r framed p) (openAt r' framed p) := by
  unfold openAt
  generalize (if framed then Framing.tape ⟨p.offset, p.offset, 0⟩ else .plain p.offset) = framing
  have hstart := beside_mk h framing none
  cases hleft : moveTo p ⟨r, framing, none⟩ with
  | error e t =>
    obtain hrefused | ⟨t', hright, -⟩ := (mirrors_moveTo p).of_error hstart hleft
    · simp only [hleft]
      exact .refused _ hrefused
    · simp only [hleft, hright]
      exact .error e
  | ok _ t =>
    obtain ⟨_, t', hright, -, ht⟩ := (mirrors_moveTo p).of_ok hstart hleft
    simp only [hleft, hright]
    exact .ok ht

/-- **The same comes next.** -/
theorem mirrors_peek : Mirrors (FormatError.Of H) (Beside H) Eq peek peek := by
  unfold peek
  refine .bind_get fun t t' ht => ?_
  rw [ht.place]
  refine .bind_eq mirrors_read_one.liftIo fun got => ?_
  cases got with
  | nil =>
    refine .bind_get fun u u' hu => ?_
    rw [hu.stop]
    exact .pure rfl
  | cons b got => exact .bind_eq (mirrors_moveTo _) fun _ => .pure rfl

theorem mirrors_findLabel : Mirrors (FormatError.Of H) (Beside H) Eq findLabel findLabel := by
  unfold findLabel
  refine .bind_get fun t t' ht => ?_
  rw [ht.place]
  refine .bind_eq (mirrors_gather _).liftIo fun bytes => ?_
  split
  · exact .pure rfl
  · refine .bind_eq (mirrors_moveTo _) fun _ => ?_
    split
    · exact .pure rfl
    · exact .pure rfl

theorem mirrors_searchVisible (budget : Nat) (recent : List (Place × UInt8)) (searched : Nat) :
    Mirrors H (Beside H) Eq (searchVisible budget recent searched)
      (searchVisible budget recent searched) := by
  induction budget generalizing recent searched with
  | zero => exact .pure rfl
  | succ budget ih =>
    unfold searchVisible
    refine .bind_get fun t t' ht => ?_
    rw [ht.place]
    refine .bind_eq mirrors_read_one fun got => ?_
    cases got with
    | nil => exact .pure rfl
    | cons d got =>
      simp only
      split
      · split
        · exact .pure rfl
        · exact ih _ _
      · exact ih _ _

theorem Beside.tell (h : t.Beside H t') : t'.tell = t.tell := by
  obtain ⟨r', -, rfl⟩ := h
  rfl

theorem mirrors_searchWindow (limit : Nat) :
    Mirrors (FormatError.Of H) (Beside H) Eq (searchWindow limit) (searchWindow limit) := by
  unfold searchWindow
  refine .bind_get fun t t' ht => ?_
  rw [ht.tell]
  refine .bind_eq (mirrors_searchVisible _ _ _).liftIo fun found => ?_
  cases found with
  | ok place => exact .bind_eq (mirrors_moveTo _) fun _ => .pure rfl
  | error searched => exact .throw _

/-- **The first visible record is at the same place.** -/
theorem mirrors_locateVisible (limit : Nat) :
    Mirrors (SearchError.Of H) (Noted (Beside H)) Eq (locateVisible limit) (locateVisible limit) := by
  have hfind : Mirrors (SearchError.Of H) (Beside H) Eq (findVisible limit) (findVisible limit) := by
    unfold findVisible
    split
    · exact (mirrors_searchWindow limit).adaptExcept fun _ => id
    · exact .throw _
  unfold locateVisible
  exact .bind_eq (.lift hfind) fun place => .bind_note (.pure rfl)

end Track

end WellLog
