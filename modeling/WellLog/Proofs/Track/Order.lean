import WellLog.Proofs.Track.Feed
/-!
# Tracks go forward

Reading never goes back on a medium, whatever is on it.  This file proves it of readers and tracks,
for the offset of the reader and for the place of the track, in the order of places.

* `Reader.proceeds_read`, `Track.proceeds_read` : no read goes back, and every read that delivers
  something goes on.
* `Track.reaches_of_moveTo` : a track that is taken up at a place is not before it.
* `Track.openAt_eq` : a track can be opened where the medium has a feed, and delivers it.
* `Medium.endsBehind_feedAt` : where a track stops it can be taken up again; a file mark lies inside
  the image, and what follows is behind it.
-/

namespace WellLog

namespace Place

variable {p q r : Place}

theorem le_iff : p.le q = true ↔ p.offset < q.offset ∨ p.offset = q.offset ∧ p.skip ≤ q.skip := by
  simp [le]

theorem le_eq_false_iff :
    q.le p = false ↔ p.offset < q.offset ∨ p.offset = q.offset ∧ p.skip < q.skip := by
  rw [← Bool.not_eq_true, le_iff]
  omega

/-- `q` is not before `p`. -/
def Reaches (p q : Place) : Prop := p.le q = true

instance decidableReaches : DecidableRel Reaches := fun p q =>
  inferInstanceAs (Decidable (p.le q = true))

/-- `q` is behind `p`. -/
def Passes (p q : Place) : Prop := q.le p = false

theorem Reaches.refl (p : Place) : p.Reaches p := le_iff.2 (.inr ⟨rfl, Nat.le_refl _⟩)

theorem Reaches.trans (h : p.Reaches q) (h' : q.Reaches r) : p.Reaches r := by
  rw [Reaches, le_iff] at *
  omega

theorem Passes.reaches (h : p.Passes q) : p.Reaches q := by
  rw [Passes, le_eq_false_iff] at h
  rw [Reaches, le_iff]
  omega

theorem Passes.trans_reaches (h : p.Passes q) (h' : q.Reaches r) : p.Passes r := by
  rw [Passes, le_eq_false_iff] at *
  rw [Reaches, le_iff] at h'
  omega

theorem Reaches.trans_passes (h : p.Reaches q) (h' : q.Passes r) : p.Passes r := by
  rw [Passes, le_eq_false_iff] at *
  rw [Reaches, le_iff] at h
  omega

theorem passes_start {o : Nat} (h : p.offset < o) : p.Passes (.start o) := le_eq_false_iff.2 (.inl h)

end Place

namespace Reader

/-- `r'` is not before `r`, and not beyond the medium unless `r` is. -/
structure Forward (r r' : Reader) : Prop where
  /-- The medium is the same. -/
  medium : r'.medium = r.medium
  /-- The offset does not go back. -/
  position : r.position ≤ r'.position
  /-- Only bytes of the medium are passed. -/
  bound : r'.position ≤ r.position ∨ r'.position ≤ r.medium.bytes.size

/-- `r'` is behind `r`, on the medium. -/
structure Onward (r r' : Reader) : Prop where
  /-- The medium is the same. -/
  medium : r'.medium = r.medium
  /-- The offset goes on. -/
  position : r.position < r'.position
  /-- Only bytes of the medium are passed. -/
  bound : r'.position ≤ r.medium.bytes.size

theorem advance : Advance Forward Onward where
  refl r := ⟨rfl, Nat.le_refl _, .inl (Nat.le_refl _)⟩
  trans h h' := ⟨h'.medium.trans h.medium, Nat.le_trans h.position h'.position, by
    have := h.bound; have := h'.bound; rw [h.medium] at this; omega⟩
  weaken h := ⟨h.medium, Nat.le_of_lt h.position, .inr h.bound⟩
  left h h' := ⟨h'.medium.trans h.medium, Nat.lt_of_lt_of_le h.position h'.position, by
    have := h.bound; have := h'.bound; rw [h.medium] at this; omega⟩
  right h h' := ⟨h'.medium.trans h.medium, Nat.lt_of_le_of_lt h.position h'.position, by
    have := h'.bound; rwa [h.medium] at this⟩

/-- No read goes back, and every read that delivers something goes on. -/
theorem proceeds_read {n : Nat} (hn : 0 < n) : Proceeds Forward Onward (· ≠ []) (read n) := by
  intro r
  by_cases hb : r.medium.bytesFrom r.position = []
  · refine (read_of_bytesFrom_nil ⟨rfl, rfl⟩ hb n).mono ?_ ?_
    · rintro got r' ⟨rfl, -, hm, hp⟩
      exact ⟨⟨hm, Nat.le_of_eq hp.symm, .inl (Nat.le_of_eq hp)⟩, fun h => absurd rfl h⟩
    · rintro e r' ⟨-, hm, hp⟩
      exact ⟨hm, Nat.le_of_eq hp.symm, .inl (Nat.le_of_eq hp)⟩
  · obtain ⟨k, r', hread, hk, -, hkl, hm, hp⟩ := read_of_bytesFrom_ne_nil ⟨rfl, rfl⟩ hb hn
    have hsize := r.medium.readable_le_size
    rw [Medium.length_bytesFrom] at hkl
    have hon : r.Onward r' := ⟨hm, by omega, by omega⟩
    rw [hread]
    exact ⟨advance.weaken hon, fun _ => hon⟩

theorem proceeds_readMark : Proceeds Forward Onward (·.isSome) TapeMark.read := by
  refine .bind_left advance (.gather advance (fun n hn => proceeds_read hn) _) ?_ ?_
  · intro bytes _
    split
    · exact .pure advance id
    · split
      · exact .pure advance id
      · exact .throw advance
  · intro bytes hb
    have hnil : bytes = [] := by simpa using hb
    subst hnil
    exact .pure advance (by simp)

end Reader

namespace TapeRecord

variable {s : TapeRecord} {k : Nat}

/-- The place of a track in a record. -/
def place (s : TapeRecord) : Place :=
  if s.next ≤ s.tell then .start s.next else ⟨s.start, s.consumed⟩

theorem place_of_le (h : s.next ≤ s.start + TapeMark.size + s.consumed) :
    s.place = .start s.next := if_pos h

theorem place_of_lt (h : s.start + TapeMark.size + s.consumed < s.next) :
    s.place = ⟨s.start, s.consumed⟩ := if_neg (Nat.not_le.2 h)

theorem remaining_eq (s : TapeRecord) :
    s.remaining = s.next - (s.start + TapeMark.size + s.consumed) := rfl

/-- A record that is used up has the place of the next mark, which is behind all of it. -/
theorem passes_consume (hs : s.remaining ≠ 0) (h : s.consumed < k) :
    s.place.Passes { s with consumed := k }.place := by
  rw [remaining_eq] at hs
  rw [place_of_lt (by omega)]
  by_cases hk : s.next ≤ s.start + TapeMark.size + k
  · rw [place_of_le (s := { s with consumed := k }) hk]
    exact Place.passes_start (by simp only; omega)
  · rw [place_of_lt (s := { s with consumed := k }) (Nat.lt_of_not_le hk)]
    exact Place.le_eq_false_iff.2 (.inr ⟨rfl, h⟩)

/-- The record behind the next mark. -/
theorem reaches_next {next : Nat} (hs : s.remaining = 0) (hnext : s.next + TapeMark.size ≤ next) :
    s.place.Reaches (⟨s.next, next, k⟩ : TapeRecord).place := by
  rw [remaining_eq] at hs
  rw [place_of_le (by omega)]
  by_cases hk : next ≤ s.next + TapeMark.size + k
  · rw [place_of_le (s := ⟨s.next, next, k⟩) hk]
    refine (Place.passes_start ?_).reaches
    simp only [Place.start, TapeMark.size] at hnext ⊢
    omega
  · rw [place_of_lt (s := ⟨s.next, next, k⟩) (Nat.lt_of_not_le hk)]
    exact Place.le_iff.2 (.inr ⟨rfl, Nat.zero_le _⟩)

end TapeRecord

namespace Track

/-- `t'` is not before `t`. -/
structure Forward (t t' : Track) : Prop where
  /-- Neither is the reader. -/
  reader : t.reader.Forward t'.reader
  /-- Nor the place. -/
  place : t.place.Reaches t'.place

/-- `t'` is behind `t`. -/
structure Onward (t t' : Track) : Prop where
  /-- So is the reader. -/
  reader : t.reader.Onward t'.reader
  /-- So is the place. -/
  place : t.place.Passes t'.place

theorem advance : Advance Forward Onward where
  refl _ := ⟨Reader.advance.refl _, .refl _⟩
  trans h h' := ⟨Reader.advance.trans h.reader h'.reader, h.place.trans h'.place⟩
  weaken h := ⟨Reader.advance.weaken h.reader, h.place.reaches⟩
  left h h' := ⟨Reader.advance.left h.reader h'.reader, h.place.trans_reaches h'.place⟩
  right h h' := ⟨Reader.advance.right h.reader h'.reader, h.place.trans_passes h'.place⟩

/-- Tape marks are stepped over forward. -/
theorem forward_toData (r : Reader) (s : TapeRecord) :
    Ends (fun _ t => (⟨r, .tape s, none⟩ : Track).Forward t)
      (fun _ t => (⟨r, .tape s, none⟩ : Track).Forward t) (toData r s) := by
  -- along the marks, each of which the reader reads on from where it is
  fun_induction toData r s with
  | case1 r s h => exact advance.refl _
  | case2 r s h e r' hread =>
    have hmark := Reader.proceeds_readMark r
    rw [hread] at hmark
    exact ⟨hmark, .refl _⟩
  | case3 r s h r' hread => exact ⟨(hread ▸ Reader.proceeds_readMark r).1, .refl _⟩
  | case4 r s h k r' hread hfits hk =>
    exact ⟨(hread ▸ Reader.proceeds_readMark r).1, TapeRecord.reaches_next (by omega) hfits.next⟩
  | case5 r s h k r' hread hfits hk ih =>
    have hstep : (⟨r, .tape s, none⟩ : Track).Forward ⟨r', .tape ⟨s.next, k.next.toNat, 0⟩, none⟩ :=
      ⟨(hread ▸ Reader.proceeds_readMark r).1, TapeRecord.reaches_next (by omega) hfits.next⟩
    exact ih.mono (fun _ _ h => advance.trans hstep h) fun _ _ h => advance.trans hstep h
  | case6 r s h k r' hread hfits => exact ⟨(hread ▸ Reader.proceeds_readMark r).1, .refl _⟩

/-- **No read goes back**, and every read that delivers something goes on. -/
theorem proceeds_read (n : Nat) : Proceeds Forward Onward (· ≠ []) (read n) := by
  intro t
  obtain hstay | ⟨hn, r, ⟨p, rfl⟩ | ⟨s, rfl⟩⟩ := read_cases n t
  · rw [hstay]
    exact ⟨advance.refl t, fun h => absurd rfl h⟩
  · refine ends_read_plain hn ((Reader.proceeds_read hn r).mono ?_ fun _ _ h => ⟨h, .refl _⟩)
    rintro got r' ⟨hforward, honward⟩
    by_cases hgot : got = []
    · subst hgot
      exact ⟨⟨hforward, .refl _⟩, fun h => absurd rfl h⟩
    · have hpos := List.length_pos_iff.2 hgot
      have hon : Onward ⟨r, .plain p, none⟩ ⟨r', .plain (p + got.length),
          if got.isEmpty then some .mediumEnd else none⟩ :=
        ⟨honward hgot, Place.passes_start (by simp only [place, Place.start]; omega)⟩
      exact ⟨advance.weaken hon, fun _ => hon⟩
  · refine ends_read_tape hn
      (P := fun s' r' => (⟨r, .tape s, none⟩ : Track).Forward ⟨r', .tape s', none⟩)
      ((forward_toData r s).mono ?_ fun _ _ => id) ?_
    · rintro (_ | s') t hforward
      · exact ⟨hforward, fun h => absurd rfl h⟩
      · rintro r' rfl
        exact hforward
    · intro s' r' hrem hforward
      refine (Reader.proceeds_read (by omega) r').mono ?_
        fun _ _ h => advance.trans hforward ⟨h, .refl _⟩
      rintro got r'' ⟨hforward', honward⟩
      refine ⟨fun _ => ⟨advance.trans hforward ⟨hforward', .refl _⟩, fun h => absurd rfl h⟩,
        fun hgot => ?_⟩
      have hpos := List.length_pos_iff.2 hgot
      have hon : Onward ⟨r', .tape s', none⟩
          ⟨r'', .tape { s' with consumed := s'.consumed + got.length }, none⟩ :=
        ⟨honward hgot, TapeRecord.passes_consume hrem (by omega)⟩
      exact ⟨advance.trans hforward (advance.weaken hon), fun _ => advance.right hforward hon⟩

end Track

/-! ### Places that can be taken up -/

/-- A place with bytes to skip is behind a complete tape mark. -/
def Place.Held (m : Medium) (p : Place) : Prop :=
  p.skip = 0 ∨ p.offset + TapeMark.size ≤ m.bytes.size

namespace Medium

variable {m : Medium} {o : Nat} {framed : Bool} {p : Place} {F : Feed}

theorem size_le_of_markAt_none (h : m.markAt o = .ok none) : m.bytes.size ≤ o := by
  unfold markAt at h
  simp only [List.length_take, length_bytesFrom] at h
  split at h
  · cases h
  · split at h
    · cases h
    · rename_i hfailure
      split at h
      · rename_i hz
        rw [hz, Nat.add_zero] at hfailure
        simp only [TapeMark.size] at hz
        exact size_le_of_failure_eq_none (by omega) hfailure
      · cases h

theorem le_size_of_markAt_some {k : TapeMark} (h : m.markAt o = .ok (some k)) :
    o + TapeMark.size ≤ m.bytes.size := by
  have hsize := m.readable_le_size
  unfold markAt at h
  simp only [List.length_take, length_bytesFrom] at h
  split at h
  · rename_i hfull
    simp only [TapeMark.size] at hfull ⊢
    omega
  · split at h
    · cases h
    · split at h
      · cases h
      · cases h

/-- A place that leads to bytes can be taken up. -/
theorem held_of_feedAt (h : m.feedAt framed p = .ok F) (hb : F.bytes ≠ []) (hf : framed = true) :
    p.Held m := by
  cases opening_of_feedAt h with
  | plain => cases hf
  | nothing _ => exact absurd rfl hb
  | fileMark k hmark _ => exact .inr (le_size_of_markAt_some hmark)
  | record k hmark _ _ => exact .inr (le_size_of_markAt_some hmark)

/-- A place that leads to bytes lies inside the image. -/
theorem le_size_of_feedAt (h : m.feedAt framed p = .ok F) (hb : F.bytes ≠ []) :
    p.offset ≤ m.bytes.size ∧ p.skip ≤ m.bytes.size := by
  have hsize := m.readable_le_size
  have hpos := List.length_pos_iff.2 hb
  -- there are bytes behind what is skipped, and all of them lie inside the image
  cases opening_of_feedAt h with
  | plain =>
    simp only [plainFeed, length_bytesFrom] at hpos
    omega
  | nothing _ => exact absurd rfl hb
  | fileMark k _ _ => exact absurd rfl hb
  | record k _ _ htell =>
    have hlen := length_throughRecord_le (s := ⟨p.offset, k.next.toNat, p.skip⟩)
      (m.length_feedFrom_le k.next.toNat) htell
    rw [← recordFeed] at hlen
    simp only [TapeRecord.tell] at hlen
    omega

/-- A track that stops can be taken up there.  A file mark lies inside the image, and what follows
is behind it. -/
structure EndsBehind (m : Medium) (o : Nat) (ending : Ending) : Prop where
  /-- The place can be taken up. -/
  held : ∀ stop q, ending = .stopped stop q → q.Held m
  /-- There is a file mark behind `o`. -/
  fileMark : ∀ q, ending = .stopped .fileMark q →
    q.skip = 0 ∧ o + TapeMark.size ≤ q.offset ∧ o + TapeMark.size ≤ m.bytes.size

theorem EndsBehind.mono {ending : Ending} {o' : Nat} (h : m.EndsBehind o ending) (ho : o' ≤ o) :
    m.EndsBehind o' ending where
  held := h.held
  fileMark q hq := by
    obtain ⟨hskip, hoffset, hsize⟩ := h.fileMark q hq
    exact ⟨hskip, by omega, by omega⟩

theorem endsBehind_failed {e : IoError} : m.EndsBehind o (.failed e) := ⟨nofun, nofun⟩

theorem endsBehind_mediumEnd (h : p.Held m) : m.EndsBehind o (.stopped .mediumEnd p) := by
  refine ⟨?_, nofun⟩
  rintro stop q ⟨⟩
  exact h

theorem endsBehind_endingAt {position : Nat} (h : p.Held m) :
    m.EndsBehind o (m.endingAt position p) := by
  unfold endingAt
  split
  · exact endsBehind_failed
  · exact endsBehind_mediumEnd h

theorem endsBehind_throughRecord {s : TapeRecord} {next : Feed} (h : m.EndsBehind s.next next.ending)
    (hs : s.start + TapeMark.size ≤ m.bytes.size) (ho : o ≤ s.next) :
    m.EndsBehind o (m.throughRecord s next).ending := by
  simp only [throughRecord]
  split
  · exact h.mono ho
  · exact endsBehind_endingAt (.inr hs)

theorem endsBehind_fileMark {k : TapeMark} (h : m.markAt o = .ok (some k)) (hk : k.Fits o) :
    m.EndsBehind o (.stopped .fileMark (.start k.next.toNat)) where
  held := by
    rintro stop q ⟨⟩
    exact .inl rfl
  fileMark := by
    rintro q ⟨⟩
    exact ⟨rfl, hk.next, le_size_of_markAt_some h⟩

theorem endsBehind_feedFrom (m : Medium) (o : Nat) : m.EndsBehind o (m.feedFrom o).ending := by
  fun_induction feedFrom m o with
  | case1 o e hmark => exact endsBehind_failed
  | case2 o hmark => exact endsBehind_mediumEnd (.inl rfl)
  | case3 o k hmark hfits hk => exact endsBehind_fileMark hmark hfits
  | case4 o k hmark hfits hk ih =>
    have hnext := hfits.next
    exact endsBehind_throughRecord ih (le_size_of_markAt_some hmark) (by simp only; omega)
  | case5 o k hmark hfits => exact endsBehind_failed

/-- **What ends a feed can be taken up**, and file marks come one behind the other. -/
theorem endsBehind_feedAt (h : m.feedAt framed p = .ok F) : m.EndsBehind p.offset F.ending := by
  cases opening_of_feedAt h with
  | plain => exact endsBehind_endingAt (.inl rfl)
  | nothing _ => exact endsBehind_mediumEnd (.inl rfl)
  | fileMark k hmark hfits => exact endsBehind_fileMark hmark hfits
  | record k hmark hfits _ =>
    have hnext := hfits.next
    exact endsBehind_throughRecord (m.endsBehind_feedFrom _) (le_size_of_markAt_some hmark)
      (by simp only; omega)

end Medium

namespace Track

variable {m : Medium} {t : Track} {p : Place}

/-- A mark that fits is followed by a place behind it. -/
theorem passes_of_fits {k : TapeMark} (h : k.Fits p.offset) : p.Passes (.start k.next.toNat) := by
  have hnext := h.next
  exact Place.passes_start (by simp only [TapeMark.size] at hnext; omega)

/-- **A track that is taken up at a place is not before it.** -/
theorem reaches_of_moveTo (hm : t.reader.medium = m) (hp : t.isFramed = true → p.Held m) :
    Ends (fun _ t' => p.Reaches t'.place) (fun _ _ => True) (moveTo p t) := by
  obtain ⟨r, framing, stop⟩ := t
  cases framing with
  | plain q =>
    refine Place.le_iff.2 ?_
    simp only [place, Place.start]
    omega
  | tape s =>
    subst hm
    have hheld := hp rfl
    have hmark := TapeMark.ends_read (Reader.At.seek ⟨rfl, rfl⟩ p.offset : (r.seek p.offset).At _ _)
    have hmove := movesTo r s stop p
    generalize moveTo p ⟨r, .tape s, stop⟩ = result at hmove ⊢
    cases hmove with
    | unread | misfit | overrun => exact trivial
    | mediumEnd mark =>
      obtain ⟨hmark, -, -⟩ := mark ▸ hmark
      have hsize := Medium.size_le_of_markAt_none hmark
      have hskip : p.skip = 0 := by
        rcases hheld with h | h
        · exact h
        · simp only [TapeMark.size] at h
          omega
      change p.Reaches (⟨p.offset, p.offset, 0⟩ : TapeRecord).place
      rw [TapeRecord.place_of_le (s := ⟨p.offset, p.offset, 0⟩) (Nat.le_add_right _ _)]
      exact Place.le_iff.2 (.inr ⟨rfl, Nat.le_of_eq hskip⟩)
    | fileMark mark hfits hk =>
      change p.Reaches (TapeRecord.place _)
      rw [TapeRecord.place_of_le (by simp only [TapeMark.dataLength]; omega)]
      exact (passes_of_fits hfits).reaches
    | @record k r' mark hfits hk hskip =>
      change p.Reaches (⟨p.offset, k.next.toNat, p.skip⟩ : TapeRecord).place
      by_cases hspent : k.next.toNat ≤ p.offset + TapeMark.size + p.skip
      · rw [TapeRecord.place_of_le (s := ⟨p.offset, k.next.toNat, p.skip⟩) hspent]
        exact (passes_of_fits hfits).reaches
      · rw [TapeRecord.place_of_lt (s := ⟨p.offset, k.next.toNat, p.skip⟩) (Nat.lt_of_not_le hspent)]
        exact .refl _

/-- A track that is opened delivers what lies at the place. -/
theorem openAt_eq (r : Reader) (framed : Bool) (p : Place) :
    match openAt r framed p with
    | .ok t => ∃ F, r.medium.feedAt framed p = .ok F ∧ t.Delivers r.medium framed F ∧
      ((framed = true → p.Held r.medium) → p.Reaches t.place)
    | .error e => r.medium.feedAt framed p = .error e := by
  have hframed : (⟨r, if framed then .tape ⟨p.offset, p.offset, 0⟩ else .plain p.offset, none⟩ :
      Track).isFramed = framed := by
    cases framed <;> rfl
  have hmove := ends_moveTo (m := r.medium) rfl hframed p
  have hreach : (framed = true → p.Held r.medium) → _ := fun hheld =>
    reaches_of_moveTo (m := r.medium) (p := p) rfl fun h => hheld (hframed ▸ h)
  simp only [openAt]
  cases hrun : moveTo p
    ⟨r, if framed then .tape ⟨p.offset, p.offset, 0⟩ else .plain p.offset, none⟩ with
  | error e t => exact (hrun ▸ hmove).1
  | ok u t =>
    obtain ⟨F, hF, ht⟩ := hrun ▸ hmove
    refine ⟨F, hF, ht, fun hheld => ?_⟩
    have hplace := hreach hheld
    rw [hrun] at hplace
    exact hplace

theorem openAt_of_moveTo {r : Reader} {p : Place} {t : Track}
    (h : moveTo p ⟨r, .tape ⟨p.offset, p.offset, 0⟩, none⟩ = .ok () t) :
    openAt r true p = .ok t := by
  simp only [openAt, if_true, h]

end Track

end WellLog
