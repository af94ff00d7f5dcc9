import WellLog.Proofs.Image.Tape
import WellLog.Proofs.Track.InStep
/-!
# What a track is searched for

Two searches are made on a track: for a storage unit label, which is taken whole or not at all, and
for the first visible record.  Here both are stated in terms of what the track would deliver if it
were read instead, in reads of any sizes (`Track.Unrolls`).

The search for a visible record claims memory for its whole window before it reads a byte.  It is
what it should be while there are pieces of memory as large as the window.  With a larger limit it
fails, also where a header is right ahead (`Track.tooWide_bareRecord`).

* `Track.probes_label` : **the probe for a label takes all of it or nothing**, also where it runs
  into a file mark or the end of the medium.
* `Track.finds_first` : **the first header within the limit is found**, with the place that the
  track has there, and a larger limit finds the same one.
-/

namespace WellLog

namespace StorageLabel

/-- The version and the structure are those of a label. -/
def Signed (bytes : List UInt8) : Prop :=
  (bytes.drop 4).take 3 = Utf8.encode "V1." ∧ (bytes.drop 9).take 6 = Utf8.encode "RECORD"

instance (bytes : List UInt8) : Decidable (Signed bytes) :=
  inferInstanceAs (Decidable (_ ∧ _))

variable {bytes : List UInt8}

theorem Signed.le_length (h : Signed bytes) : 15 ≤ bytes.length := by
  have hlen := congrArg List.length h.2
  have hrecord : (Utf8.encode "RECORD").length = 6 := by decide +kernel
  rw [hrecord, List.length_take, List.length_drop] at hlen
  omega

theorem looksLike_iff : looksLike bytes = true ↔ Signed bytes := by
  unfold looksLike
  rw [Bool.and_eq_true, Bool.and_eq_true, decide_eq_true_iff, beq_iff_eq, beq_iff_eq]
  exact ⟨fun h => ⟨h.1.2, h.2⟩, fun h => ⟨⟨h.le_length, h.1⟩, h.2⟩⟩

/-- The signature lies in the first bytes of a label. -/
theorem signed_take_iff : Signed (bytes.take size) ↔ Signed bytes := by
  simp only [Signed, List.drop_take, List.take_take]
  rfl

/-- What the probe in front of these bytes finds, and what it leaves. -/
structure Probes (bytes : List UInt8) (ending : Ending) (probe : LabelProbe) (after : Track) :
    Prop where
  /-- A label is found where all of it is there. -/
  found : ∀ label, probe = .found label ↔
    size ≤ bytes.length ∧ Signed bytes ∧ label = .ofBytes (bytes.take size)
  /-- It is cut where only its beginning is there. -/
  cut : ∀ n, probe = .cut n ↔
    15 ≤ bytes.length ∧ bytes.length < size ∧ Signed bytes ∧ n = bytes.length
  /-- It is missing otherwise. -/
  missing : probe = .missing ↔ ¬ Signed bytes
  /-- A label that is found is taken. -/
  taken : (∃ label, probe = .found label) → after.Unrolls (bytes.drop size) ending
  /-- Otherwise nothing is. -/
  kept : (∀ label, probe ≠ .found label) → after.Unrolls bytes ending

/-- The probe that is made of the bytes has the properties of one, if the bytes behind it are
left. -/
theorem probes_of_unrolls {ending : Ending} {after : Track}
    (h : after.Unrolls (behind bytes) ending) : Probes bytes ending (probe bytes) after := by
  have hlooks : looksLike (bytes.take size) = true ↔ Signed bytes :=
    looksLike_iff.trans signed_take_iff
  by_cases hsigned : Signed bytes
  · have h15 := hsigned.le_length
    by_cases hlen : size ≤ bytes.length
    · -- a whole label
      have hprobe : probe bytes = .found (.ofBytes (bytes.take size)) := by
        rw [probe, if_pos (hlooks.2 hsigned), if_pos hlen]
      rw [behind, if_pos ⟨hlooks.2 hsigned, hlen⟩] at h
      rw [hprobe]
      exact
        { found := fun label => ⟨fun heq => ⟨hlen, hsigned, (LabelProbe.found.inj heq).symm⟩,
            fun heq => by rw [heq.2.2]⟩
          cut := fun n => ⟨by rintro ⟨⟩, fun hcut => absurd hlen (Nat.not_le.2 hcut.2.1)⟩
          missing := ⟨by rintro ⟨⟩, fun hno => absurd hsigned hno⟩
          taken := fun _ => h
          kept := fun hno => absurd rfl (hno _) }
    · -- the beginning of one
      have hprobe : probe bytes = .cut bytes.length := by
        rw [probe, if_pos (hlooks.2 hsigned), if_neg hlen]
      rw [behind, if_neg fun hno => hlen hno.2] at h
      rw [hprobe]
      exact
        { found := fun label => ⟨by rintro ⟨⟩, fun hfound => absurd hfound.1 hlen⟩
          cut := fun n =>
            ⟨fun heq => ⟨h15, Nat.lt_of_not_le hlen, hsigned, (LabelProbe.cut.inj heq).symm⟩,
              fun heq => by rw [heq.2.2.2]⟩
          missing := ⟨by rintro ⟨⟩, fun hno => absurd hsigned hno⟩
          taken := by rintro ⟨_, ⟨⟩⟩
          kept := fun _ => h }
  · have hprobe : probe bytes = .missing := by
      rw [probe, if_neg fun hno => hsigned (hlooks.1 hno)]
    rw [behind, if_neg fun hno => hsigned (hlooks.1 hno.1)] at h
    rw [hprobe]
    exact
      { found := fun label => ⟨by rintro ⟨⟩, fun hfound => absurd hfound.2.1 hsigned⟩
        cut := fun n => ⟨by rintro ⟨⟩, fun hcut => absurd hcut.2.2.1 hsigned⟩
        missing := ⟨fun _ => hsigned, fun _ => rfl⟩
        taken := by rintro ⟨_, ⟨⟩⟩
        kept := fun _ => h }

end StorageLabel

namespace Track

variable {m : Medium} {framed : Bool} {F : Feed} {t u v : Track} {bytes : List UInt8}
  {ending : Ending}

/-! ### Labels -/

/-- **The probe for a label takes all of it or nothing.**  Where a byte is seen ahead on a track in
step, this byte comes first, before and after the look.  The probe finds what the bytes ahead say,
and unless it finds a whole label, the track delivers them afterwards as it would have done before,
down to the way it stops; it fails only where reading these bytes fails.

A look ahead also moves a track that is not in step, so in that case the bytes are those that are
ahead after the look. -/
theorem probes_label {b : UInt8} (hpeek : peek t = .ok (.byte b) u) :
    (t.InStep → ∃ rest ending, t.Unrolls (b :: rest) ending ∧ u.Unrolls (b :: rest) ending) ∧
      ∀ v, v = u ∨ v = t ∧ t.InStep → ∀ bytes ending, v.Unrolls bytes ending → bytes ≠ [] →
        Ends (StorageLabel.Probes bytes ending)
          (fun e _ => ∃ x, e = .io x ∧ ending = .failed x ∧ bytes.length < StorageLabel.size)
          (findLabel v) := by
  have hu : u.InStep := by
    have hends := ends_peek_inStep t
    rw [hpeek, ends_ok] at hends
    exact hends ⟨b, rfl⟩
  refine ⟨?_, ?_⟩
  · intro ht
    obtain ⟨F, hF⟩ := ht.delivers
    have hahead := hF.ends_peek
    rw [hpeek, ends_ok] at hahead
    obtain ⟨-, hFu, rest, hb⟩ := hahead
    refine ⟨rest, F.ending, ?_, ?_⟩
    · rw [← hb]
      exact hF.unrolls
    · rw [← hb]
      exact hFu.unrolls
  · intro v hv bytes ending hbytes hne
    have hstep : v.InStep := by
      obtain rfl | ⟨rfl, ht⟩ := hv
      · exact hu
      · exact ht
    obtain ⟨F, hF⟩ := hstep.delivers
    obtain ⟨rfl, rfl⟩ := hF.unrolls.unique hbytes
    refine (hF.ends_findLabel hne).mono ?_ fun _ _ => id
    rintro _ w ⟨-, rfl, hw, -⟩
    exact StorageLabel.probes_of_unrolls hw.unrolls

/-- The beginning of a label. -/
def cutLabel : List UInt8 := Utf8.encode "   1V1.00RECORD 8192"

/-- A file that has nothing but the beginning of a label, in two tape records, and one more file. -/
def cutLabelTape : List Image.TapePart :=
  [.record (cutLabel.take 8), .record (cutLabel.drop 8), .fileMark, .record [1]]

/-- The probe runs into the file mark, and goes back. -/
theorem probes_label_cutLabel :
    ∃ t u q,
      openAt (.ofMedium (.ofBytes (Image.tape cutLabelTape).toArray)) true (.start 0) = .ok t ∧
      peek t = .ok (.byte 32) u ∧ u.Unrolls cutLabel (.stopped .fileMark q) ∧
      ∃ w, findLabel u = .ok (.cut 20) w ∧ w.Unrolls cutLabel (.stopped .fileMark q) := by
  have hcarries := @Image.carries_tape (.ofBytes (Image.tape cutLabelTape).toArray) cutLabelTape rfl
    (by simp only [Medium.ofBytes]) (by decide +kernel)
  have hsections : Image.sections cutLabelTape = [cutLabel, [1]] := by decide +kernel
  rw [hsections] at hcarries
  obtain ⟨stop, q, hfeed, -, hstop⟩ := hcarries.feed
  obtain rfl : stop = .fileMark := by
    cases stop with
    | fileMark => rfl
    | mediumEnd => cases hstop.1
  obtain ⟨t, hopen, ht⟩ := unrolls_of_feedAt hfeed (r := .ofMedium _) rfl
  have hcons : cutLabel = 32 :: cutLabel.tail := by decide +kernel
  obtain ⟨u, hpeek⟩ := (InStep.opened hopen).exists_peek (hcons ▸ ht)
  obtain ⟨hahead, hprobe⟩ := probes_label hpeek
  obtain ⟨rest, ending, ht', hu⟩ := hahead (.opened hopen)
  obtain ⟨hrest, rfl⟩ := ht.unique ht'
  rw [hrest] at hu
  refine ⟨t, u, q, hopen, hpeek, hu, ?_⟩
  have hends := hprobe u (.inl rfl) _ _ hu (by rw [hcons]; exact List.cons_ne_nil _ _)
  cases hrun : findLabel u with
  | ok probe w =>
    rw [hrun, ends_ok] at hends
    have hcut : probe = .cut 20 := (hends.cut 20).2 (by decide +kernel)
    subst hcut
    exact ⟨w, rfl, hends.kept nofun⟩
  | error e w =>
    rw [hrun] at hends
    obtain ⟨x, -, hfailed, -⟩ := hends
    cases hfailed

/-! ### Visible records -/

/-- A place inside the bytes ahead is that of a track that is read up to there. -/
theorem HasPlace.exists_reads {p : Place} {i : Nat} (h : t.HasPlace bytes p (bytes.drop i)) :
    ∃ v, t.Reads (bytes.take i) v ∧ v.place = p := by
  obtain ⟨got, v, hreads, hbytes, rfl⟩ := h
  have htake : bytes.take i ++ bytes.drop i = got ++ bytes.drop i :=
    (List.take_append_drop i bytes).trans hbytes
  rw [List.append_cancel_right htake]
  exact ⟨v, hreads, rfl⟩

/-- Every limit that reaches as far as the first header leads there. -/
theorem Delivers.findVisible_of_headerIn (h : t.Delivers m framed ⟨bytes, ending⟩) {limit i : Nat}
    (hfits : VisibleHeader.WindowFits limit)
    (hi : headerIn (VisibleHeader.window limit) bytes = some i) (hv : t.Reads (bytes.take i) v) :
    ∃ u, findVisible limit t = .ok v.place u ∧ u.Delivers m framed ⟨bytes.drop i, ending⟩ := by
  have hends : Ends (fun p u => p = v.place ∧ u.Delivers m framed ⟨bytes.drop i, ending⟩)
      (fun _ _ => False) (findVisible limit t) := by
    rw [ends_findVisible hfits]
    refine (h.ends_searchWindow limit).mono ?_ ?_
    · rintro p u ⟨-, j, hj, hplace, -, hu⟩
      cases hi.symm.trans hj
      obtain ⟨w, hw, rfl⟩ := hplace.exists_reads
      exact ⟨hv.place_eq hw, hu⟩
    · rintro e u ⟨hnone, -⟩
      cases hi.symm.trans hnone
  obtain ⟨p, u, hrun, rfl, hu⟩ := hends.exists_ok
  exact ⟨u, hrun, hu⟩

/-- **The first header within the limit is found.**  On a track in step that reading does not fail
on before the window ends, the search succeeds exactly if a valid header begins at most `limit`
bytes ahead.  It moves to the first of them and gives the place that the track has there, however it
is read up to it; any larger limit leads to the same place.  Without such a header the search says
how many bytes it has seen.  All of this is for windows that fit into memory. -/
theorem finds_first {limit : Nat} (hstep : t.InStep) (hbytes : t.Unrolls bytes ending)
    (hreadable : ∀ e, ending = .failed e → limit + VisibleHeader.size ≤ bytes.length)
    (hfits : VisibleHeader.WindowFits limit) :
    Ends
      (fun p u => ∃ i ≤ limit, Headed (bytes.drop i) ∧ (∀ j < i, ¬ Headed (bytes.drop j)) ∧
        (∃ v, t.Reads (bytes.take i) v) ∧ (∀ v, t.Reads (bytes.take i) v → v.place = p) ∧
        u.Unrolls (bytes.drop i) ending ∧
        ∀ limit' ≥ limit, VisibleHeader.WindowFits limit' →
          ∃ u', findVisible limit' t = .ok p u' ∧ u'.Unrolls (bytes.drop i) ending)
      (fun e _ => (∀ i ≤ limit, ¬ Headed (bytes.drop i)) ∧
        e = .format
          (.defect (.noVisibleRecord t.tell (min (limit + VisibleHeader.size) bytes.length))))
      (findVisible limit t) := by
  obtain ⟨F, hF⟩ := hstep.delivers
  obtain ⟨rfl, rfl⟩ := hF.unrolls.unique hbytes
  have hspec := headerIn_spec (VisibleHeader.window limit) F.bytes
  rw [ends_findVisible hfits]
  refine (hF.ends_searchWindow limit).mono ?_ ?_
  · rintro p u ⟨-, i, hi, hplace, -, hu⟩
    rw [hi, VisibleHeader.window] at hspec
    obtain ⟨hle, hheaded, hfirst⟩ := hspec
    obtain ⟨v, hv, rfl⟩ := hplace.exists_reads
    refine ⟨i, by omega, hheaded, hfirst, ⟨v, hv⟩, fun w hw => hv.place_eq hw, hu.unrolls, ?_⟩
    intro limit' hlarger hfits'
    -- a larger window begins with the same header
    have hi' : headerIn (VisibleHeader.window limit') F.bytes = some i := by
      refine headerIn_eq_some ?_ hheaded hfirst
      rw [VisibleHeader.window]
      omega
    obtain ⟨u', hrun, hu'⟩ := Delivers.findVisible_of_headerIn hF hfits' hi' hv
    exact ⟨u', hrun, hu'.unrolls⟩
  · rintro e u ⟨hnone, rfl⟩
    rw [hnone, VisibleHeader.window] at hspec
    refine ⟨fun i hi => hspec i (by omega), ?_⟩
    unfold missed
    rw [VisibleHeader.window]
    split
    · rename_i hshort
      cases hending : F.ending with
      | stopped stop place => rw [Nat.min_eq_right (Nat.le_of_lt hshort)]
      | failed e => exact absurd hshort (Nat.not_lt.2 (hreadable e hending))
    · rename_i hlong
      rw [Nat.min_eq_left (Nat.le_of_not_lt hlong)]

/-- A header in three tape records. -/
def scatteredHeader : List Image.TapePart := [.record [9, 0], .record [20], .record [255, 1]]

/-- The header begins with the second byte. -/
theorem finds_first_scatteredHeader :
    ∃ t q, openAt (.ofMedium (.ofBytes (Image.tape scatteredHeader).toArray)) true (.start 0) =
        .ok t ∧ t.Unrolls [9, 0, 20, 255, 1] (.stopped .mediumEnd q) ∧
      ∃ p u, findVisible 1 t = .ok p u ∧ (∀ v, t.Reads [9] v → v.place = p) ∧
        u.Unrolls [0, 20, 255, 1] (.stopped .mediumEnd q) := by
  have hcarries := @Image.carries_tape (.ofBytes (Image.tape scatteredHeader).toArray)
    scatteredHeader rfl (by simp only [Medium.ofBytes]) (by decide +kernel)
  have hsections : Image.sections scatteredHeader = [[9, 0, 20, 255, 1]] := by decide +kernel
  rw [hsections] at hcarries
  obtain ⟨stop, q, hfeed, -, hstop⟩ := hcarries.feed
  obtain rfl : stop = .mediumEnd := by
    cases stop with
    | fileMark => exact absurd rfl hstop.1
    | mediumEnd => rfl
  obtain ⟨t, hopen, ht⟩ := unrolls_of_feedAt hfeed (r := .ofMedium _) rfl
  have hends : Ends _ _ (findVisible 1 t) :=
    finds_first (.opened hopen) ht (fun _ _ => by decide) (by decide)
  refine ⟨t, q, hopen, ht, ?_⟩
  cases hrun : findVisible 1 t with
  | ok p u =>
    rw [hrun, ends_ok] at hends
    obtain ⟨i, hi, hheaded, -, -, hplace, hu, -⟩ := hends
    -- of the two places within the limit, the header is at the second one
    obtain rfl : i = 1 := by
      have hzero : ¬ Headed [9, 0, 20, 255, 1] := by decide
      match i, hi with
      | 0, _ => exact absurd hheaded hzero
      | 1, _ => rfl
    exact ⟨p, u, rfl, hplace, hu⟩
  | error e u =>
    obtain ⟨hnone, -⟩ := hrun ▸ hends
    exact absurd (by decide) (hnone 1 (Nat.le_refl 1))

/-- A visible record that is all zeros behind its header. -/
def bareRecord : List UInt8 := [0, 20, 255, 1] ++ List.replicate 16 0

/-- **A window that no memory holds.**  A header right ahead is found with the limit 0, but not with
a limit that asks for more memory than there can be, be it the largest one or a sixteenth of that. -/
theorem tooWide_bareRecord :
    ∃ t q, openAt (.ofMedium (.ofBytes bareRecord.toArray)) false (.start 0) = .ok t ∧
      t.Unrolls bareRecord (.stopped .mediumEnd q) ∧ Headed bareRecord ∧
      (∃ u, findVisible 0 t = .ok (.start 0) u) ∧
      findVisible (UInt64.size / 16) t = .error (.tooWide (UInt64.size / 16)) t ∧
      findVisible (UInt64.size - 1) t = .error (.tooWide (UInt64.size - 1)) t := by
  have hfeed : (Medium.ofBytes bareRecord.toArray).feedAt false (.start 0) =
      .ok ⟨bareRecord, .stopped .mediumEnd (.start 20)⟩ := by
    rw [Medium.feedAt, if_neg (by decide), Place.start,
      Medium.plainFeed_of_faultless rfl (by decide)]
    rfl
  obtain ⟨t, hopen, ht⟩ := unrolls_of_feedAt hfeed (r := .ofMedium _) rfl
  have hsearch : Ends (fun p _ => p = .start 0) (fun _ _ => False) (findVisible 0 t) := by
    cases hopen
    decide +kernel
  obtain ⟨p, u, hfound, rfl⟩ := hsearch.exists_ok
  exact ⟨t, _, hopen, ht, by decide, ⟨u, hfound⟩, findVisible_of_not_fits (by decide) t,
    findVisible_of_not_fits (by decide) t⟩

end Track

end WellLog
