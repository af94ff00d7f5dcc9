import WellLog.Proofs.LogicalStream.Outlook
import WellLog.Proofs.Track.Reading
import WellLog.StorageLabel
import WellLog.VisibleRecord
/-!
# Looking for what begins on a track

In front of a logical file a track is probed: is there another byte, is there a storage unit label,
and where is the first visible record?  What is found is a function of the bytes ahead
(`StorageLabel.probe`, `headerIn`); the places that are returned lead to the bytes found there.

* `Track.Delivers.ends_peek` : looking ahead takes nothing.
* `Track.Delivers.ends_findLabel` : a label is taken whole or not at all.
* `Track.Delivers.ends_searchWindow` : **the first header within the window is found**, wherever it
  is cut.
* `Track.ends_findVisible`, `Track.findVisible_of_not_fits` : that is so if there can be memory for the
  window.  Otherwise the search fails, and the track is left as it is.
-/

namespace WellLog

variable {m : Medium} {framed : Bool} {F : Feed} {t : Track} {ending : Ending} {bytes : List UInt8}

/-! ### Looking ahead -/

namespace Track.Delivers

/-- Bytes can be taken one by one. -/
theorem read_one {b : UInt8} (h : t.Delivers m framed ⟨b :: bytes, ending⟩) :
    ∃ t', read 1 t = .ok [b] t' ∧ t'.Delivers m framed ⟨bytes, ending⟩ ∧
      t.place.Reaches t'.place := by
  have hread := h.readsFrom Nat.one_pos
  unfold ReadsFrom at hread
  have hgo := proceeds_read 1 t
  cases hrun : read 1 t with
  | error e t' =>
    obtain ⟨hnil, -⟩ := hrun ▸ hread
    cases hnil
  | ok got t' =>
    obtain ⟨hgot, hlen, hpre, hd⟩ := hrun ▸ hread
    obtain ⟨hforward, -⟩ := hrun ▸ hgo
    match got, hgot, hlen, hpre, hd with
    | [], hgot, _, _, _ => simp at hgot
    | [c], _, _, hpre, hd =>
      cases hpre
      exact ⟨t', rfl, hd, hforward.place⟩
    | _ :: _ :: _, _, hlen, _, _ => simp at hlen

/-- A track goes back to where it was. -/
theorem return_place (h : t.Delivers m framed F) (hb : F.bytes ≠ []) {t' : Track}
    (hm : t'.reader.medium = m) (hf : t'.isFramed = framed) :
    Ends (fun _ u => u.Delivers m framed F ∧ t.place.Reaches u.place) (fun _ _ => False)
      (moveTo t.place t') := by
  obtain ⟨u, hmove, hu⟩ := h.moveTo_place hb hm hf
  have hheld : t'.isFramed = true → t.place.Held m := fun hframed =>
    Medium.held_of_feedAt (h.feedAt_place hb) hb (hf.symm.trans hframed)
  have hreach := reaches_of_moveTo hm hheld
  rw [hmove] at hreach ⊢
  exact ⟨hu, hreach⟩

/-- **Looking ahead takes nothing.** -/
theorem ends_peek (h : t.Delivers m framed F) :
    Ends
      (fun ahead t' => t.place.Reaches t'.place ∧ t'.Delivers m framed F ∧
        match ahead with
        | .byte b => ∃ rest, F.bytes = b :: rest
        | .stop stop => F = ⟨[], .stopped stop t'.place⟩)
      (fun e _ => ∃ x, e = .io x ∧ F = ⟨[], .failed x⟩) (peek t) := by
  obtain ⟨bytes, ending⟩ := F
  have hgo := proceeds_read 1 t
  unfold peek
  rw [ends_bind, ends_get, ends_bind, ends_liftIo]
  cases bytes with
  | nil =>
    refine ((h.ends_read_of_nil Nat.one_pos).and hgo).mono ?_ ?_
    · rintro got t' ⟨⟨rfl, stop, place, rfl, hstop, rfl, hd⟩, hforward, -⟩
      simp only
      rw [ends_bind, ends_get, ends_pure, hstop]
      exact ⟨hforward.place, hd, rfl⟩
    · rintro e t' ⟨⟨rfl, -⟩, -⟩
      exact ⟨e, rfl, rfl⟩
  | cons b rest =>
    obtain ⟨t', hread, hd, -⟩ := h.read_one
    rw [hread, ends_ok]
    simp only
    rw [ends_bind]
    refine (h.return_place (List.cons_ne_nil b rest) hd.medium hd.isFramed).mono ?_
      fun _ _ => False.elim
    rintro - u ⟨hu, hreach⟩
    exact ⟨hreach, hu, rest, rfl⟩

end Track.Delivers

/-! ### Labels -/

namespace StorageLabel

/-- What is found in front of the bytes. -/
def probe (bytes : List UInt8) : LabelProbe :=
  if looksLike (bytes.take size) then
    if size ≤ bytes.length then .found (.ofBytes (bytes.take size)) else .cut bytes.length
  else .missing

/-- The bytes behind the label, if there is one. -/
def behind (bytes : List UInt8) : List UInt8 :=
  if looksLike (bytes.take size) ∧ size ≤ bytes.length then bytes.drop size else bytes

end StorageLabel

/-- **A label is taken whole or not at all.** -/
theorem Track.Delivers.ends_findLabel (h : t.Delivers m framed F) (hb : F.bytes ≠ []) :
    Ends
      (fun probe t' => t.place.Reaches t'.place ∧ probe = StorageLabel.probe F.bytes ∧
        t'.Delivers m framed ⟨StorageLabel.behind F.bytes, F.ending⟩ ∧
        (F.bytes.length < StorageLabel.size → ∃ stop place, F.ending = .stopped stop place))
      (fun e _ => ∃ x, e = .io x ∧ F.ending = .failed x ∧ F.bytes.length < StorageLabel.size)
      (findLabel t) := by
  unfold findLabel
  rw [ends_bind, ends_get, ends_bind, ends_liftIo]
  have hgo := Proceeds.gather Track.advance (fun n _ => Track.proceeds_read n)
    StorageLabel.size t
  -- only a whole label is kept; whatever else was read is given back
  by_cases hlen : StorageLabel.size ≤ F.bytes.length
  · obtain ⟨t', hg, hd⟩ := h.gather_of_le hlen
    rw [hg] at hgo ⊢
    rw [ends_ok]
    have htake : (F.bytes.take StorageLabel.size).length = StorageLabel.size := by
      rw [List.length_take]
      omega
    by_cases hlabel : StorageLabel.looksLike (F.bytes.take StorageLabel.size) = true
    · rw [if_pos ⟨htake, hlabel⟩, ends_pure, StorageLabel.probe, if_pos hlabel, if_pos hlen,
        StorageLabel.behind, if_pos ⟨hlabel, hlen⟩]
      exact ⟨hgo.1.place, rfl, hd, fun hlt => absurd hlt (by omega)⟩
    · rw [if_neg fun h => hlabel h.2, ends_bind]
      refine (h.return_place hb hd.medium hd.isFramed).mono ?_ fun _ _ => False.elim
      rintro - u ⟨hu, hreach⟩
      rw [if_neg fun h => hlabel h.2, ends_pure, StorageLabel.probe, if_neg hlabel,
        StorageLabel.behind, if_neg fun h => hlabel h.1]
      exact ⟨hreach, rfl, hu, fun hlt => absurd hlt (by omega)⟩
  · have hlt := Nat.lt_of_not_le hlen
    have htake : F.bytes.take StorageLabel.size = F.bytes := List.take_of_length_le (by omega)
    refine (h.gather_of_lt hlt).mono ?_ ?_
    · rintro got t' ⟨rfl, stop, place, hstop, -, -, hd⟩
      rw [if_neg (by omega), ends_bind]
      refine (h.return_place hb hd.medium hd.isFramed).mono ?_ fun _ _ => False.elim
      rintro - u ⟨hu, hreach⟩
      have hbehind : StorageLabel.behind F.bytes = F.bytes := if_neg fun h => hlen h.2
      rw [hbehind]
      by_cases hlabel : StorageLabel.looksLike F.bytes = true
      · rw [if_pos ⟨hlt, hlabel⟩, ends_pure, StorageLabel.probe, htake, if_pos hlabel, if_neg hlen]
        exact ⟨hreach, rfl, hu, fun _ => ⟨stop, place, hstop⟩⟩
      · rw [if_neg fun h => hlabel h.2, ends_pure, StorageLabel.probe, htake, if_neg hlabel]
        exact ⟨hreach, rfl, hu, fun _ => ⟨stop, place, hstop⟩⟩
    · rintro e t' ⟨hfail, -⟩
      exact ⟨e, rfl, hfail, hlt⟩

/-! ### Visible records -/

/-- The number of bytes in front of the first valid header that lies in the first `budget` bytes. -/
def headerIn : (budget : Nat) → List UInt8 → Option Nat
  | budget + 4, a :: b :: c :: d :: rest =>
    if (VisibleHeader.ofBytes a b c d).IsValid then some 0
    else (headerIn (budget + 3) (b :: c :: d :: rest)).map (· + 1)
  | _, _ => none

theorem headerIn_of_budget_lt {budget : Nat} (h : budget < VisibleHeader.size) :
    headerIn budget bytes = none := by
  match budget, h with
  | 0, _ | 1, _ | 2, _ | 3, _ => simp [headerIn]

theorem headerIn_of_length_lt {budget : Nat} (h : bytes.length < VisibleHeader.size) :
    headerIn budget bytes = none := by
  match bytes, h with
  | [], _ | [_], _ | [_, _], _ | [_, _, _], _ => simp [headerIn]
  | _ :: _ :: _ :: _ :: _, h =>
    simp only [List.length_cons, VisibleHeader.size] at h
    omega

/-- **The header that is found is the first one**; where none is found, there is none. -/
theorem headerIn_spec (budget : Nat) (bytes : List UInt8) :
    match headerIn budget bytes with
    | some i => i + VisibleHeader.size ≤ budget ∧ Headed (bytes.drop i) ∧
        ∀ j < i, ¬ Headed (bytes.drop j)
    | none => ∀ i, i + VisibleHeader.size ≤ budget → ¬ Headed (bytes.drop i) := by
  fun_induction headerIn budget bytes with
  | case1 budget a b c d rest hvalid =>
    exact ⟨by simp only [VisibleHeader.size]; omega, headed_iff.2 hvalid,
      fun j hj => absurd hj (Nat.not_lt_zero j)⟩
  | case2 budget a b c d rest hvalid ih =>
    -- the bytes in front of a header are those without the first one, and the first one
    have hfirst : ¬ Headed (a :: b :: c :: d :: rest) := fun h => hvalid (headed_iff.1 h)
    cases hfound : headerIn (budget + 3) (b :: c :: d :: rest) with
    | some i =>
      rw [hfound] at ih
      obtain ⟨hle, hheaded, hbefore⟩ := ih
      refine ⟨by simp only [VisibleHeader.size] at hle ⊢; omega, hheaded, ?_⟩
      rintro (_ | j) hj
      · exact hfirst
      · exact hbefore j (Nat.lt_of_succ_lt_succ hj)
    | none =>
      rw [hfound] at ih
      rintro (_ | i) hi
      · exact hfirst
      · exact ih i (by omega)
  | case3 budget bytes hshort =>
    intro i hi h
    have hlen := h.size_le
    rw [List.length_drop] at hlen
    simp only [VisibleHeader.size] at hi hlen
    match bytes, budget, hshort, hi with
    | a :: b :: c :: d :: rest, budget + 4, hshort, _ => exact hshort budget a b c d rest rfl rfl
    | [], _, _, _ | [_], _, _, _ | [_, _], _, _, _ | [_, _, _], _, _, _ =>
      simp only [List.length_nil, List.length_cons] at hlen
      omega

/-- The first header is found. -/
theorem headerIn_eq_some {budget i : Nat} (hle : i + VisibleHeader.size ≤ budget)
    (hheaded : Headed (bytes.drop i)) (hfirst : ∀ j < i, ¬ Headed (bytes.drop j)) :
    headerIn budget bytes = some i := by
  have hspec := headerIn_spec budget bytes
  cases hfound : headerIn budget bytes with
  | none =>
    rw [hfound] at hspec
    exact absurd hheaded (hspec i hle)
  | some k =>
    rw [hfound] at hspec
    obtain ⟨-, hheaded', hfirst'⟩ := hspec
    have hik : ¬ i < k := fun hlt => hfirst' i hlt hheaded
    have hki : ¬ k < i := fun hlt => hfirst k hlt hheaded'
    rw [show k = i by omega]

/-- There is a header where it is found. -/
theorem header_of_headerIn {budget i : Nat} (h : headerIn budget bytes = some i) :
    Headed (bytes.drop i) := by
  have hspec := headerIn_spec budget bytes
  rw [h] at hspec
  exact hspec.2.1

/-- A header in front is found first, whatever the limit is. -/
theorem headerIn_of_headerAt {limit : Nat} {header : VisibleHeader} {rest : List UInt8}
    (h : HeaderAt bytes header rest) : headerIn (VisibleHeader.window limit) bytes = some 0 := by
  obtain ⟨a, b, c, d, rfl, rfl, hvalid⟩ := h
  exact if_pos hvalid

/-- The failure where no header is found from the place with an offset on. -/
def missed (limit offset : Nat) (F : Feed) : FormatError :=
  if F.bytes.length < VisibleHeader.window limit then
    match F.ending with
    | .stopped _ _ => .defect (.noVisibleRecord offset F.bytes.length)
    | .failed e => .io e
  else .defect (.noVisibleRecord offset (VisibleHeader.window limit))

theorem missed_eq (limit offset : Nat) (F : Feed) :
    (∃ searched, missed limit offset F = .defect (.noVisibleRecord offset searched)) ∨
      ∃ e, missed limit offset F = .io e := by
  unfold missed
  split
  · cases F.ending with
    | stopped _ _ => exact .inl ⟨_, rfl⟩
    | failed e => exact .inr ⟨e, rfl⟩
  · exact .inl ⟨_, rfl⟩

/-- The search fails with the medium if that fails before enough bytes are searched. -/
theorem missed_eq_io_iff {limit offset : Nat} {e : IoError} :
    missed limit offset F = .io e ↔
      F.bytes.length < VisibleHeader.window limit ∧ F.ending = .failed e := by
  unfold missed
  split
  · cases F.ending with
    | stopped _ _ => simp [*]
    | failed _ => simp [*]
  · simp [*]

namespace Track

/-- The bytes from the first of the `recent` ones on. -/
def window (recent : List (Place × UInt8)) (bytes : List UInt8) : List UInt8 :=
  recent.foldl (fun bytes p => p.2 :: bytes) bytes

/-- The track `start`, from where `all` bytes are ahead, has the place `p` when it is read up to
`bytes`. -/
def HasPlace (start : Track) (all : List UInt8) (p : Place) (bytes : List UInt8) : Prop :=
  ∃ got u, start.Reads got u ∧ all = got ++ bytes ∧ u.place = p

/-- Each of the `recent` bytes is at its place, and `bytes` follow the last one. -/
def Recalls (start : Track) (all : List UInt8) : List (Place × UInt8) → List UInt8 → Prop
  | [], _ => True
  | (p, b) :: recent, bytes =>
    start.HasPlace all p (b :: bytes) ∧ Recalls start all recent (b :: bytes)

theorem length_window (recent : List (Place × UInt8)) (bytes : List UInt8) :
    (window recent bytes).length = recent.length + bytes.length := by
  induction recent generalizing bytes with
  | nil => simp [window]
  | cons p recent ih =>
    have hstep : window (p :: recent) bytes = window recent (p.2 :: bytes) := rfl
    rw [hstep, ih, List.length_cons, List.length_cons]
    omega

/-- What a search from `start` on comes to, where `all` bytes were ahead, and `bytes` from the window
on.  It finds the `header` in them.  Without one it sees `count` bytes; if there are fewer than it may
read, which is what `short` says, then the track has stopped behind them, or reading fails there. -/
def Searches (m : Medium) (framed : Bool) (start : Track) (all : List UInt8) (ending : Ending)
    (header : Option Nat) (bytes : List UInt8) (count : Nat) (short : Prop) :
    EStateM.Result IoError Track (Except Nat Place) → Prop :=
  Ends
    (fun found t => t.reader.medium = m ∧ t.isFramed = framed ∧
      match header with
      | some i => ∃ p, found = .ok p ∧ start.HasPlace all p (bytes.drop i)
      | none => found = .error count ∧ (short → ∃ stop place, ending = .stopped stop place))
    (fun e _ => header = none ∧ ending = .failed e ∧ short)

/-- One more byte in front of the window. -/
theorem Searches.cons {start : Track} {all : List UInt8} {header : Option Nat} {count : Nat}
    {short : Prop} {r : EStateM.Result IoError Track (Except Nat Place)}
    (h : Searches m framed start all ending header bytes count short r) (b : UInt8) :
    Searches m framed start all ending (header.map (· + 1)) (b :: bytes) count short r := by
  cases header with
  | some i => exact h.mono (fun _ _ h => h) fun _ _ h => (by cases h.1)
  | none => exact h

/-- The search finds the first header in the bytes it has read and those it may still read. -/
theorem Delivers.ends_searchVisible {start : Track} {all got : List UInt8}
    (hstart : start.Delivers m framed ⟨all, ending⟩) (budget searched : Nat)
    (recent : List (Place × UInt8)) (hreads : start.Reads got t) (hall : all = got ++ bytes)
    (hrecent : start.Recalls all recent bytes) (hlen : recent.length ≤ 3) :
    Searches m framed start all ending (headerIn (budget + recent.length) (window recent bytes))
      (window recent bytes) (searched + min budget bytes.length) (bytes.length < budget)
      (searchVisible budget recent searched t) := by
  -- every byte that is read leaves one less of the budget, and moves the window by at most one
  induction budget generalizing t bytes searched recent got with
  | zero =>
    obtain ⟨rest, -, h⟩ := hstart.of_reads hreads
    rw [Nat.zero_add, headerIn_of_budget_lt (by rw [VisibleHeader.size]; omega)]
    exact ⟨h.medium, h.isFramed, by simp, fun hlt => absurd hlt (Nat.not_lt_zero _)⟩
  | succ budget ih =>
    obtain ⟨rest, hrest, h⟩ := hstart.of_reads hreads
    obtain rfl : bytes = rest := List.append_cancel_left (hall.symm.trans hrest)
    unfold Searches
    rw [searchVisible, ends_bind, ends_get, ends_bind]
    cases bytes with
    | nil =>
      have hnone : headerIn (budget + 1 + recent.length) (window recent []) = none :=
        headerIn_of_length_lt (by rw [length_window, List.length_nil, VisibleHeader.size]; omega)
      rw [hnone]
      refine (h.ends_read_of_nil Nat.one_pos).mono ?_ ?_
      · rintro got t' ⟨rfl, stop, place, hstop, -, -, hd⟩
        exact ⟨hd.medium, hd.isFramed, by simp, fun _ => ⟨stop, place, hstop⟩⟩
      · rintro e t' ⟨hfail, -⟩
        exact ⟨rfl, hfail, Nat.succ_pos _⟩
    | cons d rest =>
      have hhere : start.HasPlace all t.place (d :: rest) := ⟨got, t, hreads, hall, rfl⟩
      obtain ⟨t', hread, hd, -⟩ := h.read_one
      have hcount : searched + 1 + min budget rest.length =
          searched + min (budget + 1) (rest.length + 1) := by omega
      have hgo : ∀ others, others.length ≤ 3 → start.Recalls all others rest →
          Searches m framed start all ending (headerIn (budget + others.length) (window others rest))
            (window others rest) (searched + min (budget + 1) (rest.length + 1))
            (rest.length + 1 < budget + 1) (searchVisible budget others (searched + 1) t') := by
        intro others hlen' hothers
        have hrun := ih (searched + 1) others (hreads.tail hread (List.cons_ne_nil d []))
          (by rw [hall, List.append_assoc, List.singleton_append]) hothers hlen'
        rw [Nat.add_lt_add_iff_right]
        rwa [hcount] at hrun
      have hrecalls : start.Recalls all ((t.place, d) :: recent) rest := ⟨hhere, hrecent⟩
      rw [hread, ends_ok]
      -- with fewer than three bytes before it, a byte does not complete a header
      obtain _ | ⟨⟨atC, c⟩, _ | ⟨⟨atB, b⟩, _ | ⟨⟨atA, a⟩, _ | ⟨_, _⟩⟩⟩⟩ := recent
      · exact hgo _ (by simp) hrecalls
      · exact hgo _ (by simp) hrecalls
      · exact hgo _ (by simp) hrecalls
      · obtain ⟨hD, hC, hB, hA, -⟩ := hrecalls
        simp only
        by_cases hvalid : (VisibleHeader.ofBytes a b c d).IsValid
        · have hfound : headerIn (budget + 1 + [(atC, c), (atB, b), (atA, a)].length)
              (window [(atC, c), (atB, b), (atA, a)] (d :: rest)) = some 0 := if_pos hvalid
          rw [if_pos hvalid, hfound]
          exact ⟨hd.medium, hd.isFramed, atA, rfl, hA⟩
        · -- the oldest byte is given up, and with it the first byte of the window
          have hfound : headerIn (budget + 1 + [(atC, c), (atB, b), (atA, a)].length)
              (window [(atC, c), (atB, b), (atA, a)] (d :: rest)) =
              (headerIn (budget + 3) (b :: c :: d :: rest)).map (· + 1) := if_neg hvalid
          rw [if_neg hvalid, hfound]
          exact (hgo [(t.place, d), (atC, c), (atB, b)] (Nat.le_refl 3) ⟨hD, hC, hB, trivial⟩).cons a
      · simp only [List.length_cons] at hlen
        omega

/-- **The first header within the window is found**, and its place is the one that the track has
when it is read up to there. -/
theorem Delivers.ends_searchWindow (h : t.Delivers m framed ⟨bytes, ending⟩) (limit : Nat) :
    Ends
      (fun p t' => t.place.Reaches p ∧ ∃ i, headerIn (VisibleHeader.window limit) bytes = some i ∧
        t.HasPlace bytes p (bytes.drop i) ∧ m.feedAt framed p = .ok ⟨bytes.drop i, ending⟩ ∧
        t'.Delivers m framed ⟨bytes.drop i, ending⟩)
      (fun e _ => headerIn (VisibleHeader.window limit) bytes = none ∧
        e = missed limit t.tell ⟨bytes, ending⟩)
      (searchWindow limit t) := by
  unfold searchWindow
  rw [ends_bind, ends_get, ends_bind, ends_liftIo]
  have hsearch := h.ends_searchVisible (VisibleHeader.window limit) 0 [] (.refl t)
    (List.nil_append bytes).symm trivial (Nat.zero_le 3)
  have hwindow : window [] bytes = bytes := rfl
  rw [hwindow, List.length_nil, Nat.add_zero] at hsearch
  refine hsearch.mono ?_ ?_
  · rintro found t' ⟨hm, hf, hfound⟩
    cases hheader : headerIn (VisibleHeader.window limit) bytes with
    | some i =>
      rw [hheader] at hfound
      obtain ⟨p, rfl, hplace⟩ := hfound
      obtain ⟨got, u, hreads, hbytes, rfl⟩ := id hplace
      obtain ⟨rest, hrest, hu⟩ := h.of_reads hreads
      obtain rfl : bytes.drop i = rest := List.append_cancel_left (hbytes.symm.trans hrest)
      have hne : bytes.drop i ≠ [] := Feed.Opens.bytes_ne_nil (F := ⟨bytes.drop i, ending⟩)
        (header_of_headerIn hheader)
      have hfeed := hu.feedAt_place hne
      simp only
      rw [ends_bind]
      refine (ends_moveTo hm hf u.place).mono ?_ ?_
      · rintro _ v ⟨G, hG, hv⟩
        rw [hfeed] at hG
        cases hG
        exact ⟨hreads.reaches, i, rfl, hplace, hfeed, hv⟩
      · rintro e v ⟨herror, -⟩
        rw [hfeed] at herror
        cases herror
    | none =>
      rw [hheader] at hfound
      obtain ⟨rfl, hstop⟩ := hfound
      rw [Nat.zero_add]
      refine ⟨rfl, ?_⟩
      unfold missed
      by_cases hlt : bytes.length < VisibleHeader.window limit
      · obtain ⟨stop, place, rfl⟩ := hstop hlt
        rw [if_pos hlt, Nat.min_eq_right (by omega)]
      · rw [if_neg hlt, Nat.min_eq_left (by omega)]
  · rintro e t' ⟨hnone, rfl, hlt⟩
    rw [missed, if_pos hlt]
    exact ⟨hnone, rfl⟩

/-! ### Memory for the window -/

variable {limit : Nat}

/-- Where there can be memory for the window, it is searched. -/
theorem ends_findVisible {Q : Place → Track → Prop} {E : SearchError → Track → Prop}
    (h : VisibleHeader.WindowFits limit) :
    Ends Q E (findVisible limit t) ↔ Ends Q (fun e => E (.format e)) (searchWindow limit t) := by
  rw [findVisible, if_pos h, ends_adaptExcept]

/-- **Without memory for the window nothing is searched**, and the track is left as it is. -/
theorem findVisible_of_not_fits (h : ¬ VisibleHeader.WindowFits limit) (t : Track) :
    findVisible limit t = .error (.tooWide limit) t := by
  rw [findVisible, if_neg h]
  rfl

end Track

end WellLog
