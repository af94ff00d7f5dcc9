import WellLog.Proofs.Segmentation.Beside
import WellLog.Proofs.Segmentation.Framing
/-!
# Segmentations of the same image

What a physical file is split into depends on its bytes.  It does not depend on the pieces in which
they are read, and a medium that refuses at some point does not make it anything else: the call that
meets the refusal fails.

* `LogicalFile.Same f f'`, `LogicalFile.ReadsSame f f'` : logical files that nobody can tell apart,
  by what they hold and by what is read through them.
* `Segmentation.results_of_pieces` : **the pieces do not matter**, whatever the bytes are.
* `Segmentation.results_of_refusal` : **up to the first refusal, a medium that refuses leads to what
  one that does not refuse leads to**, and behind it nothing follows.
-/

namespace WellLog

theorem LoadError.not_of {H : IoError → Prop} (hH : ∀ e, ¬ H e) (e : LoadError) : ¬ e.Of H := by
  obtain e | (_ | e) | _ := e
  · exact hH e
  · exact id
  · exact hH e
  · exact id

/-- The medium refused, and the data is not to blame. -/
def IoError.IsRefusal (e : IoError) : Prop := (FormatError.io e).isStructural = false

namespace LogicalFile

/-- Logical files with the same contents. -/
structure Same (f f' : LogicalFile) : Prop where
  /-- The place of the first visible record. -/
  place : f'.place = f.place
  /-- The label. -/
  label : f'.label = f.label
  /-- The objects. -/
  pool : f'.pool = f.pool
  /-- The sample records by frame. -/
  frames : f'.frames = f.frames
  /-- Whether the file ends in bytes that are no record. -/
  broken : f'.broken = f.broken

/-- The sample records of frames, one after the other.  Whatever fails, the next ones are still
read. -/
def readFrames (frames : List Fingerprint) :
    Logged LoadError LogicalFile (List (Except LoadError (List Record))) :=
  frames.mapM fun frame => attempt (frameRecords frame)

/-- The same sample records are read, or reading them fails in the same way. -/
def ReadsSame (f f' : LogicalFile) : Prop :=
  ∀ frames notes notes', Agree (fun records _ records' _ => records' = records)
    (fun e _ e' _ => e' = e) (readFrames frames ⟨f, notes⟩) (readFrames frames ⟨f', notes'⟩)

variable {H H' : IoError → Prop} {f f' g : LogicalFile}

theorem Beside.same (h : f.Beside H g) (h' : f'.Beside H' g) : f.Same f' := by
  obtain ⟨s, ⟨t, ht, rfl⟩, rfl⟩ := h
  obtain ⟨s', ⟨t', ht', rfl⟩, hg⟩ := h'
  obtain ⟨stream, label, pool, frames, broken⟩ := f
  obtain ⟨stream', label', pool', frames', broken'⟩ := f'
  simp only [mk.injEq, LogicalStream.mk.injEq] at hg
  obtain ⟨⟨-, horigin, -⟩, hlabel, hpool, hframes, hbroken⟩ := hg
  exact ⟨horigin.symm, hlabel.symm, hpool.symm, hframes.symm, hbroken.symm⟩

/-- Without refusals, reading through files that are beside each other is the same. -/
theorem Beside.agree_readFrames (h : f.Beside H g) (hH : ∀ e, ¬ H e) (frames : List Fingerprint)
    (notes notes' : Array Note) :
    Agree (fun records _ records' _ => records = records') (fun e _ e' _ => e' = e)
      (readFrames frames ⟨f, notes⟩) (readFrames frames ⟨g, notes'⟩) := by
  have hload := LoadError.not_of hH
  have hmirrors : Mirrors (LoadError.Of H) (Noted (Beside H)) Eq (readFrames frames)
      (readFrames frames) := .mapM (fun frame => (mirrors_frameRecords frame).attempt hload) frames
  exact ((hmirrors ⟨f, notes⟩ ⟨g, notes'⟩ h).agree hload).mono (fun _ _ _ _ ha => ha.1)
    fun _ _ _ _ he => he.1

theorem Beside.readsSame (h : f.Beside H g) (h' : f'.Beside H' g) (hH : ∀ e, ¬ H e)
    (hH' : ∀ e, ¬ H' e) : f.ReadsSame f' := by
  intro frames notes notes'
  have hleft := h.agree_readFrames hH frames notes #[]
  have hright := h'.agree_readFrames hH' frames notes' #[]
  refine (hleft.through hright).mono ?_ ?_
  · rintro records t records' t' ⟨_, -, rfl, rfl⟩
    rfl
  · rintro e t e' t' ⟨_, -, rfl, rfl⟩
    rfl

end LogicalFile

namespace Segmentation

variable {H H' : IoError → Prop} {source source' : Source}

/-- Segmentations that are beside the same one differ in the source only. -/
theorem Beside.eq {s s' c : Segmentation} (h : s.Beside H c) (h' : s'.Beside H' c) :
    s' = { s with source := s'.source } := by
  obtain ⟨-, rfl⟩ := h
  obtain ⟨-, hc⟩ := h'
  cases s
  cases s'
  simp only [mk.injEq] at hc ⊢
  simp [hc]

theorem failsAs_of_faultless (h : source.Faultless) : source.FailsAs fun _ => False := by
  intro n
  obtain ⟨manner, hmanner, hfault⟩ := h n
  rw [hmanner]
  intro fault hsome
  rw [hfault] at hsome
  cases hsome

theorem relates_mono {V W : LogicalFile → LogicalFile → Prop} {found found' : Option LogicalFile}
    (h : Option.Rel V found found') (hV : ∀ f f', V f f' → W f f') : Option.Rel W found found' := by
  cases h with
  | none => exact .none
  | some hf => exact .some (hV _ _ hf)

/-- Every call of `j` returns what the call of `j'` returns, up to the first refusal, and leads to the
same segmentation of another source.  Behind the refusal there is nothing. -/
def SameCalls (H : IoError → Prop) (V : LogicalFile → LogicalFile → Prop)
    (j j' : Journalled Segmentation) : Prop :=
  ∀ n, (after j' n).state = { (after j n).state with source := (after j' n).state.source } ∧
      Matches (LoadError.Of H) (Option.Rel V) (result j n) (result j' n) ∨
    ∃ i < n, ∃ e, result j i = .error e ∧ e.Of H ∧ result j n = .ok none

/-- The calls of two segmentations that are beside the same one. -/
theorem sameCalls_of_beside (hH : ∀ e, H e → (FormatError.io e).isStructural = false)
    {j j' c : Journalled Segmentation} (h : Noted (Beside H) j c)
    (h' : Noted (Beside fun _ => False) j' c) :
    SameCalls H (fun f f' => ∃ g, f.Beside H g ∧ f'.Beside (fun _ => False) g) j j' := by
  have hnone := LoadError.not_of (H := fun _ => False) fun _ => id
  intro n
  -- `j'` is never refused, so it stays beside `c` for good
  obtain ⟨hstate', hresult'⟩ :=
    (matches_result (fun _ => False.elim) h' n).resolve_right fun ⟨_, _, e, _, he⟩ => hnone e he
  obtain ⟨hstate, hresult⟩ | ⟨i, hi, e, hrefused, he⟩ := matches_result hH h n
  · refine .inl ⟨Beside.eq hstate hstate', (hresult.through hresult' hnone).mono (fun _ => id) ?_⟩
    rintro found found' ⟨g, hfound, hfound'⟩
    cases hfound with
    | none =>
      cases hfound' with
      | none => exact .none
    | some hf =>
      cases hfound' with
      | some hf' => exact .some ⟨_, hf, hf'⟩
  · exact .inr ⟨i, hi, e, hrefused, he, (done_of_result hrefused hi).2⟩

/-- Two sources of the same image, of which only the one on the left may fail. -/
theorem mirror_start (hH : ∀ e, H e → (FormatError.io e).isStructural = false)
    (h : source.FailsAs H) (h' : source'.Faultless) (himage : source'.image = source.image)
    (settings : LoadSettings) (registry : Registry) (j j' : Journalled Unit) :
    Mirror (LoadError.Of H) (fun _ _ => False)
      (fun s k s' k' => s' = { s with source := s'.source } ∧
        SameCalls H (fun f f' => ∃ g, f.Beside H g ∧ f'.Beside (fun _ => False) g) ⟨s, k.notes⟩
          ⟨s', k'.notes⟩)
      (start source settings registry j) (start source' settings registry j') := by
  -- either source is compared with the image read byte by byte
  have hleft := mirrors_start hH h settings registry j ⟨(), #[]⟩ rfl
  have hright := mirrors_start (fun _ => False.elim) (failsAs_of_faultless h') settings registry j'
    ⟨(), #[]⟩ rfl
  obtain ⟨c, kc, hc, -⟩ := (ends_start (m := ⟨source.image, .inBursts 1⟩) rfl settings registry
    ⟨(), #[]⟩).exists_ok
  have hstart : start (.bytewise source.image) settings registry ⟨(), #[]⟩ = .ok c kc := hc
  rw [himage, hstart] at hright
  rw [hstart] at hleft
  obtain ⟨s', k', hs', hbeside', -⟩ := (hright.agree (LoadError.not_of fun _ => id)).exists_ok
  obtain hrefused | hagree := hleft
  · exact .inl hrefused
  · obtain ⟨s, k, hs, hbeside, -⟩ := hagree.exists_ok
    rw [hs, hs']
    have hcalls : SameCalls H (fun f f' => ∃ g, f.Beside H g ∧ f'.Beside (fun _ => False) g)
        ⟨s, k.notes⟩ ⟨s', k'.notes⟩ := sameCalls_of_beside hH (c := ⟨c, #[]⟩) hbeside hbeside'
    exact .inr ⟨hbeside.eq hbeside', hcalls⟩

/-- **The pieces do not matter.**  Two sources of the same image that never fail are segmented in the
same way, whatever the bytes and the settings are: with the same framing, and, call by call, with the
same logical files, the same places to take up and the same failures.  The sample records that are
read through the files are the same as well. -/
theorem results_of_pieces (h : source.Faultless) (h' : source'.Faultless)
    (himage : source'.image = source.image) (settings : LoadSettings) (registry : Registry)
    (j j' : Journalled Unit) :
    Agree
      (fun s k s' k' => s' = { s with source := s'.source } ∧ ∀ n,
        (after ⟨s', k'.notes⟩ n).state =
          { (after ⟨s, k.notes⟩ n).state with source := (after ⟨s', k'.notes⟩ n).state.source } ∧
        Matches (fun _ => False) (Option.Rel fun f f' => f.Same f' ∧ f.ReadsSame f')
          (result ⟨s, k.notes⟩ n) (result ⟨s', k'.notes⟩ n))
      (fun _ _ _ _ => False)
      (start source settings registry j) (start source' settings registry j') := by
  have hnone := LoadError.not_of (H := fun _ => False) fun _ => id
  have hstart := mirror_start (H := fun _ => False) (fun _ => False.elim) (failsAs_of_faultless h) h'
    himage settings registry j j'
  refine (hstart.agree hnone).mono ?_ fun _ _ _ _ he => he.2
  rintro s k s' k' ⟨hs, hcalls⟩
  refine ⟨hs, fun n => ?_⟩
  obtain ⟨hstate, hresult⟩ := (hcalls n).resolve_right fun ⟨_, _, e, _, he, _⟩ => hnone e he
  refine ⟨hstate, hresult.mono hnone fun _ _ hfound => relates_mono hfound ?_⟩
  rintro f f' ⟨g, hf, hf'⟩
  exact ⟨hf.same hf', hf.readsSame hf' (fun _ => id) fun _ => id⟩

/-- The image of `tapeMedium` in pieces, which are larger with every opening. -/
def tapePieces : Source := ⟨tapeMedium.bytes, fun n => .ok (.inBursts (n + 1))⟩

theorem results_of_pieces_tapePieces :
    Agree
      (fun s k s' k' => s' = { s with source := s'.source } ∧ ∀ n,
        (after ⟨s', k'.notes⟩ n).state =
          { (after ⟨s, k.notes⟩ n).state with source := (after ⟨s', k'.notes⟩ n).state.source } ∧
        Matches (fun _ => False) (Option.Rel fun f f' => f.Same f' ∧ f.ReadsSame f')
          (result ⟨s, k.notes⟩ n) (result ⟨s', k'.notes⟩ n))
      (fun _ _ _ _ => False)
      (start (.ofBytes tapeMedium.bytes) {} .empty ⟨(), #[]⟩)
      (start tapePieces {} .empty ⟨(), #[]⟩) := by
  have hmemory : (Source.ofBytes tapeMedium.bytes).Faultless := fun _ => ⟨.plain, rfl, rfl⟩
  have hpieces : tapePieces.Faultless := fun n => ⟨.inBursts (n + 1), rfl, rfl⟩
  exact results_of_pieces hmemory hpieces rfl {} .empty ⟨(), #[]⟩ ⟨(), #[]⟩

/-- **A refusal is never taken for the end of the data.**  A source whose openings and reads may be
refused at any place is segmented as one of the same image that never fails: its start is refused, or
it begins with the same framing; and every call returns the same, or it is refused, or another call
was refused before and nothing follows. -/
theorem results_of_refusal (h : source.FailsAs IoError.IsRefusal) (h' : source'.Faultless)
    (himage : source'.image = source.image) (settings : LoadSettings) (registry : Registry)
    (j j' : Journalled Unit) :
    Mirror (LoadError.Of IoError.IsRefusal) (fun _ _ => False)
      (fun s k s' k' => s' = { s with source := s'.source } ∧
        SameCalls IoError.IsRefusal LogicalFile.Same ⟨s, k.notes⟩ ⟨s', k'.notes⟩)
      (start source settings registry j) (start source' settings registry j') := by
  refine (mirror_start (fun _ => id) h h' himage settings registry j j').mono ?_ fun _ _ => id
  rintro s k s' k' ⟨hs, hcalls⟩
  refine ⟨hs, fun n => (hcalls n).imp_left fun ⟨hstate, hresult⟩ => ⟨hstate, ?_⟩⟩
  refine hresult.mono (fun _ => id) fun _ _ hfound => relates_mono hfound ?_
  rintro f f' ⟨g, hf, hf'⟩
  exact hf.same hf'

/-- The image of `tapeMedium`, of which the bytes from 20 on cannot be read. -/
def tapeDenied : Source :=
  ⟨tapeMedium.bytes, fun _ => .ok (Manner.plain.withFault ⟨20, .medium .permissionDenied "denied"⟩)⟩

theorem results_of_refusal_tapeDenied :
    Mirror (LoadError.Of IoError.IsRefusal) (fun _ _ => False)
      (fun s k s' k' => s' = { s with source := s'.source } ∧
        SameCalls IoError.IsRefusal LogicalFile.Same ⟨s, k.notes⟩ ⟨s', k'.notes⟩)
      (start tapeDenied {} .empty ⟨(), #[]⟩)
      (start (.ofBytes tapeMedium.bytes) {} .empty ⟨(), #[]⟩) := by
  have hdenied : tapeDenied.FailsAs IoError.IsRefusal := by
    rintro n fault ⟨⟩
    exact rfl
  have hmemory : (Source.ofBytes tapeMedium.bytes).Faultless := fun _ => ⟨.plain, rfl, rfl⟩
  exact results_of_refusal hdenied hmemory rfl {} .empty ⟨(), #[]⟩ ⟨(), #[]⟩

end Segmentation

end WellLog
