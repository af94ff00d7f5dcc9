import WellLog.Proofs.Image.Tape
import WellLog.Segmentation
/-!
# The start of a segmentation

A physical file is a tape image if it begins with a tape mark that can stand there.  A file without
faults can always be begun.

* `Segmentation.ends_start` : **what a segmentation begins with**.
-/

namespace WellLog

/-- A medium that begins with a tape mark. -/
def Medium.BeginsWithMark (m : Medium) : Prop := ∃ k, m.markAt 0 = .ok (some k) ∧ k.Fits 0

/-- The source whose readers all read a medium from its start. -/
def Source.ofMedium (m : Medium) : Source := ⟨m.bytes, fun _ => .ok m.manner⟩

/-- The image can always be opened and read to its end, in whatever pieces. -/
def Source.Faultless (s : Source) : Prop := ∀ n, ∃ manner, s.manner n = .ok manner ∧ manner.fault = none

variable {m : Medium}

/-- **The mark at the start of a medium is found** if there is one. -/
theorem TapeMark.ends_detect (h : m.manner.fault = none) :
    Ends (fun found _ => found.isSome = true ↔ m.BeginsWithMark) (fun _ _ => False)
      (detect (.ofMedium m)) := by
  unfold detect
  rw [ends_bind, ends_get, ends_bind, ends_attempt]
  refine (ends_read (Reader.at_ofMedium m)).mono ?_ ?_
  · rintro found r ⟨hmark, -⟩
    rw [ends_bind, ends_modify]
    cases found with
    | none =>
      refine ⟨nofun, ?_⟩
      rintro ⟨k, hk, -⟩
      rw [hmark] at hk
      cases hk
    | some k =>
      simp only
      split
      · rename_i hfits
        exact ⟨fun _ => ⟨k, hmark, hfits⟩, fun _ => rfl⟩
      · rename_i hmisfit
        refine ⟨nofun, ?_⟩
        rintro ⟨k', hk', hfits⟩
        rw [hmark] at hk'
        cases hk'
        exact absurd hfits hmisfit
  · rintro e r ⟨hmark, -⟩
    obtain ⟨found, hfound⟩ | ⟨n, hcut⟩ := Medium.markAt_of_faultless h 0
    · rw [hfound] at hmark
      cases hmark
    · rw [hcut] at hmark
      cases hmark
      rw [ends_bind, ends_modify]
      refine ⟨nofun, ?_⟩
      rintro ⟨k, hk, -⟩
      rw [hcut] at hk
      cases hk

/-- A tape image begins with the mark of its first part. -/
theorem Image.beginsWithMark {parts : List TapePart} (hfault : m.manner.fault = none)
    (htape : m.bytes.toList = tape parts) (hsize : m.bytes.size < UInt32.size)
    (hne : parts ≠ []) : m.BeginsWithMark := by
  obtain ⟨part, others, rfl⟩ := List.exists_cons_of_ne_nil hne
  have hpart : PartAt m part others 0 0 := ⟨hfault, htape, hsize, rfl⟩
  exact ⟨_, hpart.markAt, hpart.fits⟩

namespace Segmentation

/-- A segmentation of a source whose first reader does not fail. -/
theorem ends_start_of_manner {source : Source} {manner : Manner} (hmanner : source.manner 0 = .ok manner)
    (h : manner.fault = none) (settings : LoadSettings) (registry : Registry) (j : Journalled Unit) :
    Ends
      (fun s _ => s = ⟨source, 1, settings, registry, s.framed, .start 0, none, 0, false⟩ ∧
        (s.framed = true ↔ (⟨source.image, manner⟩ : Medium).BeginsWithMark))
      (fun _ _ => False) (start source settings registry j) := by
  have hdetect := TapeMark.ends_detect (m := ⟨source.image, manner⟩) h
  unfold start
  have hreader : source.reader 0 = .ok (.ofMedium ⟨source.image, manner⟩) := by
    rw [Source.reader, hmanner]
    rfl
  rw [hreader]
  simp only
  cases hrun : TapeMark.detect (.ofMedium ⟨source.image, manner⟩) with
  | error e r =>
    rw [hrun] at hdetect
    exact hdetect.elim
  | ok mark r =>
    rw [hrun] at hdetect
    exact ⟨rfl, hdetect⟩

/-- **A segmentation begins at the start**, and takes a medium for a tape image if it begins with a
tape mark. -/
theorem ends_start (h : m.manner.fault = none) (settings : LoadSettings) (registry : Registry)
    (j : Journalled Unit) :
    Ends
      (fun s _ => s = ⟨.ofMedium m, 1, settings, registry, s.framed, .start 0, none, 0, false⟩ ∧
        (s.framed = true ↔ m.BeginsWithMark))
      (fun _ _ => False) (start (.ofMedium m) settings registry j) :=
  ends_start_of_manner rfl h settings registry j

end Segmentation

end WellLog
