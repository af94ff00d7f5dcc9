import WellLog.Proofs.Record.RoundTrip
import WellLog.Proofs.Segmentation.Twins
/-!
# Tape framing is transparent

A physical file can be written to a tape in records of any lengths, none of which means anything.
Whatever the bytes are, the logical files of the tape image are those of the plain file.

* `Segmentation.results_of_framed` : **all calls on a tape image return what they return on the plain
  file**.
-/

namespace WellLog

namespace Segmentation

/-- **Tape framing is transparent.**  The bytes of a physical file, which does not look like a tape
image itself, are cut into tape records in any way.  Then every call on the tape image returns what
it returns on the plain file. -/
theorem results_of_framed {plain framed : Medium} {cut : List (List UInt8)}
    (hplain : plain.manner.fault = none) (hframed : framed.manner.fault = none)
    (hcut : plain.bytes.toList = cut.flatten) (hne : cut.flatten ≠ [])
    (htape : framed.bytes.toList = Image.tape (cut.map .record))
    (hsize : framed.bytes.size < UInt32.size) (settings : LoadSettings) (registry : Registry)
    (j j' : Journalled Unit) :
    Agree
      (fun s k s' k' => s.framed = false →
        s'.framed = true ∧ ∀ n, CallAlike (result ⟨s, k.notes⟩ n) (result ⟨s', k'.notes⟩ n))
      (fun _ _ _ _ => False)
      (start (.ofMedium plain) settings registry j)
      (start (.ofMedium framed) settings registry j') := by
  refine agree_of_ends (ends_start hplain settings registry j)
    (ends_start hframed settings registry j') ?_ (fun _ _ _ _ => False.elim)
    (fun _ _ _ _ _ => id) fun _ _ _ _ h _ => h
  rintro s k s' k' ⟨hs, -⟩ ⟨hs', hmark⟩ hunframed
  have hcons : cut.map Image.TapePart.record ≠ [] := by
    rintro hnil
    rw [List.map_eq_nil_iff.1 hnil] at hne
    exact hne rfl
  have hs'framed : s'.framed = true := hmark.2 (Image.beginsWithMark hframed htape hsize hcons)
  have habreast : Abreast plain false framed true (.start 0) (.start 0) := by
    refine ⟨[cut.flatten], ?_, ?_⟩
    · rw [← hcut]
      exact Medium.carries_plain hplain (Nat.zero_le _)
    · rw [← Image.sections_map_record]
      exact Image.carries_tape hframed htape hsize
  rw [hunframed] at hs
  rw [hs'framed] at hs'
  have halike : Alike plain false framed true (Journalled.mk s k.notes).state
      (Journalled.mk s' k'.notes).state := by
    rw [hs, hs']
    exact ⟨rfl, rfl, rfl, rfl, rfl, rfl, rfl, rfl, rfl, fun _ => habreast⟩
  refine ⟨hs'framed, fun n => halike.results ?_ ?_ n⟩
  · rw [hs]
    exact nofun
  · rw [hs']
    exact fun _ _ => .inl rfl

/-- Visible records in memory. -/
def plainMedium : Medium := .ofBytes (pack LogicalStream.cutInTrailer).toArray

/-- The same bytes in tape records, which are cut inside the header of a visible record. -/
def cutInHeader : List (List UInt8) :=
  [(pack LogicalStream.cutInTrailer).take 2, [], (pack LogicalStream.cutInTrailer).drop 2]

/-- The tape image. -/
def tapeMedium : Medium := .ofBytes (Image.tape (cutInHeader.map .record)).toArray

theorem results_of_framed_cutInHeader :
    Agree
      (fun s k s' k' => s.framed = false ∧ s'.framed = true ∧
        ∀ n, CallAlike (result ⟨s, k.notes⟩ n) (result ⟨s', k'.notes⟩ n))
      (fun _ _ _ _ => False)
      (start (.ofMedium plainMedium) {} .empty ⟨(), #[]⟩)
      (start (.ofMedium tapeMedium) {} .empty ⟨(), #[]⟩) := by
  have hcut : plainMedium.bytes.toList = cutInHeader.flatten := by
    simp [plainMedium, Medium.ofBytes, cutInHeader]
  have hunframed : ¬ plainMedium.BeginsWithMark := by
    rintro ⟨k, hk, hfits⟩
    have hmark : plainMedium.markAt 0 = .ok (some ⟨0x01FF1500, 0x03A71300, 0x04030201⟩) := by decide
    rw [hmark] at hk
    cases hk
    revert hfits
    decide
  have hstart := ends_start (m := plainMedium) rfl {} .empty ⟨(), #[]⟩
  refine ((results_of_framed rfl rfl hcut (by decide) (by simp [tapeMedium, Medium.ofBytes])
    (by decide) {} .empty ⟨(), #[]⟩ ⟨(), #[]⟩).and_ends hstart (Ends.trivial _)).mono ?_ ?_
  · rintro s k s' k' ⟨h, ⟨-, hmark⟩, -⟩
    have hfalse : s.framed = false := Bool.eq_false_iff.2 fun htrue => hunframed (hmark.1 htrue)
    exact ⟨hfalse, h hfalse⟩
  · rintro e k e' k' ⟨h, -⟩
    exact h

end Segmentation

end WellLog
