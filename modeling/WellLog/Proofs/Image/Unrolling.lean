import WellLog.Proofs.Image.Tape
import WellLog.Proofs.Segmentation.Start
import WellLog.Proofs.Track.Reading
/-!
# Reading a tape image undoes writing it

A tape image is written record by record, with file marks anywhere: in front, behind, side by side.
Reading it in any way, and taking it up again behind every file mark, gives the data between the
file marks, whatever the records are that the data was cut into.

* `Image.unrolls_tape` : **a tape image is read as it was written**, to the last byte, and is
  recognised as a tape image.
-/

namespace WellLog

namespace Image

variable {m : Medium} {parts : List TapePart}

/-- **A tape image is read as it was written.**  Each section in front of a file mark ends there, the
last one ends with the medium, and the image begins with a mark by which it is recognised. -/
theorem unrolls_tape (hfault : m.manner.fault = none) (hparts : parts ≠ [])
    (htape : m.bytes.toList = tape parts) (hsize : m.bytes.size < UInt32.size) :
    m.Unrolls true (.start m.bytes.size) (.start 0) (sections parts) ∧
      ∃ k r, TapeMark.detect (.ofMedium m) = .ok (some k) r := by
  refine ⟨(runsTo_tape hfault htape hsize).unrolls, ?_⟩
  obtain ⟨found, r, hdetect, hfound⟩ := (TapeMark.ends_detect hfault).exists_ok
  obtain ⟨k, rfl⟩ := Option.isSome_iff_exists.1
    (hfound.2 (beginsWithMark hfault htape hsize hparts))
  exact ⟨k, r, hdetect⟩

/-- File marks in front, side by side and behind, and a record that is empty. -/
def sparseTape : List TapePart :=
  [.fileMark, .record [1, 2], .record [], .record [3], .fileMark, .fileMark, .record [4], .fileMark]

theorem unrolls_tape_sparse :
    (Medium.ofBytes (tape sparseTape).toArray).Unrolls true (.start 100) (.start 0)
        [[], [1, 2, 3], [], [4], []] ∧
      ∃ k r, TapeMark.detect (.ofMedium (.ofBytes (tape sparseTape).toArray)) = .ok (some k) r :=
  @unrolls_tape (.ofBytes (tape sparseTape).toArray) sparseTape rfl (by decide)
    (by simp [Medium.ofBytes]) (by decide +kernel)

end Image

end WellLog
