import WellLog.Proofs.LogicalFile.Layout
import WellLog.Proofs.Segmentation.Start
import WellLog.Proofs.Segmentation.Steps
/-!
# Physical files as they are written

A `SectionLayout` is what is written between two file marks: logical files, back to back, with a
storage unit label in front of them or not.  A physical file is one section, or a tape image with
any number of sections, whose data is cut into tape records anywhere.

* `SectionLayout.labelled` : the logical files, each with the label that is in force.
* `Medium.Written.carries` : **a medium carries the sections that are written on it**.
-/

namespace WellLog

/-- A storage unit label as it is written. -/
structure LabelLayout where
  /-- The bytes. -/
  bytes : List UInt8
  /-- There are as many as a label has. -/
  length_eq : bytes.length = StorageLabel.size
  /-- They look like a label. -/
  looksLike : StorageLabel.looksLike bytes = true

namespace LabelLayout

variable (l : LabelLayout) (rest : List UInt8)

/-- The label that is read. -/
def label : StorageLabel := .ofBytes l.bytes

theorem take_append : (l.bytes ++ rest).take StorageLabel.size = l.bytes :=
  List.take_left' l.length_eq

theorem size_le_length_append : StorageLabel.size ≤ (l.bytes ++ rest).length := by
  rw [List.length_append, l.length_eq]
  exact Nat.le_add_right _ _

/-- A label is found. -/
theorem probe_append : StorageLabel.probe (l.bytes ++ rest) = .found l.label := by
  rw [StorageLabel.probe, l.take_append, if_pos l.looksLike, if_pos (l.size_le_length_append rest),
    label]

theorem behind_append : StorageLabel.behind (l.bytes ++ rest) = rest := by
  rw [StorageLabel.behind, l.take_append, if_pos ⟨l.looksLike, l.size_le_length_append rest⟩]
  exact List.drop_left' l.length_eq

/-- The first bytes of a label are the sequence number, and the version begins behind them. -/
theorem exists_bytes : ∃ a b c d e others,
    l.bytes = a :: b :: c :: d :: 0x56 :: 0x31 :: 0x2E :: e :: others := by
  have hlooks := l.looksLike
  rw [StorageLabel.looksLike, Bool.and_eq_true, Bool.and_eq_true, beq_iff_eq] at hlooks
  have hversion := hlooks.1.2
  have hencoded : Utf8.encode "V1." = [0x56, 0x31, 0x2E] := by decide +kernel
  rw [hencoded] at hversion
  have hlen : 4 + 4 ≤ l.bytes.length := by
    rw [l.length_eq]
    decide
  obtain ⟨a, b, c, d, behind, hbytes⟩ := exists_four (Nat.le_of_add_right_le hlen)
  obtain ⟨x, y, z, e, others, rfl⟩ : ∃ x y z e others, behind = x :: y :: z :: e :: others := by
    rw [hbytes] at hlen
    exact exists_four (Nat.le_of_add_le_add_right hlen)
  rw [hbytes] at hversion
  simp only [List.drop_succ_cons, List.drop_zero, List.take_succ_cons, List.take_zero,
    List.cons.injEq] at hversion
  obtain ⟨rfl, rfl, rfl, -⟩ := hversion
  exact ⟨a, b, c, d, e, others, hbytes⟩

end LabelLayout

/-- A section as it is written. -/
structure SectionLayout where
  /-- The label in front. -/
  label : Option LabelLayout
  /-- The logical files. -/
  files : List FileLayout
  /-- A label stands in front of logical files. -/
  label_eq_none : files = [] → label = none

namespace SectionLayout

/-- The bytes of the section. -/
def toBytes (s : SectionLayout) : List UInt8 :=
  (s.label.elim [] (·.bytes)) ++ s.files.flatMap (·.toBytes)

/-- A section without files. -/
def empty : SectionLayout := ⟨none, [], fun _ => rfl⟩

/-- The label in force behind the beginning of a section. -/
def latest (old : Option StorageLabel) (s : SectionLayout) : Option StorageLabel :=
  s.label.elim old fun l => some l.label

/-- The logical files of sections, each with the latest label in front of it. -/
def labelled (old : Option StorageLabel) : List SectionLayout → List (Option StorageLabel × FileLayout)
  | [] => []
  | s :: others => s.files.map (s.latest old, ·) ++ labelled (s.latest old) others

/-- The sections behind the first logical file of `s`. -/
def behind (s : SectionLayout) (others : List SectionLayout) : List SectionLayout :=
  match s.files.tail with
  | f :: files => ⟨none, f :: files, nofun⟩ :: others
  | [] => if others = [] then [empty] else others

variable {s : SectionLayout} {others : List SectionLayout} {old : Option StorageLabel}

theorem labelled_of_files_eq_nil (h : s.files = []) :
    labelled old (s :: others) = labelled old others := by
  have hlatest : s.latest old = old := by
    rw [latest, s.label_eq_none h]
    rfl
  rw [labelled, h, hlatest]
  rfl

/-- The first logical file, and those behind it. -/
theorem labelled_of_files_eq_cons {f : FileLayout} {files : List FileLayout}
    (h : s.files = f :: files) :
    labelled old (s :: others) =
      (s.latest old, f) :: labelled (s.latest old) (s.behind others) := by
  have htail : s.files.tail = files := congrArg List.tail h
  rw [labelled, h, List.map_cons, List.cons_append, behind, htail]
  cases files with
  | nil =>
    cases others with
    | nil => rfl
    | cons s' others => rfl
  | cons f' files => rfl

theorem toBytes_of_files_eq_nil (h : s.files = []) : s.toBytes = [] := by
  rw [toBytes, h, s.label_eq_none h]
  rfl

/-- A section with files begins with the label, if there is one, and the first of them. -/
theorem toBytes_of_files_eq_cons {f : FileLayout} {files : List FileLayout}
    (h : s.files = f :: files) :
    s.toBytes = (s.label.elim [] (·.bytes)) ++ (f.toBytes ++ files.flatMap (·.toBytes)) := by
  rw [toBytes, h, List.flatMap_cons]

theorem toBytes_ne_nil {f : FileLayout} {files : List FileLayout} (h : s.files = f :: files) :
    s.toBytes ≠ [] := by
  rw [toBytes_of_files_eq_cons h]
  intro hnil
  exact f.toBytes_append_ne_nil _ (List.append_eq_nil_iff.1 hnil).2

/-- The label in front of a section is found, and no other. -/
theorem latest_toBytes {f : FileLayout} {files : List FileLayout} (h : s.files = f :: files) :
    StorageLabel.latest old s.toBytes = s.latest old := by
  rw [toBytes_of_files_eq_cons h, StorageLabel.latest, latest]
  cases s.label with
  | none => rw [Option.elim_none, List.nil_append, f.probe_eq_missing, Option.elim_none]
  | some l => rw [Option.elim_some, l.probe_append, Option.elim_some]

theorem behind_toBytes {f : FileLayout} {files : List FileLayout} (h : s.files = f :: files) :
    StorageLabel.behind s.toBytes = f.toBytes ++ files.flatMap (·.toBytes) := by
  rw [toBytes_of_files_eq_cons h]
  cases s.label with
  | none => exact f.behind_eq _
  | some l => exact l.behind_append _

end SectionLayout

/-! ### Media -/

/-- The sections are written on the medium: one section as it is, or any number of them as a tape
image, cut into tape records anywhere. -/
inductive Medium.Written (m : Medium) : List SectionLayout → Prop where
  /-- One section as it is. -/
  | plain (s : SectionLayout) (bytes : m.bytes.toList = s.toBytes) : Written m [s]
  /-- A tape image. -/
  | tape {sections : List SectionLayout} (parts : List Image.TapePart)
    (bytes : m.bytes.toList = Image.tape parts) (size : m.bytes.size < UInt32.size)
    (cut : Image.sections parts = sections.map (·.toBytes)) : Written m sections

variable {m : Medium}

theorem Medium.BeginsWithMark.fits (h : m.BeginsWithMark) :
    (TapeMark.ofBytes ((m.bytesFrom 0).take TapeMark.size)).Fits 0 := by
  obtain ⟨k, hk, hfits⟩ := h
  simp only [markAt] at hk
  split at hk
  · cases hk
    exact hfits
  · split at hk
    · cases hk
    · split at hk <;> cases hk

/-- Where a visible record begins, no tape mark stands. -/
theorem not_fits_of_visible {a b : UInt8} {rest : List UInt8} :
    ¬ (TapeMark.ofBytes ((a :: b :: 0xFF :: 0x01 :: rest).take TapeMark.size)).Fits 0 := by
  intro hfits
  have hkind : (TapeMark.ofBytes ((a :: b :: 0xFF :: 0x01 :: rest).take TapeMark.size)).kind =
      UInt32.ofNat (littleEndian [a, b, 0xFF, 0x01]) := by
    simp only [TapeMark.ofBytes, TapeMark.size, List.take_succ_cons, Nat.mul_zero, List.drop_zero,
      List.take_zero]
  have hword := TapeMark.toNat_word a b 0xFF 0x01
  have hmark : 65536 ≤ 65536 * (0xFF : UInt8).toNat := by decide
  rw [← hkind] at hword
  rcases hfits.kind with h | h
  · rw [h, UInt32.toNat_zero] at hword
    omega
  · rw [h, UInt32.toNat_one] at hword
    omega

/-- Where a label begins, no tape mark stands: the version would be the place of the one before. -/
theorem not_fits_of_label {a b c d e : UInt8} {rest : List UInt8} :
    ¬ (TapeMark.ofBytes
      ((a :: b :: c :: d :: 0x56 :: 0x31 :: 0x2E :: e :: rest).take TapeMark.size)).Fits 0 := by
  intro hfits
  have hprevious : (TapeMark.ofBytes ((a :: b :: c :: d :: 0x56 :: 0x31 :: 0x2E :: e :: rest).take
      TapeMark.size)).previous = UInt32.ofNat (littleEndian [0x56, 0x31, 0x2E, e]) := by
    simp only [TapeMark.ofBytes, TapeMark.size, List.take_succ_cons, Nat.mul_one,
      List.drop_succ_cons, List.drop_zero, List.take_zero]
  have hword := TapeMark.toNat_word 0x56 0x31 0x2E e
  have hversion : 0 < (0x56 : UInt8).toNat := by decide
  have hzero := hfits.previous
  rw [if_pos rfl, hprevious, hword] at hzero
  omega

/-- **A section is not mistaken for a tape image.** -/
theorem SectionLayout.not_beginsWithMark {s : SectionLayout} (hfault : m.manner.fault = none)
    (hbytes : m.bytes.toList = s.toBytes) : ¬ m.BeginsWithMark := by
  intro hmark
  have hfits := hmark.fits
  rw [Medium.bytesFrom_of_faultless hfault, hbytes, List.drop_zero] at hfits
  cases hfiles : s.files with
  | nil =>
    rw [toBytes_of_files_eq_nil hfiles] at hfits
    exact absurd hfits (by decide)
  | cons f files =>
    rw [toBytes_of_files_eq_cons hfiles] at hfits
    revert hfits
    cases s.label with
    | none =>
      obtain ⟨a, b, c, d, others, hf⟩ := f.exists_toBytes_append (files.flatMap (·.toBytes))
      rw [Option.elim_none, List.nil_append, hf]
      exact not_fits_of_visible
    | some l =>
      obtain ⟨a, b, c, d, e, others, hl⟩ := l.exists_bytes
      rw [Option.elim_some, hl]
      exact not_fits_of_label

/-- **A medium carries the sections that are written on it.** -/
theorem Medium.Written.carries {sections : List SectionLayout} (h : m.Written sections)
    (hfault : m.manner.fault = none) :
    ∃ framed, (m.BeginsWithMark ↔ framed = true) ∧
      m.Carries framed (.start 0) (sections.map (·.toBytes)) := by
  have hplain : ∀ s : SectionLayout, m.bytes.toList = s.toBytes →
      ∃ framed, (m.BeginsWithMark ↔ framed = true) ∧ m.Carries framed (.start 0) [s.toBytes] := by
    intro s hbytes
    refine ⟨false, ⟨fun hmark => absurd hmark (s.not_beginsWithMark hfault hbytes), nofun⟩, ?_⟩
    rw [← hbytes]
    exact Medium.carries_plain hfault (Nat.zero_le _)
  cases h with
  | plain s hbytes => exact hplain s hbytes
  | tape parts hbytes hsize hcut =>
    by_cases hparts : parts = []
    · -- nothing is written at all
      subst hparts
      rw [← hcut]
      exact hplain .empty hbytes
    · refine ⟨true, ⟨fun _ => rfl, fun _ => Image.beginsWithMark hfault hbytes hsize hparts⟩, ?_⟩
      rw [← hcut]
      exact Image.carries_tape hfault hbytes hsize

end WellLog
