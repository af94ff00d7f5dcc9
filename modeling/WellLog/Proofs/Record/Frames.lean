import WellLog.Proofs.Decode.Spelling
import WellLog.Proofs.Lists
import WellLog.Proofs.Record.Damage
import WellLog.Proofs.Record.Reread
/-!
# Sample records by frame

All records of a logical file are read from one stream, which every read leaves somewhere else.
What is read at an offset does not depend on that: it is what a stream that was just opened has
there (`LogicalStream.recordAt`).  So an index of sample records is a list of offsets, grouped by a
function of the offset.

* `Record.samplesOf_iff` : which records are samples of a frame.
* `FrameIndex.groups_ofList` : the groups of a list.
* `LogicalStream.Tied.ends_readRecord` : **an offset is read as on a stream that was just opened**.
* `LogicalStream.Tied.ends_indexFrames` : **the index groups the offsets that can be read**.
-/

namespace WellLog

open Decode

/-- The record has samples of a frame. -/
structure Record.SamplesOf (r : Record) (frame : Fingerprint) : Prop where
  /-- It does not describe itself. -/
  implicit : r.explicit = false
  /-- It can be read without a key. -/
  clear : r.encrypted = false
  /-- It is of the type of samples. -/
  type : r.type = Record.frameData
  /-- It begins with the name of the frame. -/
  name : ∃ name bytes rest, r.body = bytes ++ rest ∧ Spells objectName bytes name ∧
    frame = .ofName "FRAME" name

namespace Record

variable {r : Record} {frame : Fingerprint}

theorem frame_eq_ok_iff : r.frame = .ok frame ↔
    ∃ name bytes rest, r.body = bytes ++ rest ∧ Spells objectName bytes name ∧
      frame = .ofName "FRAME" name := by
  rw [Record.frame, Cursor.ofList]
  constructor
  · intro h
    cases hrun : objectName ⟨0, r.body⟩ with
    | error d c =>
      rw [hrun] at h
      cases h
    | ok name c =>
      rw [hrun] at h
      cases h
      obtain ⟨bytes, rest, hbody, -, hspells⟩ := SelfContained.exists_spells hrun
      exact ⟨name, bytes, rest, hbody, hspells, rfl⟩
  · rintro ⟨name, bytes, rest, hbody, hspells, rfl⟩
    rw [hbody, hspells 0 rest]

/-- **Which records are samples of a frame.** -/
theorem samplesOf_iff : r.SamplesOf frame ↔ r.isFrameData = true ∧ r.frame = .ok frame := by
  have hkind : r.isFrameData = true ↔
      r.explicit = false ∧ r.encrypted = false ∧ r.type = frameData := by
    rw [isFrameData, Bool.and_eq_true, Bool.and_eq_true, Bool.not_eq_true', Bool.not_eq_true',
      beq_iff_eq, and_assoc]
  rw [hkind, frame_eq_ok_iff]
  exact ⟨fun h => ⟨⟨h.implicit, h.clear, h.type⟩, h.name⟩, fun h => ⟨h.1.1, h.1.2.1, h.1.2.2, h.2⟩⟩

instance : Decidable (r.SamplesOf frame) := decidable_of_iff _ samplesOf_iff.symm

end Record

namespace LogicalStream

/-- The record at an offset of a stream, if one can be read there. -/
def recordAt (s : LogicalStream) (offset : Nat) : Option Record :=
  match readRecord offset ⟨s, #[]⟩ with
  | .ok record _ => some record
  | .error _ _ => none

/-- There are samples of a frame at an offset of a stream. -/
def HasSamples (s : LogicalStream) (frame : Fingerprint) (offset : Nat) : Prop :=
  ∃ record, s.recordAt offset = some record ∧ record.SamplesOf frame

/-- The frame whose samples are at an offset of a stream. -/
def sampled (s : LogicalStream) (offset : Nat) : Option Fingerprint :=
  (s.recordAt offset).bind fun record => if record.isFrameData then record.frame.toOption else none

theorem hasSamples_iff {s : LogicalStream} {frame : Fingerprint} {offset : Nat} :
    s.HasSamples frame offset ↔ s.sampled offset = some frame := by
  simp only [HasSamples, sampled, Option.bind_eq_some_iff, Record.samplesOf_iff]
  refine exists_congr fun record => and_congr_right fun _ => ?_
  cases record.isFrameData with
  | false => simp
  | true => cases record.frame <;> simp [Except.toOption]

instance (s : LogicalStream) (frame : Fingerprint) : DecidablePred (s.HasSamples frame) :=
  fun _ => decidable_of_iff _ hasSamples_iff.symm

end LogicalStream

namespace FrameIndex

/-- The index has those of some offsets at which a stream has samples, by their frames. -/
structure Groups (s : LogicalStream) (offsets : List Nat) (index : FrameIndex) : Prop where
  /-- The offsets of a frame are those where its samples are, in the order given. -/
  offsets_eq : ∀ frame, index.offsets frame = offsets.filter fun k => s.HasSamples frame k
  /-- No frame has two entries. -/
  nodup : (index.map (·.1)).Nodup
  /-- An entry has the offsets of its frame, of which there are some. -/
  entry : ∀ e ∈ index, e.2 = index.offsets e.1 ∧ e.2 ≠ []
  /-- No offset is in two entries. -/
  disjoint : ∀ e ∈ index, ∀ e' ∈ index, ∀ k ∈ e.2, k ∈ e'.2 → e = e'

variable {found : List (Fingerprint × Nat)} {frame : Fingerprint}

theorem offsets_ofList : (ofList found).offsets frame = (found.filter (·.1 == frame)).map (·.2) := by
  rw [offsets, ofList, List.find?_map]
  cases hfind : (found.map (·.1)).eraseDups.find? _ with
  | none =>
    -- no entry, so nothing was found
    have hnone : found.filter (·.1 == frame) = [] := by
      refine List.filter_eq_nil_iff.2 fun p hp hframe => ?_
      have hmem : p.1 ∈ (found.map (·.1)).eraseDups :=
        List.mem_eraseDups.2 (List.mem_map_of_mem hp)
      exact List.find?_eq_none.1 hfind p.1 hmem hframe
    rw [hnone]
    rfl
  | some frame' =>
    obtain rfl : frame' = frame := beq_iff_eq.1 (List.find?_some hfind :)
    rfl

theorem map_fst_ofList : (ofList found).map (·.1) = (found.map (·.1)).eraseDups := by
  rw [ofList, List.map_map]
  exact List.map_id _

/-- **The groups of a list.** -/
theorem groups_ofList {s : LogicalStream} {offsets : List Nat} :
    (ofList (offsets.filterMap fun k => (s.sampled k).map (·, k))).Groups s offsets := by
  set found := offsets.filterMap fun k => (s.sampled k).map (·, k) with hfound
  have hoffsets (frame : Fingerprint) :
      (ofList found).offsets frame = offsets.filter fun k => s.HasSamples frame k := by
    rw [offsets_ofList, hfound, List.filter_filterMap, List.map_filterMap,
      ← List.filterMap_eq_filter]
    refine List.filterMap_congr fun k _ => ?_
    simp only [LogicalStream.hasSamples_iff, Option.guard]
    cases s.sampled k with
    | none => rfl
    | some frame' =>
      by_cases hframe : frame' = frame
      · simp [hframe]
      · simp [hframe]
  have hnodup : ((ofList found).map (·.1)).Nodup := by
    rw [map_fst_ofList]
    exact nodup_eraseDups _
  have hentry : ∀ e ∈ ofList found, e.2 = (ofList found).offsets e.1 ∧ e.2 ≠ [] := by
    intro e he
    obtain ⟨frame, hframe, rfl⟩ := List.mem_map.1 he
    obtain ⟨p, hp, rfl⟩ := List.mem_map.1 (List.mem_eraseDups.1 hframe)
    have hmem : p ∈ found.filter (·.1 == p.1) := List.mem_filter.2 ⟨hp, beq_self_eq_true p.1⟩
    exact ⟨offsets_ofList.symm, List.ne_nil_of_mem (List.mem_map_of_mem hmem)⟩
  refine ⟨hoffsets, hnodup, hentry, fun e he e' he' k hk hk' => ?_⟩
  -- the offset has samples of both frames, and there is one entry for a frame
  rw [(hentry e he).1, hoffsets, List.mem_filter, decide_eq_true_iff,
    LogicalStream.hasSamples_iff] at hk
  rw [(hentry e' he').1, hoffsets, List.mem_filter, decide_eq_true_iff,
    LogicalStream.hasSamples_iff] at hk'
  exact List.inj_on_of_nodup_map hnodup he he' (Option.some.inj (hk.2.symm.trans hk'.2))

end FrameIndex

/-! ### What is read at an offset -/

namespace LogicalStream

variable {O O' : Origin} {s s' : LogicalStream} {j : Journalled LogicalStream}

section

variable (hF : O.feed.Alike O'.feed) (hopens : O.feed.Opens)
include hF hopens

/-- **An offset is read as on a stream that was just opened**, wherever the stream is. -/
theorem Tied.ends_readRecord (h : Tied O O' s j.state) (offset : Nat) :
    Ends (fun record j' => s.recordAt offset = some record ∧ Tied O O' s j'.state)
      (fun _ j' => s.recordAt offset = none ∧ Tied O O' s j'.state) (readRecord offset j) := by
  have hagree := Tied.agree_readRecord (j := ⟨s, #[]⟩) hF h hopens offset
  refine hagree.ends_right.mono ?_ ?_
  · rintro record j' ⟨_, _, hrun, rfl, htied⟩
    rw [recordAt, hrun]
    exact ⟨rfl, h.left, htied.right⟩
  · rintro e j' ⟨_, _, hrun, -, htied⟩
    rw [recordAt, hrun]
    exact ⟨rfl, h.left, htied.right⟩

/-- Streams with the same contents have the same records. -/
theorem Tied.recordAt_eq (h : Tied O O' s s') : s'.recordAt = s.recordAt := by
  funext offset
  have hrun := Tied.ends_readRecord (j := ⟨s', #[]⟩) hF hopens h offset
  rw [recordAt]
  cases hread : readRecord offset ⟨s', #[]⟩ with
  | ok record j' =>
    rw [hread] at hrun
    exact hrun.1.symm
  | error e j' =>
    rw [hread] at hrun
    exact hrun.1.symm

theorem Tied.sampled_eq (h : Tied O O' s s') : s'.sampled = s.sampled := by
  funext offset
  rw [sampled, sampled, h.recordAt_eq hF hopens]

/-- Records that are there can be read one after the other. -/
theorem Tied.ends_readRecords (h : Tied O O' s j.state) {offsets : List Nat}
    (hoffsets : ∀ offset ∈ offsets, (s.recordAt offset).isSome) :
    Ends (fun records j' => records.map some = offsets.map s.recordAt ∧ Tied O O' s j'.state)
      (fun _ _ => False) (offsets.mapM readRecord j) := by
  induction offsets generalizing j with
  | nil => exact ⟨rfl, h⟩
  | cons offset offsets ih =>
    obtain ⟨hfirst, hothers⟩ := List.forall_mem_cons.1 hoffsets
    rw [List.mapM_cons, ends_bind]
    refine (h.ends_readRecord hF hopens offset).mono ?_ ?_
    · rintro record j₁ ⟨hrecord, h₁⟩
      rw [ends_bind]
      refine (ih h₁ hothers).mono ?_ fun _ _ => id
      rintro records j₂ ⟨hrecords, h₂⟩
      rw [ends_pure, List.map_cons, List.map_cons, hrecords, hrecord]
      exact ⟨rfl, h₂⟩
    · rintro e j₁ ⟨hnone, -⟩
      rw [hnone] at hfirst
      cases hfirst

variable (hfault : O'.medium.manner.fault = none)
include hfault

theorem Tied.ends_readIntact (h : Tied O O' s j.state) (offset : Nat) (what : String) :
    Ends (fun found j' => found = s.recordAt offset ∧ Tied O O' s j'.state) (fun _ _ => False)
      (readIntact offset what j) := by
  unfold readIntact
  rw [ends_bind, ends_attempt]
  have hblame := h.right.ends_readRecord_spoilt hfault (hF.opens hopens) offset
  refine ((h.ends_readRecord hF hopens offset).and hblame).mono ?_ ?_
  · exact fun record j' ⟨⟨hrecord, hj'⟩, _⟩ => ⟨hrecord.symm, hj'⟩
  · rintro e j' ⟨⟨hnone, hj'⟩, hstructural, -⟩
    simp only [hstructural, if_true]
    exact ⟨hnone.symm, hj'⟩

theorem Tied.ends_frameAt (h : Tied O O' s j.state) (offset : Nat) :
    Ends (fun frame j' => frame = s.sampled offset ∧ Tied O O' s j'.state) (fun _ _ => False)
      (frameAt offset j) := by
  unfold frameAt
  rw [ends_bind]
  refine (h.ends_readIntact hF hopens hfault offset _).mono ?_ fun _ _ => id
  rintro found j' ⟨rfl, hj'⟩
  rw [sampled]
  cases s.recordAt offset with
  | none => exact ⟨rfl, hj'⟩
  | some record =>
    simp only [Option.bind_some]
    cases record.isFrameData with
    | false => exact ⟨rfl, hj'⟩
    | true =>
      cases record.frame with
      | ok frame => exact ⟨rfl, hj'⟩
      | error d => exact ⟨rfl, hj'⟩

/-- **The index groups the offsets that can be read**, and the others do no harm. -/
theorem Tied.ends_indexFrames (h : Tied O O' s j.state) (offsets : List Nat) :
    Ends
      (fun index j' => index = FrameIndex.ofList
          (offsets.filterMap fun k => (s.sampled k).map (·, k)) ∧ Tied O O' s j'.state)
      (fun _ _ => False) (indexFrames offsets j) := by
  unfold indexFrames
  rw [ends_bind, ← List.map_id offsets]
  refine ends_filterMapM (g := fun k => (s.sampled k).map (·, k))
    (I := fun j => Tied O O' s j.state) ?_ h ?_
  · intro offset _ j hj
    rw [ends_bind]
    refine (hj.ends_frameAt hF hopens hfault offset).mono ?_ fun _ _ => id
    rintro frame j' ⟨rfl, hj'⟩
    exact ⟨rfl, hj'⟩
  · intro j' hj'
    rw [ends_bind, ends_note, ends_pure, List.map_id]
    exact ⟨rfl, hj'⟩

end

end LogicalStream

end WellLog
