import WellLog.Proofs.Record.Scan
import WellLog.Proofs.Segment
/-!
# Records as they are written

A `RecordLayout` is a logical record with the segments that it is written in.  `placed k records`
are the records with their offsets, when the first of them is written at `k`.

* `LogicalStream.At.readRecord_layout` : the record at an offset is read as it was written.
* `LogicalStream.At.nextRecord_layout` : the scan passes over exactly this record.
* `LogicalStream.At.ends_collect_layout` : **the scan passes over record after record**, and notes
  where they begin.
-/

namespace WellLog

/-- Every segment but the last says that one follows, and every one but the first that it follows
one. -/
def SegmentLayout.Chain : SegmentLayout → List SegmentLayout → Prop
  | s, [] => s.flags.successor = false
  | s, t :: others => s.flags.successor = true ∧ t.flags.predecessor = true ∧ Chain t others

/-- A logical record as it is written. -/
structure RecordLayout where
  /-- The type. -/
  type : UInt8
  /-- The first segment. -/
  first : SegmentLayout
  /-- The segments behind it. -/
  others : List SegmentLayout
  /-- The first segment follows no other. -/
  predecessor : first.flags.predecessor = false
  /-- The segments are linked. -/
  chain : first.Chain others
  /-- All segments agree on what the record is. -/
  uniform : ∀ s ∈ others, s.flags.explicit = first.flags.explicit ∧
    s.flags.encrypted = first.flags.encrypted

namespace RecordLayout

/-- All segments. -/
def segments (r : RecordLayout) : List SegmentLayout := r.first :: r.others

/-- The record describes itself. -/
def explicit (r : RecordLayout) : Bool := r.first.flags.explicit

/-- The record can open a logical file. -/
def IsHeader (r : RecordLayout) : Prop := r.explicit = true ∧ r.type = Record.fileHeader

instance (r : RecordLayout) : Decidable r.IsHeader := inferInstanceAs (Decidable (_ ∧ _))

/-- The bytes of the record. -/
def toBytes (r : RecordLayout) : List UInt8 := r.segments.flatMap (·.toBytes r.type)

/-- The record at an offset, as it is read. -/
def record (r : RecordLayout) (offset : Nat) : Record :=
  ⟨offset, r.type, r.explicit, r.first.flags.encrypted, r.segments.flatMap (·.data)⟩

/-- The records with their offsets, the first one at `offset`. -/
def placed (offset : Nat) : List RecordLayout → List (Nat × RecordLayout)
  | [] => []
  | r :: others => (offset, r) :: placed (offset + r.toBytes.length) others

/-- The offsets of the records that are explicit, or of those that are not. -/
def offsets (explicit : Bool) (offset : Nat) (records : List RecordLayout) : List Nat :=
  ((placed offset records).filter (·.2.explicit == explicit)).map (·.1)

end RecordLayout

namespace RecordLayout

/-- There are fewer segments than bytes. -/
theorem length_others_lt (r : RecordLayout) : r.others.length < r.toBytes.length :=
  length_le_length_flatMap (SegmentLayout.toBytes_ne_nil r.type) r.segments

theorem toBytes_ne_nil (r : RecordLayout) : r.toBytes ≠ [] :=
  List.ne_nil_of_length_pos (Nat.zero_lt_of_lt r.length_others_lt)

/-- What is read at these offsets. -/
def decoded (explicit : Bool) (offset : Nat) (records : List RecordLayout) : List Record :=
  ((placed offset records).filter (·.2.explicit == explicit)).map fun p => p.2.record p.1

/-- At the offset of a record there are its bytes. -/
theorem drop_of_mem_placed {offset : Nat} {records : List RecordLayout} {p : Nat × RecordLayout}
    (h : p ∈ placed offset records) :
    ∃ before behind, records.flatMap (·.toBytes) = before ++ (p.2.toBytes ++ behind) ∧
      p.1 = offset + before.length := by
  induction records generalizing offset with
  | nil => cases h
  | cons r records ih =>
    rcases List.mem_cons.1 h with rfl | h
    · exact ⟨[], records.flatMap (·.toBytes), List.flatMap_cons, rfl⟩
    · obtain ⟨before, behind, hbytes, hoffset⟩ := ih h
      refine ⟨r.toBytes ++ before, behind, ?_, ?_⟩
      · rw [List.flatMap_cons, hbytes, List.append_assoc]
      · rw [hoffset, List.length_append]
        omega

theorem offsets_cons (explicit : Bool) (offset : Nat) (r : RecordLayout)
    (records : List RecordLayout) :
    offsets explicit offset (r :: records) =
      if r.explicit = explicit then offset :: offsets explicit (offset + r.toBytes.length) records
      else offsets explicit (offset + r.toBytes.length) records := by
  simp only [offsets, placed, List.filter_cons, beq_iff_eq]
  split <;> rfl

/-- Every record is explicit or not. -/
theorem length_offsets_add (offset : Nat) (records : List RecordLayout) :
    (offsets true offset records).length + (offsets false offset records).length =
      records.length := by
  induction records generalizing offset with
  | nil => rfl
  | cons r records ih =>
    have hothers := ih (offset + r.toBytes.length)
    rw [offsets_cons, offsets_cons, List.length_cons]
    cases r.explicit with
    | true =>
      rw [if_pos rfl, if_neg (by decide), List.length_cons]
      omega
    | false =>
      rw [if_neg (by decide), if_pos rfl, List.length_cons]
      omega

end RecordLayout

namespace LogicalStream

variable {m : Medium} {framed : Bool} {F : Feed} {k : Nat} {j : Journalled LogicalStream}

/-- The stream stands in front of some bytes. -/
structure Before (m : Medium) (framed : Bool) (F : Feed) (k : Nat) (bytes : List UInt8)
    (s : LogicalStream) : Prop extends At m framed F k s where
  /-- The bytes are those of the contents. -/
  drop_eq : F.contents.bytes.drop k = bytes

namespace Before

variable {s : LogicalStream} {bytes rest : List UInt8}

theorem length_add_le (h : s.Before m framed F k (bytes ++ rest)) :
    k + bytes.length ≤ F.contents.bytes.length := by
  have hlen := congrArg List.length h.drop_eq
  have hle := h.le_length
  rw [List.length_drop, List.length_append] at hlen
  omega

/-- Behind the bytes, the stream stands in front of the rest. -/
theorem past (h : s.Before m framed F k (bytes ++ rest)) {s' : LogicalStream}
    (hat : s'.At m framed F (k + bytes.length)) :
    s'.Before m framed F (k + bytes.length) rest := by
  refine ⟨hat, ?_⟩
  rw [← List.drop_drop, h.drop_eq, List.drop_left]

end Before

/-! ### Segments -/

variable {type : UInt8} {seg : SegmentLayout} {rest : List UInt8}

theorem Before.readHeader (h : j.state.Before m framed F k (seg.toBytes type ++ rest)) :
    Ends (fun found s' => found = some (seg.header type) ∧
        s'.Before m framed F (k + SegmentHeader.size) (seg.body ++ rest)) (fun _ _ => False)
      (SegmentHeader.read j.state) := by
  refine h.ends_readHeader.mono ?_ fun e s' he => ?_
  · rintro found s' ⟨rfl, hat⟩
    rw [h.drop_eq, seg.take?_toBytes] at hat ⊢
    refine ⟨rfl, hat, ?_⟩
    rw [← List.drop_drop, h.drop_eq, seg.drop_toBytes]
  · rw [h.drop_eq, seg.take?_toBytes] at he
    cases he.1

theorem Before.requireHeader (h : j.state.Before m framed F k (seg.toBytes type ++ rest))
    (offset : Nat) :
    Ends (fun header j' => header = seg.header type ∧
        j'.state.Before m framed F (k + SegmentHeader.size) (seg.body ++ rest)) (fun _ _ => False)
      (requireHeader offset j) := by
  unfold LogicalStream.requireHeader
  rw [ends_bind, ends_liftRead]
  refine h.readHeader.mono ?_ fun _ _ => id
  rintro found s' ⟨rfl, hb⟩
  simp only [seg.check_header]
  exact ⟨rfl, hb⟩

theorem Before.readPayload (h : j.state.Before m framed F k (seg.body ++ rest)) :
    Ends (fun data j' => data = seg.data ∧
        j'.state.Before m framed F (k + seg.body.length) rest) (fun _ _ => False)
      (readPayload (seg.header type) j) := by
  obtain ⟨s', hg, hat⟩ := h.gather_of_le h.length_add_le
  have hbody : (F.contents.bytes.drop k).take seg.body.length = seg.body := by
    rw [h.drop_eq, List.take_left]
  unfold LogicalStream.readPayload
  rw [ends_bind, ends_liftRead, seg.bodyLength_header, hg, ends_ok, hbody,
    if_neg (Nat.lt_irrefl _), seg.payload_body]
  exact ⟨rfl, h.past hat⟩

/-- The segments that follow are read as long as there are any. -/
theorem Before.readSuccessors {others : List SegmentLayout} {most : Nat}
    (h : j.state.Before m framed F k (others.flatMap (·.toBytes type) ++ rest))
    (hchain : seg.Chain others) (hmost : others.length ≤ most) (offset : Nat) :
    Ends (fun data j' => data = others.flatMap (·.data) ∧
        j'.state.Before m framed F (k + (others.flatMap (·.toBytes type)).length) rest)
      (fun _ _ => False) (readSuccessors offset type most (seg.header type) j) := by
  induction most generalizing k j seg others with
  | zero =>
    obtain rfl := List.length_eq_zero_iff.1 (Nat.le_zero.1 hmost)
    exact ⟨rfl, h⟩
  | succ most ih =>
    rw [LogicalStream.readSuccessors]
    cases others with
    | nil =>
      have hlast : (seg.header type).flags.successor = false := hchain
      rw [hlast]
      exact ⟨rfl, h⟩
    | cons t others =>
      obtain ⟨hsucc, -, hrest⟩ := hchain
      have hmore : (seg.header type).flags.successor = true := hsucc
      rw [List.flatMap_cons, List.append_assoc] at h
      rw [hmore, if_neg (by decide), ends_bind]
      refine (h.requireHeader offset).mono ?_ fun _ _ => id
      rintro header j₁ ⟨rfl, h₁⟩
      have htype : ((t.header type).recordType != type) = false := bne_self_eq_false type
      simp only [htype]
      rw [if_neg (by decide), ends_bind]
      refine h₁.readPayload.mono ?_ fun _ _ => id
      rintro data j₂ ⟨rfl, h₂⟩
      rw [ends_bind]
      refine (ih h₂ hrest (Nat.le_of_succ_le_succ hmost)).mono ?_ fun _ _ => id
      rintro more j₃ ⟨rfl, h₃⟩
      refine ⟨rfl, ?_⟩
      rw [List.flatMap_cons, List.length_append, SegmentLayout.length_toBytes, ← Nat.add_assoc,
        ← Nat.add_assoc]
      exact h₃

theorem extent_eq {s : LogicalStream} (h : s.Anchored m framed F) : s.extent = m.bytes.size := by
  rw [extent, h.medium]

/-- There are fewer segments than the medium has bytes. -/
theorem Before.length_others_lt {r : RecordLayout} {s : LogicalStream}
    (h : s.Before m framed F k (r.toBytes ++ rest)) : r.others.length < m.bytes.size := by
  have hlen := h.length_add_le
  have hsize := h.length_contents_le
  have hmany := r.length_others_lt
  omega

/-- **The record at an offset is read as it was written.** -/
theorem Anchored.readRecord_layout (h : j.state.Anchored m framed F) (hF : F.Opens)
    {r : RecordLayout} (hk : k ≤ F.contents.bytes.length)
    (hdrop : F.contents.bytes.drop k = r.toBytes ++ rest) :
    Ends (fun record j' => record = r.record k ∧
        j'.state.Before m framed F (k + r.toBytes.length) rest)
      (fun _ _ => False) (readRecord k j) := by
  obtain ⟨s', hseek, hat⟩ := h.seek_of_le hF hk
  have hb : s'.Before m framed F k (r.toBytes ++ rest) := ⟨hat, hdrop⟩
  have hothers := hb.length_others_lt
  rw [RecordLayout.toBytes, RecordLayout.segments, List.flatMap_cons, List.append_assoc] at hb
  unfold readRecord
  rw [ends_bind, ends_lift, hseek, ends_ok, ends_bind]
  refine (Before.requireHeader (j := ⟨s', j.notes⟩) hb k).mono ?_ fun _ _ => id
  rintro header j₁ ⟨rfl, h₁⟩
  rw [ends_bind]
  refine h₁.readPayload.mono ?_ fun _ _ => id
  rintro data j₂ ⟨rfl, h₂⟩
  rw [ends_bind, ends_state, extent_eq h₂.toAnchored, ends_bind]
  refine (h₂.readSuccessors r.chain (Nat.le_of_lt hothers) k).mono ?_ fun _ _ => id
  rintro more j₃ ⟨rfl, h₃⟩
  refine ⟨rfl, ?_⟩
  rw [RecordLayout.toBytes, RecordLayout.segments, List.flatMap_cons, List.length_append,
    SegmentLayout.length_toBytes, ← Nat.add_assoc, ← Nat.add_assoc]
  exact h₃

/-! ### The scan -/

/-- The segments of a record are passed over. -/
theorem Before.skipSegments {others : List SegmentLayout} {most : Nat}
    (h : j.state.Before m framed F k (seg.body ++ (others.flatMap (·.toBytes type) ++ rest)))
    (hchain : seg.Chain others) (hmost : others.length < most) (offset : Nat) :
    Ends (fun _ j' => j'.state.Before m framed F
        (k + seg.body.length + (others.flatMap (·.toBytes type)).length) rest)
      (fun _ _ => False) (skipSegments offset most (seg.header type) j) := by
  induction most generalizing k j seg others with
  | zero => exact absurd hmost (Nat.not_lt_zero _)
  | succ most ih =>
    obtain ⟨s', hskip, hat⟩ := h.skip_of_le h.length_add_le
    have hb := h.past hat
    rw [LogicalStream.skipSegments, ends_bind, ends_liftRead, seg.bodyLength_header, hskip, ends_ok]
    cases others with
    | nil =>
      have hlast : (seg.header type).flags.successor = false := hchain
      rw [hlast]
      exact hb
    | cons t others =>
      obtain ⟨hsucc, hpred, hrest⟩ := hchain
      have hmore : (seg.header type).flags.successor = true := hsucc
      have hlinked : (t.header type).flags.predecessor = true := hpred
      rw [List.flatMap_cons, List.append_assoc] at hb
      rw [hmore, if_pos rfl, ends_bind]
      refine (Before.requireHeader (j := ⟨s', j.notes⟩) hb offset).mono ?_ fun _ _ => id
      rintro header j₁ ⟨rfl, h₁⟩
      simp only [hlinked]
      rw [if_neg (by decide)]
      refine (ih h₁ hrest (Nat.lt_of_succ_lt_succ hmost)).mono ?_ fun _ _ => id
      intro _ j₂ h₂
      rw [List.flatMap_cons, List.length_append, SegmentLayout.length_toBytes]
      convert h₂ using 1
      omega

/-- In front of a byte, the scan stands in a visible record. -/
theorem Before.fill {bytes : List UInt8} {s : LogicalStream} (h : s.Before m framed F k bytes)
    (hne : bytes ≠ []) :
    Ends (fun b s' => b = true ∧ s'.Before m framed F k bytes ∧ s'.remaining ≠ 0) (fun _ _ => False)
      (fill s) := by
  have hmore : ¬ F.Exhausted k := by
    intro hno
    have hd := h.drop_eq
    rw [hno.eq_length, List.drop_length] at hd
    exact hne hd.symm
  refine h.ends_fill.mono ?_ fun e s' he => hmore he.1
  rintro b s' (⟨rfl, hat, hrem⟩ | ⟨-, hno, -⟩)
  · exact ⟨rfl, ⟨hat, h.drop_eq⟩, hrem⟩
  · exact absurd hno hmore

/-- The scan reads the header of the next record. -/
theorem Before.nextRecord_eq {first : Bool} {r : RecordLayout} {Q : Found → _ → Prop}
    {E : FormatError → _ → Prop} (h : j.state.Before m framed F k (r.toBytes ++ rest))
    (hpass : ∀ s₁ s₂, s₁.Before m framed F k (r.toBytes ++ rest) → s₁.remaining ≠ 0 →
      s₂.Before m framed F (k + SegmentHeader.size)
        (r.first.body ++ (r.others.flatMap (·.toBytes r.type) ++ rest)) →
      Ends Q E (pass s₁ (r.first.header r.type)
        (r.explicit && r.type == Record.fileHeader && !first) ⟨s₂, j.notes⟩)) :
    Ends Q E (nextRecord first j) := by
  unfold LogicalStream.nextRecord
  rw [ends_bind, ends_liftRead]
  refine (h.fill (by simp [r.toBytes_ne_nil])).mono ?_ fun _ _ => False.elim
  rintro b s₁ ⟨rfl, h₁, hrem⟩
  have hbytes : s₁.Before m framed F k (r.first.toBytes r.type ++
      (r.others.flatMap (·.toBytes r.type) ++ rest)) := by
    rw [RecordLayout.toBytes, RecordLayout.segments, List.flatMap_cons, List.append_assoc] at h₁
    exact h₁
  rw [if_neg (by decide), ends_bind, ends_state, ends_bind, ends_liftRead]
  refine (Before.readHeader (j := ⟨s₁, j.notes⟩) hbytes).mono ?_ fun _ _ => False.elim
  rintro found s₂ ⟨rfl, h₂⟩
  have hpred : (r.first.header r.type).flags.predecessor = false := r.predecessor
  simp only [r.first.check_header, hpred]
  exact hpass s₁ s₂ h₁ hrem h₂

/-- A record other than the header of a logical file is passed over.  So is a header that comes
first. -/
theorem Before.nextRecord {first : Bool} {r : RecordLayout}
    (h : j.state.Before m framed F k (r.toBytes ++ rest)) (hr : first = true ∨ ¬ r.IsHeader) :
    Ends (fun found j' => found = .record k r.explicit ∧
        j'.state.Before m framed F (k + r.toBytes.length) rest)
      (fun _ _ => False) (nextRecord first j) := by
  have hopens : (r.explicit && r.type == Record.fileHeader && !first) = false := by
    rcases hr with rfl | hr
    · simp
    · rw [Bool.and_eq_false_iff, Bool.and_eq_false_iff]
      by_contra hne
      simp only [not_or, Bool.not_eq_false, beq_iff_eq] at hne
      exact hr hne.1
  refine h.nextRecord_eq fun s₁ s₂ h₁ _ h₂ => ?_
  rw [hopens, pass, if_neg (by decide), ends_bind, h₁.tell, extent_eq h₁.toAnchored]
  refine (Before.skipSegments (j := ⟨s₂, j.notes⟩) h₂ r.chain h.length_others_lt k).mono ?_
    fun _ _ => id
  intro _ j' h'
  refine ⟨rfl, ?_⟩
  rw [RecordLayout.toBytes, RecordLayout.segments, List.flatMap_cons, List.length_append,
    SegmentLayout.length_toBytes, ← Nat.add_assoc, ← Nat.add_assoc]
  exact h'

/-- The header of another logical file ends the scan where it begins a visible record. -/
theorem Before.nextRecord_of_isHeader {r : RecordLayout}
    (h : j.state.Before m framed F k (r.toBytes ++ rest)) (hr : r.IsHeader)
    (hstart : (F.outlook k).remaining = 0) :
    Ends (fun found j' => ∃ place, found = .boundary place ∧
        m.feedAt framed place = .ok ⟨(F.outlook k).bytes, F.ending⟩ ∧
        j'.state.Anchored m framed F)
      (fun _ _ => False) (LogicalStream.nextRecord false j) := by
  have hopens : (r.explicit && r.type == Record.fileHeader && !false) = true := by
    simp [hr.1, hr.2]
  refine h.nextRecord_eq fun s₁ s₂ h₁ hrem h₂ => ?_
  obtain ⟨place, hvisible, hplace⟩ := h₁.visiblePosition_eq hrem
  rw [hopens, pass, if_pos rfl, hvisible]
  simp only [hstart, decide_true]
  exact ⟨place, rfl, (hplace hstart).1, h₂.toAnchored⟩

/-- At the end of the contents the scan finds nothing. -/
theorem At.nextRecord_of_end {first : Bool} {stop : Stop} {place : Place}
    (h : j.state.At m framed F F.contents.bytes.length)
    (hend : F.contents.ending = .ended stop place) :
    Ends (fun found j' => found = .nothing ∧ j'.state.AtEnd m framed F) (fun _ _ => False)
      (nextRecord first j) := by
  have hfails : ∀ e s', ¬ Fails m framed F e s' := by
    intro e s' he
    have := he.broken
    rw [hend] at this
    cases this
  unfold LogicalStream.nextRecord
  rw [ends_bind, ends_liftRead]
  refine h.ends_fill.mono ?_ fun e s' he => hfails e s' he.2
  rintro b s' (⟨rfl, hat, -⟩ | ⟨rfl, -, hstop⟩)
  · rw [if_neg (by decide), ends_bind, ends_state, ends_bind, ends_liftRead]
    refine hat.ends_readHeader.mono ?_ fun e s' he => hfails e s' (he.2.2 rfl)
    rintro found s'' ⟨rfl, hfound⟩
    rw [List.drop_length] at hfound ⊢
    exact ⟨rfl, hfound.2⟩
  · exact ⟨rfl, hstop⟩

/-- **The scan passes over record after record**, and notes where they begin. -/
theorem Before.ends_collect {records : List RecordLayout} {most : Nat}
    {explicits implicits : Array Nat} {Q : RecordIndex → _ → Prop} {E : FormatError → _ → Prop}
    (h : j.state.Before m framed F k (records.flatMap (·.toBytes) ++ rest))
    (hrecords : explicits.size + implicits.size = 0 ∧ (∀ r ∈ records.tail, ¬ r.IsHeader) ∨
      ∀ r ∈ records, ¬ r.IsHeader)
    (hrest : ∀ j', j'.state.Before m framed F (k + (records.flatMap (·.toBytes)).length) rest →
      Ends Q E (collect most (explicits ++ RecordLayout.offsets true k records)
        (implicits ++ RecordLayout.offsets false k records) j')) :
    Ends Q E (collect (most + records.length) explicits implicits j) := by
  induction records generalizing k j explicits implicits with
  | nil =>
    simpa [RecordLayout.offsets, RecordLayout.placed] using hrest j h
  | cons r records ih =>
    have hfirst : (explicits.size + implicits.size == 0) = true ∨ ¬ r.IsHeader := by
      rcases hrecords with ⟨hz, -⟩ | hr
      · exact .inl (beq_iff_eq.2 hz)
      · exact .inr (hr r List.mem_cons_self)
    have hothers : ∀ r ∈ records, ¬ r.IsHeader := by
      rcases hrecords with ⟨-, hr⟩ | hr
      · exact hr
      · exact fun r h => hr r (List.mem_cons_of_mem _ h)
    rw [List.flatMap_cons, List.append_assoc] at h
    rw [List.length_cons, ← Nat.add_assoc]
    refine ends_collect_succ ((h.nextRecord hfirst).mono ?_ fun _ _ => False.elim)
    rintro found j' ⟨rfl, h'⟩
    refine ih h' (.inr hothers) fun j'' h'' => ?_
    have hj := hrest j'' (by rwa [List.flatMap_cons, List.length_append, ← Nat.add_assoc])
    cases hexplicit : r.explicit <;>
      simpa [RecordLayout.offsets, RecordLayout.placed, pushIf, hexplicit] using hj

/-- There are fewer records than the medium has bytes. -/
theorem Before.length_records_le {records : List RecordLayout} {s : LogicalStream}
    (h : s.Before m framed F k (records.flatMap (·.toBytes) ++ rest)) :
    records.length ≤ m.bytes.size := by
  have hmany : records.length ≤ (records.flatMap (·.toBytes)).length :=
    length_le_length_flatMap RecordLayout.toBytes_ne_nil records
  have hlen := h.length_add_le
  have hsize := h.length_contents_le
  omega

/-- Behind the records of a logical file, the scan takes one more step. -/
theorem Before.ends_findRecords {records : List RecordLayout} {Q : RecordIndex → _ → Prop}
    {E : FormatError → _ → Prop}
    (h : j.state.Before m framed F 0 (records.flatMap (·.toBytes) ++ rest))
    (hrecords : ∀ r ∈ records.tail, ¬ r.IsHeader)
    (hrest : ∀ most j', j'.state.Before m framed F (records.flatMap (·.toBytes)).length rest →
      Ends Q E (collect (most + 1) ((#[] : Array Nat) ++ RecordLayout.offsets true 0 records)
        ((#[] : Array Nat) ++ RecordLayout.offsets false 0 records) j')) :
    Ends Q E (findRecords j) := by
  have hmany := h.length_records_le
  unfold LogicalStream.findRecords
  rw [ends_bind, ends_state, extent_eq h.toAnchored]
  obtain ⟨most, hmost⟩ : ∃ most, m.bytes.size + 1 = most + 1 + records.length :=
    ⟨m.bytes.size - records.length, by omega⟩
  rw [hmost]
  refine h.ends_collect (.inl ⟨rfl, hrecords⟩) fun j' h' => hrest most j' ?_
  rwa [Nat.zero_add] at h'

/-- **The scan of records up to the end** finds all of them. -/
theorem Before.findRecords_of_end {records : List RecordLayout} {stop : Stop} {place : Place}
    (h : j.state.Before m framed F 0 (records.flatMap (·.toBytes)))
    (hrecords : ∀ r ∈ records.tail, ¬ r.IsHeader)
    (hend : F.contents.ending = .ended stop place) :
    Ends (fun index j' => index = ⟨RecordLayout.offsets true 0 records,
          RecordLayout.offsets false 0 records,
          if stop = .fileMark then .fileMark else .mediumEnd, place⟩ ∧
        j'.state.Anchored m framed F)
      (fun _ _ => False) (findRecords j) := by
  rw [← List.append_nil (records.flatMap _)] at h
  have hlast : (records.flatMap (·.toBytes)).length = F.contents.bytes.length := by
    have hlen := congrArg List.length h.drop_eq
    rwa [List.drop_zero, List.append_nil, eq_comm] at hlen
  refine h.ends_findRecords hrecords fun most j' h' => ends_collect_succ ?_
  have hat := h'.toAt
  rw [hlast] at hat
  refine (hat.nextRecord_of_end hend).mono ?_ fun _ _ => False.elim
  rintro found j'' ⟨rfl, hstop⟩
  obtain ⟨stop', hstop', hending⟩ := hstop.stopped
  rw [hend] at hending
  cases hending
  refine ⟨?_, hstop.toAnchored⟩
  simp [hstop']

/-- **The scan of records up to another logical file** finds all of them, and the place where that
file begins. -/
theorem Before.findRecords_of_isHeader {records : List RecordLayout} {r : RecordLayout}
    (h : j.state.Before m framed F 0 (records.flatMap (·.toBytes) ++ (r.toBytes ++ rest)))
    (hrecords : ∀ r ∈ records.tail, ¬ r.IsHeader) (hne : records ≠ []) (hr : r.IsHeader)
    (hstart : (F.outlook (records.flatMap (·.toBytes)).length).remaining = 0) :
    Ends (fun index j' => ∃ place, index = ⟨RecordLayout.offsets true 0 records,
          RecordLayout.offsets false 0 records, .boundary, place⟩ ∧
        m.feedAt framed place =
          .ok ⟨(F.outlook (records.flatMap (·.toBytes)).length).bytes, F.ending⟩ ∧
        j'.state.Anchored m framed F)
      (fun _ _ => False) (findRecords j) := by
  refine h.ends_findRecords hrecords fun most j' h' => ends_collect_succ ?_
  have hcount : (((#[] : Array Nat) ++ RecordLayout.offsets true 0 records).size +
      ((#[] : Array Nat) ++ RecordLayout.offsets false 0 records).size == 0) = false := by
    have hadd := RecordLayout.length_offsets_add 0 records
    have hpos := List.length_pos_iff.2 hne
    simp only [beq_eq_false_iff_ne, ← Array.length_toList, Array.toList_appendList,
      List.length_append]
    omega
  rw [hcount]
  refine (h'.nextRecord_of_isHeader hr hstart).mono ?_ fun _ _ => False.elim
  rintro found j'' ⟨place, rfl, hplace, hj⟩
  exact fun _ => ⟨place, by simp, hplace, hj⟩

end LogicalStream

end WellLog
