import WellLog.Proofs.Record.Reread
/-!
# A scan misses nothing, and what it finds can be read

Which records a scan finds is settled by the contents of the stream: at every offset at most one
record lies, and if it is one that a scan may pass over, it is found.  So the records that are found
are all there are, up to the first offset where none lies or where another logical file begins.

* `RecordSpan.Lies.unique` : at most one record lies at an offset.
* `RecordSpan.Scanned` : the records that a scan passes over, as a matter of the contents alone.
* `LogicalStream.At.nextRecord_of_lies` : **a record that lies there is found**, unless it opens
  another logical file.
* `RecordSpan.Scanned.stops` : behind them lies no record that a scan may pass over.
* `LogicalStream.At.ends_scan` : **a scan finds the records of `Scanned`.**
* `LogicalStream.readRecord_of_findRecords` : **what a scan finds can be read**, on every medium
  without faults, and in any order.
-/

namespace WellLog

/-! ### The record at an offset -/

/-- The segments behind the first one are settled by the bytes. -/
theorem SegmentHeader.Chain.unique {bytes : List UInt8} {offset : Nat} {h : SegmentHeader}
    {others others' : List SegmentHeader} (hc : Chain bytes offset h others)
    (hc' : Chain bytes offset h others') : others' = others := by
  induction others generalizing offset h others' with
  | nil =>
    cases others' with
    | nil => rfl
    | cons next' _ =>
      have hsucc := hc'.2.1
      rw [hc.2] at hsucc
      cases hsucc
  | cons next others ih =>
    cases others' with
    | nil =>
      have hsucc := hc.2.1
      rw [hc'.2] at hsucc
      cases hsucc
    | cons next' others' =>
      have hwritten := hc'.2.2.2.stands.written
      rw [hc.2.2.2.stands.written] at hwritten
      cases hwritten
      rw [ih hc.2.2.2 hc'.2.2.2]

namespace RecordSpan

variable {bytes : List UInt8} {offset most : Nat} {first : Bool} {r r' : RecordSpan}
  {records : List RecordSpan}

/-- **At most one record lies at an offset.** -/
theorem Lies.unique (h : r.Lies bytes offset) (h' : r'.Lies bytes offset) : r' = r := by
  obtain ⟨header, others⟩ := r
  obtain ⟨header', others'⟩ := r'
  have hwritten := h'.chain.stands.written
  rw [h.chain.stands.written] at hwritten
  cases hwritten
  exact congrArg (RecordSpan.mk header) (h.chain.unique h'.chain)

/-- A record that lies at an offset has bytes there. -/
theorem Lies.lt_length (h : r.Lies bytes offset) : offset < bytes.length :=
  Nat.lt_of_le_of_lt (Nat.le_add_right _ _) h.chain.length_others_lt

/-- The record can open a logical file. -/
def IsHeader (r : RecordSpan) : Prop :=
  r.explicit = true ∧ r.first.recordType = Record.fileHeader

/-- A scan may pass over the record: it is the first one, or cannot open another logical file. -/
def Passable (first : Bool) (r : RecordSpan) : Prop := first = true ∨ ¬ r.IsHeader

/-- The records from the offset on that a scan passes over, if there are at most `most`: one behind
the other, until none lies there that it may pass over. -/
inductive Scanned (bytes : List UInt8) : Nat → Bool → Nat → List RecordSpan → Prop where
  /-- The scan goes no further. -/
  | spent {first : Bool} {offset : Nat} : Scanned bytes 0 first offset []
  /-- No record lies there that the scan may pass over. -/
  | stop {most : Nat} {first : Bool} {offset : Nat}
    (none : ∀ r : RecordSpan, r.Lies bytes offset → ¬ r.Passable first) :
    Scanned bytes (most + 1) first offset []
  /-- The scan passes over a record. -/
  | record {most : Nat} {first : Bool} {offset : Nat} {r : RecordSpan} {others : List RecordSpan}
    (lies : r.Lies bytes offset) (passable : r.Passable first)
    (rest : Scanned bytes most false (offset + r.length) others) :
    Scanned bytes (most + 1) first offset (r :: others)

theorem Scanned.tile (h : Scanned bytes most first offset records) : Tile bytes offset records := by
  induction h with
  | spent | stop _ => exact tile_nil
  | record lies _ _ ih => exact tile_cons.2 ⟨lies, ih⟩

/-- The offset behind records that lie one behind the other from `offset` on. -/
def behind (offset : Nat) : List RecordSpan → Nat
  | [] => offset
  | r :: others => behind (offset + r.length) others

/-- **Behind the last record lies none that a scan may pass over**: the bytes end there, or are no
record, or another logical file begins. -/
theorem Scanned.stops (h : Scanned bytes most first offset records)
    (hmost : bytes.length < offset + most) (hr : r.Lies bytes (behind offset records)) :
    ¬ r.Passable (first && records.isEmpty) := by
  induction h with
  | spent =>
    have hlt := hr.lt_length
    rw [behind] at hlt
    omega
  | stop none =>
    rw [List.isEmpty_nil, Bool.and_true]
    exact none r hr
  | record lies _ _ ih =>
    have hpos := lies.length_pos
    rw [List.isEmpty_cons, Bool.and_false]
    exact ih (by omega) hr

end RecordSpan

/-! ### The scan -/

namespace LogicalStream

variable {m : Medium} {framed : Bool} {F : Feed} {k : Nat} {s : LogicalStream}
  {j : Journalled LogicalStream} {header : SegmentHeader} {others : List SegmentHeader}
  {r : RecordSpan}

/-- The segments of a record that lies there are passed over. -/
theorem At.skipSegments_of_chain {most : Nat} (h : j.state.At m framed F (k + SegmentHeader.size))
    (hc : SegmentHeader.Chain F.contents.bytes k header others) (hmost : others.length < most)
    (offset : Nat) :
    Ends (fun _ j' => j'.state.At m framed F (k + RecordSpan.length ⟨header, others⟩))
      (fun _ _ => False) (skipSegments offset most header j) := by
  induction others generalizing k j header most with
  | nil =>
    obtain ⟨most, rfl⟩ : ∃ n, most = n + 1 := ⟨most - 1, by omega⟩
    obtain ⟨hstands, hsucc⟩ := hc
    have hbody := SegmentHeader.size_add_bodyLength hstands.min_length
    have hcomplete := hstands.complete
    obtain ⟨s', hskip, hat⟩ := h.skip_of_le (n := header.bodyLength) (by omega)
    rw [Nat.add_assoc, hbody] at hat
    rw [skipSegments, ends_bind, ends_liftRead, hskip, ends_ok, hsucc, if_neg (by decide), ends_pure,
      RecordSpan.length_eq, List.map_nil, List.sum_nil, Nat.add_zero]
    exact hat
  | cons next others ih =>
    rw [List.length_cons] at hmost
    obtain ⟨most, rfl⟩ : ∃ n, most = n + 1 := ⟨most - 1, by omega⟩
    obtain ⟨hstands, hsucc, hpred, hnext⟩ := hc
    have hbody := SegmentHeader.size_add_bodyLength hstands.min_length
    have hcomplete := hstands.complete
    obtain ⟨s', hskip, hat⟩ := h.skip_of_le (n := header.bodyLength) (by omega)
    rw [Nat.add_assoc, hbody] at hat
    rw [skipSegments, ends_bind, ends_liftRead, hskip, ends_ok, hsucc, if_pos rfl, ends_bind]
    refine (At.requireHeader_of_stands (j := ⟨s', j.notes⟩) hat hnext.stands offset).mono ?_
      fun _ _ => id
    rintro next j₁ ⟨rfl, h₁⟩
    simp only [hpred, Bool.not_true, Bool.false_eq_true, if_false]
    refine (ih h₁ hnext (Nat.lt_of_succ_lt_succ hmost)).mono ?_ fun _ _ => id
    intro _ j₂ h₂
    rwa [RecordSpan.length_eq, List.map_cons, List.sum_cons, ← RecordSpan.length_eq next,
      ← Nat.add_assoc]

/-- What comes of a record that lies at the offset: it is found, or it opens another logical file and
the scan does not pass over it. -/
def Settles (m : Medium) (framed : Bool) (F : Feed) (k : Nat) (first : Bool) (r : RecordSpan) :
    EStateM.Result FormatError (Journalled LogicalStream) Found → Prop :=
  Ends
    (fun found j' => (r.Passable first → found = .record k r.explicit ∧
        j'.state.At m framed F (k + r.length)) ∧
      (¬ r.Passable first → ∀ offset explicit, found ≠ .record offset explicit))
    (fun _ _ => ¬ r.Passable first)

/-- Behind its first header, a record that lies there is passed over, unless it opens another logical
file. -/
theorem At.pass_of_lies {first opens : Bool} (hs : s.At m framed F k) (hrem : s.remaining ≠ 0)
    (h : j.state.At m framed F (k + SegmentHeader.size)) (hr : r.Lies F.contents.bytes k)
    (hopens : opens = true ↔ ¬ r.Passable first) :
    Settles m framed F k first r (pass s r.first opens j) := by
  unfold pass
  cases opens with
  | false =>
    have hpassable : r.Passable first := by
      by_contra hno
      cases hopens.2 hno
    have hmany := hr.chain.length_others_lt
    have hsize := h.length_contents_le
    rw [if_neg (by decide), Settles, ends_bind, hs.tell, extent_eq hs.toAnchored]
    refine (h.skipSegments_of_chain hr.chain (by omega) k).mono ?_ fun _ _ => False.elim
    intro _ j' h'
    exact ⟨fun _ => ⟨rfl, h'⟩, fun hno => absurd hpassable hno⟩
  | true =>
    have hno := hopens.1 rfl
    obtain ⟨place, hvisible, -⟩ := hs.visiblePosition_eq hrem
    rw [if_pos rfl, hvisible]
    simp only
    split
    · exact ⟨fun hyes => absurd hyes hno, fun _ _ _ => nofun⟩
    · exact hno

/-- **A record that lies there is found.**  One that opens another logical file is not passed over,
whether it begins a visible record or not. -/
theorem At.nextRecord_of_lies (h : j.state.At m framed F k) (hr : r.Lies F.contents.bytes k)
    (first : Bool) : Settles m framed F k first r (nextRecord first j) := by
  have hstands := hr.chain.stands
  have hcheck : r.first.check = .ok () := SegmentHeader.check_eq_ok_iff.2 hstands.min_length
  have hmore : ¬ F.Exhausted k := by
    intro hno
    have hlt := hr.lt_length
    rw [← hno.eq_length] at hlt
    exact Nat.lt_irrefl _ hlt
  have hopens : (r.first.flags.explicit && r.first.recordType == Record.fileHeader && !first) = true ↔
      ¬ r.Passable first := by
    simp [RecordSpan.Passable, RecordSpan.IsHeader, RecordSpan.explicit, and_comm]
  unfold nextRecord Settles
  rw [ends_bind, ends_liftRead]
  refine h.ends_fill.mono ?_ fun e s' he => absurd he.1 hmore
  rintro b s₁ (⟨rfl, h₁, hrem⟩ | ⟨-, hno, -⟩)
  · rw [if_neg (by decide), ends_bind, ends_state, ends_bind, ends_liftRead]
    refine h₁.ends_readHeader.mono ?_ fun e s' he => ?_
    · rintro found s₂ ⟨rfl, h₂⟩
      rw [hstands.written] at h₂ ⊢
      simp only [hcheck, hr.predecessor] at h₂ ⊢
      exact h₁.pass_of_lies hrem (j := ⟨s₂, j.notes⟩) h₂ hr hopens
    · rw [hstands.written] at he
      cases he.1
  · exact absurd hno hmore

/-- **A scan finds the records that the contents hold for it**, and always has a result. -/
theorem At.ends_scan (hfault : m.manner.fault = none) (h : j.state.At m framed F k) (most : Nat)
    (explicits implicits : Array Nat) :
    Ends (fun index j' => ∃ records,
        RecordSpan.Scanned F.contents.bytes most (explicits.size + implicits.size == 0) k records ∧
        index.explicits = explicits.toList ++ RecordSpan.offsets true k records ∧
        index.implicits = implicits.toList ++ RecordSpan.offsets false k records ∧
        j'.state.Anchored m framed F)
      (fun _ _ => False) (collect most explicits implicits j) := by
  refine ends_collect_of (I := At m framed F) (J := Anchored m framed F)
    (P := RecordSpan.Scanned F.contents.bytes) (fun _ _ => At.toAnchored) (fun _ _ => .spent) ?_ h
    explicits implicits
  intro most first k j h
  have hnext := h.ends_nextRecord hfault first
  -- a record that the scan may pass over would have been found
  have hsettles := fun (r : RecordSpan) (hr : r.Lies F.contents.bytes k) =>
    h.nextRecord_of_lies hr first
  unfold Settles at hsettles
  cases hrun : nextRecord first j with
  | error e j₁ =>
    rw [hrun] at hnext hsettles
    exact ⟨hnext.1, hnext.2, .stop hsettles⟩
  | ok found j₁ =>
    rw [hrun] at hnext hsettles
    cases found with
    | record offset explicit =>
      obtain ⟨rfl, r, hlies, rfl, h₁⟩ := hnext
      refine ⟨rfl, r, rfl, h₁, fun others hothers => .record hlies ?_ hothers⟩
      by_contra hno
      exact (hsettles r hlies).2 hno _ _ rfl
    | boundary _ | nothing =>
      refine ⟨hnext, .stop fun r hr hpassable => ?_⟩
      cases ((hsettles r hr).1 hpassable).1

/-- The records that are found from the beginning of a stream on. -/
theorem At.ends_findRecords_scanned (hfault : m.manner.fault = none) {s : LogicalStream}
    (h : s.At m framed F 0) (notes : Array Note) :
    ∃ index j records, findRecords ⟨s, notes⟩ = .ok index j ∧
      RecordSpan.Scanned F.contents.bytes (m.bytes.size + 1) true 0 records ∧
      index.explicits = RecordSpan.offsets true 0 records ∧
      index.implicits = RecordSpan.offsets false 0 records ∧ j.state.Anchored m framed F := by
  have hscan : Ends (fun index j => ∃ records,
      RecordSpan.Scanned F.contents.bytes (m.bytes.size + 1) true 0 records ∧
      index.explicits = RecordSpan.offsets true 0 records ∧
      index.implicits = RecordSpan.offsets false 0 records ∧ j.state.Anchored m framed F)
      (fun _ _ => False) (findRecords ⟨s, notes⟩) := by
    unfold findRecords
    rw [ends_bind, ends_state, extent_eq h.toAnchored]
    exact At.ends_scan hfault (j := ⟨s, notes⟩) h _ #[] #[]
  obtain ⟨index, j, hrun, records, hscanned, hexplicits, himplicits, hj⟩ := hscan.exists_ok
  exact ⟨index, j, records, hrun, hscanned, hexplicits, himplicits, hj⟩

/-- **What a scan finds can be read.**  On a medium without faults, a stream that is opened at a
visible record is scanned without failure.  The records that the scan finds lie one behind the other
from the beginning on, up to an offset where no record lies or one that opens another logical file.
Whatever was read in between, reading one of them gives a record of the kind that the scan takes it
for, or says that a trailer is at odds with its segment. -/
theorem readRecord_of_findRecords {t : Track} (hmedium : t.reader.medium = m)
    (hframed : t.isFramed = framed) (hfault : m.manner.fault = none) {p : Place}
    (hfeed : m.feedAt framed p = .ok F) (hF : F.Opens) (notes : Array Note) :
    ∃ s index j records, openAt t p = .ok s ∧ findRecords ⟨s, notes⟩ = .ok index j ∧
      RecordSpan.Tile F.contents.bytes 0 records ∧
      (∀ r : RecordSpan, r.Lies F.contents.bytes (RecordSpan.behind 0 records) →
        ¬ r.Passable records.isEmpty) ∧
      List.merge index.explicits index.implicits = RecordSpan.starts 0 records ∧
      index.explicits.Pairwise (· < ·) ∧ index.implicits.Pairwise (· < ·) ∧
      (∀ offset ∈ index.explicits, offset ∉ index.implicits) ∧
      ∀ earlier, ∃ outcomes j', readAttempts earlier j = .ok outcomes j' ∧
        ∀ offset ∈ index.explicits ++ index.implicits,
          Ends
            (fun record _ => record.offset = offset ∧
              (record.explicit = true ↔ offset ∈ index.explicits))
            (fun e _ => ∃ d, e = .defect d ∧ d.IsTrailer)
            (readRecord offset j') := by
  obtain ⟨s, hopen, hat, -⟩ := openAt_at hmedium hframed hfeed
  obtain ⟨index, j, records, hrun, hscanned, hexplicits, himplicits, hj⟩ :=
    hat.ends_findRecords_scanned hfault notes
  have htile := hscanned.tile
  have hsize := hat.length_contents_le
  refine ⟨s, index, j, records, hopen, hrun, htile,
    fun r hr => hscanned.stops (by omega) hr, ?_⟩
  rw [hexplicits, himplicits]
  have hdisjoint : ∀ offset ∈ RecordSpan.offsets true 0 records,
      offset ∉ RecordSpan.offsets false 0 records := fun _ => RecordSpan.notMem_offsets htile
  refine ⟨RecordSpan.merge_offsets htile, RecordSpan.pairwise_offsets _ htile,
    RecordSpan.pairwise_offsets _ htile, hdisjoint, fun earlier => ?_⟩
  obtain ⟨outcomes, j', hearlier, hj'⟩ := (hj.ends_readAttempts hF earlier).exists_ok
  refine ⟨outcomes, j', hearlier, fun offset hoffset => ?_⟩
  -- the record there is explicit exactly if it is among the explicit ones
  obtain ⟨r, hlies, hexplicit⟩ : ∃ r : RecordSpan, r.Lies F.contents.bytes offset ∧
      (r.explicit = true ↔ offset ∈ RecordSpan.offsets true 0 records) := by
    rcases List.mem_append.1 hoffset with hmem | hmem
    · obtain ⟨r, hlies, htrue⟩ := RecordSpan.exists_lies htile hmem
      exact ⟨r, hlies, iff_of_true htrue hmem⟩
    · obtain ⟨r, hlies, hfalse⟩ := RecordSpan.exists_lies htile hmem
      refine ⟨r, hlies, iff_of_false (Bool.eq_false_iff.1 hfalse) fun hmem' => hdisjoint _ hmem' hmem⟩
  refine (hj'.ends_readRecord hF hlies).mono ?_ ?_
  · rintro record j'' ⟨hdecode, -⟩
    obtain ⟨hstart, hkind⟩ := RecordSpan.of_decode hdecode
    exact ⟨hstart, by rw [hkind]; exact hexplicit⟩
  · rintro e j'' ⟨d, rfl, hdecode, -⟩
    exact ⟨d, rfl, RecordSpan.isTrailer_of_decode hdecode⟩

/-- A visible record with an explicit record in it, an implicit one with more pad bytes than it has
room for, and the first byte of something else. -/
def oddPadding : List UInt8 :=
  [0, 37, 0xFF, 1] ++ [0, 16, 0x80, 3] ++ List.replicate 12 7 ++
    [0, 16, 0x01, 5] ++ List.replicate 12 0xFF ++ [0]

/-- These bytes in memory. -/
def oddMedium : Medium := .ofBytes oddPadding.toArray

theorem readRecord_of_findRecords_oddPadding :
    ∃ s index j records, openAt ⟨.ofMedium oddMedium, .plain 0, none⟩ (.start 0) = .ok s ∧
      findRecords ⟨s, #[]⟩ = .ok index j ∧
      RecordSpan.Tile (oddMedium.plainFeed 0).contents.bytes 0 records ∧
      (∀ r : RecordSpan, r.Lies (oddMedium.plainFeed 0).contents.bytes (RecordSpan.behind 0 records) →
        ¬ r.Passable records.isEmpty) ∧
      List.merge index.explicits index.implicits = RecordSpan.starts 0 records ∧
      index.explicits.Pairwise (· < ·) ∧ index.implicits.Pairwise (· < ·) ∧
      (∀ offset ∈ index.explicits, offset ∉ index.implicits) ∧
      ∀ earlier, ∃ outcomes j', readAttempts earlier j = .ok outcomes j' ∧
        ∀ offset ∈ index.explicits ++ index.implicits,
          Ends
            (fun record _ => record.offset = offset ∧
              (record.explicit = true ↔ offset ∈ index.explicits))
            (fun e _ => ∃ d, e = .defect d ∧ d.IsTrailer)
            (readRecord offset j') := by
  have hbytes : (oddMedium.plainFeed 0).bytes = oddPadding := by
    rw [Medium.plainFeed_of_faultless rfl (Nat.zero_le _)]
    rfl
  have hopens : (oddMedium.plainFeed 0).Opens :=
    ⟨⟨37, 0xFF, 1⟩, oddPadding.drop 4, 0, 37, 0xFF, 1, hbytes, rfl, by decide⟩
  exact readRecord_of_findRecords rfl rfl rfl rfl hopens #[]

end LogicalStream

end WellLog
