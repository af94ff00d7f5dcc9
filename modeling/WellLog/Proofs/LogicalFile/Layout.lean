import WellLog.FrameData
import WellLog.Proofs.Record.RoundTrip
import WellLog.Proofs.Track.Probe
/-!
# Logical files as they are written

A `FileLayout` is a logical file with the visible records that it is written in.  Its first record,
the header, begins the first of them.

* `FileLayout.probe_eq_missing` : a logical file is not mistaken for a label.
* `FileLayout.ends_findRecords` : **the scan finds the records of one logical file**, with others
  behind it or not.
* `LogicalStream.Anchored.indexFrames_layout` : the samples of records are indexed.
-/

namespace WellLog

/-! ### Samples -/

/-- The frame that a record has samples of, with the offset of the record. -/
def Record.sample? (r : Record) : Option (Fingerprint × Nat) :=
  if r.isFrameData then
    match r.frame with
    | .ok frame => some (frame, r.offset)
    | .error _ => none
  else none

/-- The samples of some records by frame. -/
def FrameIndex.ofRecords (records : List Record) : FrameIndex :=
  FrameIndex.ofList (records.filterMap (·.sample?))

namespace LogicalStream

variable {m : Medium} {framed : Bool} {F : Feed} {j : Journalled LogicalStream}
  {records : List RecordLayout} {rest : List UInt8} {p : Nat × RecordLayout}

theorem Anchored.frameAt_placed (h : j.state.Anchored m framed F) (hF : F.Opens)
    (hbytes : F.contents.bytes = records.flatMap (·.toBytes) ++ rest)
    (hp : p ∈ RecordLayout.placed 0 records) :
    Ends (fun frame j' => frame.map (·, p.1) = (p.2.record p.1).sample? ∧
        j'.state.Anchored m framed F)
      (fun _ _ => False) (frameAt p.1 j) := by
  unfold frameAt
  rw [ends_bind]
  refine (h.readIntact_placed hF hbytes hp _).mono ?_ fun _ _ => id
  rintro record j' ⟨rfl, hj⟩
  simp only [Record.sample?]
  cases hdata : (p.2.record p.1).isFrameData with
  | false => exact ⟨rfl, hj⟩
  | true =>
    cases (p.2.record p.1).frame with
    | ok frame => exact ⟨rfl, hj⟩
    | error d => exact ⟨rfl, hj⟩

/-- **The samples of the records at the offsets are indexed.** -/
theorem Anchored.indexFrames_layout (h : j.state.Anchored m framed F) (hF : F.Opens)
    (hbytes : F.contents.bytes = records.flatMap (·.toBytes) ++ rest) (explicit : Bool) :
    Ends (fun frames j' => frames = FrameIndex.ofRecords (RecordLayout.decoded explicit 0 records) ∧
        j'.state.Anchored m framed F)
      (fun _ _ => False) (indexFrames (RecordLayout.offsets explicit 0 records) j) := by
  unfold indexFrames RecordLayout.offsets
  rw [ends_bind]
  refine ends_filterMapM (g := fun p => (p.2.record p.1).sample?)
    (I := fun j => j.state.Anchored m framed F) ?_ h ?_
  · intro p hp j hj
    rw [ends_bind]
    exact hj.frameAt_placed hF hbytes (List.mem_filter.1 hp).1
  · intro j' hj
    rw [ends_bind, ends_note, ends_pure, FrameIndex.ofRecords, RecordLayout.decoded,
      List.filterMap_map]
    exact ⟨rfl, hj⟩

end LogicalStream

/-! ### Files -/

/-- A logical file as it is written. -/
structure FileLayout where
  /-- The bodies of the visible records. -/
  bodies : List (List UInt8)
  /-- The first record. -/
  header : RecordLayout
  /-- The records behind it. -/
  others : List RecordLayout
  /-- Visible records can have these bodies. -/
  packed : Packed bodies
  /-- The bodies are the records, cut anywhere. -/
  cut : bodies.flatten = (header :: others).flatMap (·.toBytes)
  /-- The first record is the header of a logical file. -/
  isHeader : header.IsHeader
  /-- No other record is. -/
  not_isHeader : ∀ r ∈ others, ¬ r.IsHeader

namespace FileLayout

section

variable (f : FileLayout) (rest : List UInt8)

/-- All records. -/
def records : List RecordLayout := f.header :: f.others

/-- The bytes of the logical file. -/
def toBytes : List UInt8 := pack f.bodies

theorem bodies_ne_nil : f.bodies ≠ [] := by
  intro hnil
  have hcut := f.cut
  rw [hnil, List.flatten_nil, List.flatMap_cons, eq_comm, List.append_eq_nil_iff] at hcut
  exact f.header.toBytes_ne_nil hcut.1

/-- A logical file begins with a visible record. -/
theorem opens (ending : Ending) : Feed.Opens ⟨f.toBytes ++ rest, ending⟩ :=
  LogicalStream.opens_of_packed f.packed f.bodies_ne_nil rest

theorem toBytes_append_ne_nil : f.toBytes ++ rest ≠ [] :=
  (f.opens rest (.failed .bodyCut)).bytes_ne_nil

/-- The first bytes are the header of the visible record, and the length and the flags of the first
segment. -/
theorem exists_toBytes_append : ∃ a b c d others,
    f.toBytes ++ rest = a :: b :: 0xFF :: 0x01 :: c :: d :: f.header.first.flags.toByte :: others := by
  obtain ⟨body, bodies, hbodies⟩ := List.exists_cons_of_ne_nil f.bodies_ne_nil
  obtain ⟨hmin, hmax⟩ := f.packed body (hbodies ▸ List.mem_cons_self)
  obtain ⟨a, b, hlength, -⟩ := bigEndianBytes_two (Nat.lt_succ_of_le hmax)
  obtain ⟨c, d, hfirst, -⟩ := bigEndianBytes_two (Nat.lt_succ_of_le f.header.first.max_length)
  have hcut := f.cut
  rw [hbodies, List.flatten_cons, List.flatMap_cons, RecordLayout.toBytes, RecordLayout.segments,
    List.flatMap_cons, SegmentLayout.toBytes, SegmentLayout.body, hfirst] at hcut
  rw [toBytes, hbodies, pack, List.flatMap_cons, Image.visibleRecord, hlength]
  have hfour : 4 ≤ VisibleHeader.minLength - VisibleHeader.size := by decide
  obtain ⟨x, y, z, u, body, rfl⟩ := exists_four (Nat.le_trans hfour (Nat.sub_le_of_le_add hmin))
  simp only [List.cons_append, List.nil_append, List.cons.injEq] at hcut
  obtain ⟨rfl, rfl, rfl, -⟩ := hcut
  exact ⟨a, b, _, _, _, rfl⟩

/-- The flags of an explicit segment are no full stop. -/
theorem toByte_ne_of_explicit (flags : SegmentFlags) (h : flags.explicit = true) :
    flags.toByte ≠ 0x2E := by
  obtain ⟨a, b, c, d, e, f, g, h'⟩ := flags
  cases h
  revert b c d e f g h'
  decide

/-- **A logical file is not mistaken for a label.** -/
theorem probe_eq_missing : StorageLabel.probe (f.toBytes ++ rest) = .missing := by
  obtain ⟨a, b, c, d, others, hbytes⟩ := f.exists_toBytes_append rest
  have hflags := toByte_ne_of_explicit _ f.isHeader.1
  refine if_neg fun hlooks => ?_
  rw [hbytes, StorageLabel.looksLike, Bool.and_eq_true, Bool.and_eq_true, beq_iff_eq] at hlooks
  have hversion : [c, d, f.header.first.flags.toByte] = Utf8.encode "V1." := hlooks.1.2
  have hencoded : Utf8.encode "V1." = [0x56, 0x31, 0x2E] := by decide +kernel
  rw [hencoded] at hversion
  simp only [List.cons.injEq] at hversion
  exact hflags hversion.2.2.1

theorem behind_eq : StorageLabel.behind (f.toBytes ++ rest) = f.toBytes ++ rest := by
  refine if_neg fun h => ?_
  have hprobe := f.probe_eq_missing rest
  rw [StorageLabel.probe, if_pos h.1, if_pos h.2] at hprobe
  cases hprobe

theorem contents_eq (ending : Ending) : Feed.contents ⟨f.toBytes ++ rest, ending⟩ =
    ⟨f.records.flatMap (·.toBytes) ++ (unwrap ending rest).bytes, (unwrap ending rest).ending⟩ := by
  rw [Feed.contents, toBytes, unwrap_pack f.packed, f.cut, records]

/-- Behind the records, the rest is ahead. -/
theorem outlook_eq (ending : Ending) :
    Feed.outlook ⟨f.toBytes ++ rest, ending⟩ (f.records.flatMap (·.toBytes)).length = ⟨0, rest⟩ := by
  rw [Feed.outlook, toBytes, records, ← f.cut, advance_pack f.packed]

end

section

variable {f : FileLayout} {m : Medium} {framed : Bool} {j : Journalled LogicalStream} {files : List FileLayout}
  {stop : Stop} {place : Place}

/-- **The scan finds the records of one logical file.**  It ends where the next one begins, or where
the track stops. -/
theorem ends_findRecords (h : j.state.At m framed
      ⟨f.toBytes ++ files.flatMap (·.toBytes), .stopped stop place⟩ 0) :
    Ends
      (fun index j' => index.explicits = RecordLayout.offsets true 0 f.records ∧
        index.implicits = RecordLayout.offsets false 0 f.records ∧ index.isBroken = false ∧
        (if files = [] then index.resume = place
        else m.feedAt framed index.resume =
          .ok ⟨files.flatMap (·.toBytes), .stopped stop place⟩) ∧
        j'.state.Anchored m framed ⟨f.toBytes ++ files.flatMap (·.toBytes), .stopped stop place⟩)
      (fun _ _ => False) (LogicalStream.findRecords j) := by
  have hcontents := f.contents_eq (files.flatMap (·.toBytes)) (.stopped stop place)
  have hothers : ∀ r ∈ f.records.tail, ¬ r.IsHeader := f.not_isHeader
  cases files with
  | nil =>
    have hbefore : j.state.Before m framed ⟨f.toBytes ++ [], .stopped stop place⟩ 0
        (f.records.flatMap (·.toBytes)) := by
      refine ⟨h, ?_⟩
      rw [List.drop_zero]
      refine (congrArg Contents.bytes hcontents).trans ?_
      rw [List.flatMap_nil, unwrap_nil, List.append_nil]
    have hend : (Feed.contents ⟨f.toBytes ++ [], .stopped stop place⟩).ending =
        .ended stop place := by
      refine (congrArg Contents.ending hcontents).trans ?_
      rw [List.flatMap_nil, unwrap_nil]
      rfl
    refine (hbefore.findRecords_of_end hothers hend).mono ?_ fun _ _ => id
    rintro index j' ⟨rfl, hj⟩
    refine ⟨rfl, rfl, ?_, rfl, hj⟩
    cases stop <;> rfl
  | cons g files =>
    obtain ⟨behind, hnext⟩ : ∃ behind,
        (unwrap (.stopped stop place) ((g :: files).flatMap (·.toBytes))).bytes =
          g.header.toBytes ++ behind := by
      rw [List.flatMap_cons, toBytes, unwrap_pack g.packed, g.cut, List.flatMap_cons,
        List.append_assoc]
      exact ⟨_, rfl⟩
    rw [hnext] at hcontents
    have hbefore : j.state.Before m framed
        ⟨f.toBytes ++ (g :: files).flatMap (·.toBytes), .stopped stop place⟩ 0
        (f.records.flatMap (·.toBytes) ++ (g.header.toBytes ++ behind)) := by
      refine ⟨h, ?_⟩
      rw [List.drop_zero, hcontents]
    have houtlook := f.outlook_eq ((g :: files).flatMap (·.toBytes)) (.stopped stop place)
    refine (hbefore.findRecords_of_isHeader hothers (List.cons_ne_nil _ _) g.isHeader
      (by rw [houtlook])).mono ?_ fun _ _ => id
    rintro index j' ⟨resume, rfl, hresume, hj⟩
    rw [houtlook] at hresume
    refine ⟨rfl, rfl, rfl, ?_, hj⟩
    rw [if_neg (List.cons_ne_nil _ _)]
    exact hresume

end

end FileLayout

end WellLog
