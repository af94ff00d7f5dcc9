import WellLog.Proofs.LogicalStream.Packing
import WellLog.Proofs.Record.Layout
/-!
# Records are read as they were written

Records are written in segments, and segments in visible records, with cuts at any byte.  Reading
goes twice over the result: a scan finds where records begin, and every record is then read on its
own.

* `LogicalStream.Anchored.extractRecords_layout` : the records at any of the offsets are read back,
  whatever was read before.
* `LogicalStream.decode_of_layout` : **scanning and reading undo the writing of records**.
-/

namespace WellLog

namespace LogicalStream

variable {m : Medium} {framed : Bool} {F : Feed} {j : Journalled LogicalStream}
  {records : List RecordLayout} {rest : List UInt8} {p : Nat × RecordLayout}

/-- A record is found at its offset. -/
theorem Anchored.readRecord_placed (h : j.state.Anchored m framed F) (hF : F.Opens)
    (hbytes : F.contents.bytes = records.flatMap (·.toBytes) ++ rest)
    (hp : p ∈ RecordLayout.placed 0 records) :
    Ends (fun record j' => record = p.2.record p.1 ∧ j'.state.Anchored m framed F)
      (fun _ _ => False) (readRecord p.1 j) := by
  obtain ⟨before, behind, hrecords, hoffset⟩ := RecordLayout.drop_of_mem_placed hp
  rw [hrecords, List.append_assoc, List.append_assoc] at hbytes
  rw [Nat.zero_add] at hoffset
  have hle : p.1 ≤ F.contents.bytes.length := by
    rw [hbytes, List.length_append]
    omega
  have hdrop : F.contents.bytes.drop p.1 = p.2.toBytes ++ (behind ++ rest) := by
    rw [hbytes, hoffset, List.drop_left]
  exact (h.readRecord_layout hF hle hdrop).mono (fun _ _ h => ⟨h.1, h.2.toAnchored⟩) fun _ _ => id

theorem Anchored.readIntact_placed (h : j.state.Anchored m framed F) (hF : F.Opens)
    (hbytes : F.contents.bytes = records.flatMap (·.toBytes) ++ rest)
    (hp : p ∈ RecordLayout.placed 0 records) (what : String) :
    Ends (fun record j' => record = some (p.2.record p.1) ∧ j'.state.Anchored m framed F)
      (fun _ _ => False) (readIntact p.1 what j) := by
  unfold readIntact
  rw [ends_bind, ends_attempt]
  refine (h.readRecord_placed hF hbytes hp).mono ?_ fun _ _ => False.elim
  rintro record j' ⟨rfl, hj⟩
  exact ⟨rfl, hj⟩

/-- **Records are read back** at the offsets of the explicit ones, and of the others. -/
theorem Anchored.extractRecords_layout (h : j.state.Anchored m framed F) (hF : F.Opens)
    (hbytes : F.contents.bytes = records.flatMap (·.toBytes) ++ rest) (explicit : Bool) :
    Ends (fun found j' => found = RecordLayout.decoded explicit 0 records ∧
        j'.state.Anchored m framed F)
      (fun _ _ => False) (extractRecords (RecordLayout.offsets explicit 0 records) j) := by
  unfold extractRecords RecordLayout.offsets
  rw [ends_bind]
  refine ends_filterMapM (g := fun p => some (p.2.record p.1))
    (I := fun j => j.state.Anchored m framed F) ?_ h ?_
  · intro p hp j hj
    exact hj.readIntact_placed hF hbytes (List.mem_filter.1 hp).1 _
  · intro j' hj
    rw [ends_bind, ends_note, ends_pure, RecordLayout.decoded]
    exact ⟨by simp, hj⟩

/-- Records can be extracted in any order, as often as one likes. -/
theorem Anchored.mapM_extractRecords (h : j.state.Anchored m framed F) (hF : F.Opens)
    (hbytes : F.contents.bytes = records.flatMap (·.toBytes) ++ rest) (passes : List Bool) :
    Ends (fun found _ => found = passes.map (RecordLayout.decoded · 0 records)) (fun _ _ => False)
      (passes.mapM (fun explicit => extractRecords (RecordLayout.offsets explicit 0 records)) j) := by
  induction passes generalizing j with
  | nil => exact rfl
  | cons explicit passes ih =>
    rw [List.mapM_cons, ends_bind]
    refine (h.extractRecords_layout hF hbytes explicit).mono ?_ fun _ _ => id
    rintro found j₁ ⟨rfl, h₁⟩
    rw [ends_bind]
    refine (ih h₁).mono ?_ fun _ _ => id
    rintro more j₂ rfl
    exact rfl

/-- Packed records open a stream. -/
theorem opens_of_packed {bodies : List (List UInt8)} {ending : Ending} (h : Packed bodies)
    (hne : bodies ≠ []) (rest : List UInt8) : Feed.Opens ⟨pack bodies ++ rest, ending⟩ := by
  obtain ⟨b, bodies, rfl⟩ := List.exists_cons_of_ne_nil hne
  obtain ⟨hmin, hmax⟩ := h b List.mem_cons_self
  obtain ⟨header, hheader, -⟩ := headerAt_visibleRecord hmin hmax (pack bodies ++ rest)
  refine ⟨header, b ++ (pack bodies ++ rest), ?_⟩
  rw [pack, List.flatMap_cons, List.append_assoc]
  exact hheader

/-- **Scanning and reading undo the writing of records.**  A stream that is opened at the first of
the visible records finds where the records begin, up to the end of the medium, and every record is
then read back from there, in whatever order. -/
theorem decode_of_layout {lead : List UInt8} {bodies : List (List UInt8)}
    (hmedium : m.bytes.toList = lead ++ pack bodies) (hfault : m.manner.fault = none)
    (hbodies : Packed bodies) (hcut : bodies.flatten = records.flatMap (·.toBytes))
    (hne : records ≠ []) (hheaders : ∀ r ∈ records.tail, ¬ r.IsHeader) (notes : Array Note) :
    ∃ s index j, openAt ⟨.ofMedium m, .plain 0, none⟩ (.start lead.length) = .ok s ∧
      findRecords ⟨s, notes⟩ = .ok index j ∧
      index = ⟨RecordLayout.offsets true 0 records, RecordLayout.offsets false 0 records,
        .mediumEnd, .start m.bytes.size⟩ ∧
      index.isBroken = false ∧
      ∀ passes : List Bool, ∃ j',
        passes.mapM (fun explicit =>
          extractRecords (if explicit then index.explicits else index.implicits)) j =
        .ok (passes.map (RecordLayout.decoded · 0 records)) j' := by
  have hsize : lead.length ≤ m.bytes.size := by
    rw [← Array.length_toList, hmedium, List.length_append]
    omega
  have hfeed : m.feedAt false (.start lead.length) =
      .ok ⟨pack bodies ++ [], .stopped .mediumEnd (.start m.bytes.size)⟩ := by
    rw [Medium.feedAt, if_neg (by decide), Place.start, Nat.add_zero,
      Medium.plainFeed_of_faultless hfault hsize, hmedium, List.drop_left, List.append_nil]
  set F : Feed := ⟨pack bodies ++ [], .stopped .mediumEnd (.start m.bytes.size)⟩ with hF
  have hcontents : F.contents = ⟨records.flatMap (·.toBytes),
      .ended .mediumEnd (.start m.bytes.size)⟩ := by
    rw [Feed.contents, hF, unwrap_pack hbodies, unwrap_nil, List.append_nil, hcut]
    rfl
  have hbodies_ne : bodies ≠ [] := by
    rintro rfl
    obtain ⟨r, records, rfl⟩ := List.exists_cons_of_ne_nil hne
    rw [List.flatten_nil, List.flatMap_cons, eq_comm, List.append_eq_nil_iff] at hcut
    exact r.toBytes_ne_nil hcut.1
  have hopens : F.Opens := opens_of_packed hbodies hbodies_ne []
  obtain ⟨s, hopen, hat, -⟩ := openAt_at (t := ⟨.ofMedium m, .plain 0, none⟩) rfl rfl hfeed
  have hbefore : Before m false F 0 (records.flatMap (·.toBytes)) s :=
    ⟨hat, by rw [hcontents, List.drop_zero]⟩
  obtain ⟨index, j, hscan, rfl, hj⟩ :=
    (Before.findRecords_of_end (j := ⟨s, notes⟩) hbefore hheaders
      (congrArg Contents.ending hcontents)).exists_ok
  refine ⟨s, _, j, hopen, hscan, rfl, rfl, fun passes => ?_⟩
  have hbytes : F.contents.bytes = records.flatMap (·.toBytes) ++ [] := by
    rw [hcontents, List.append_nil]
  obtain ⟨found, j', hrun, rfl⟩ := (hj.mapM_extractRecords hopens hbytes passes).exists_ok
  refine ⟨j', .trans (congrFun (congrArg passes.mapM (funext fun explicit => ?_)) j) hrun⟩
  cases explicit <;> rfl

/-- A record in two segments.  The first has pad bytes, a checksum and a trailing length. -/
def inTwoSegments : RecordLayout where
  type := 3
  first := ⟨⟨true, false, true, false, false, true, true, true⟩, [1, 2, 3, 4, 5, 6, 7, 8],
    [0, 0, 3], [0xAB, 0xCD], [0, 19], by decide, by decide, by decide, by decide, by decide,
    by decide⟩
  others := [⟨⟨true, true, false, false, false, false, false, false⟩, List.replicate 12 9,
    [], [], [], by decide, by decide, by decide, by decide, by decide, by decide⟩]
  predecessor := rfl
  chain := ⟨rfl, rfl, rfl⟩
  uniform := by decide

/-- The record in visible records, which are cut inside the trailer of the first segment. -/
def cutInTrailer : List (List UInt8) :=
  [inTwoSegments.toBytes.take 17, inTwoSegments.toBytes.drop 17]

/-- The visible records behind three other bytes. -/
def cutMedium : Medium := .ofBytes ([1, 2, 3] ++ pack cutInTrailer).toArray

theorem decode_inTwoSegments : ∃ s index j,
    openAt ⟨.ofMedium cutMedium, .plain 0, none⟩ (.start 3) = .ok s ∧
    findRecords ⟨s, #[]⟩ = .ok index j ∧
    index = ⟨[0], [], .mediumEnd, .start 46⟩ ∧
    index.isBroken = false ∧
    ∀ passes : List Bool, ∃ j',
      passes.mapM (fun explicit =>
        extractRecords (if explicit then index.explicits else index.implicits)) j =
      .ok (passes.map (RecordLayout.decoded · 0 [inTwoSegments])) j' := by
  have hmedium : cutMedium.bytes.toList = [1, 2, 3] ++ pack cutInTrailer := by
    simp [cutMedium, Medium.ofBytes]
  have hbodies : Packed cutInTrailer := by decide
  have hcut : cutInTrailer.flatten = [inTwoSegments].flatMap (·.toBytes) := by
    simp [cutInTrailer]
  have hne : [inTwoSegments] ≠ [] := List.cons_ne_nil _ _
  have hheaders : ∀ r ∈ [inTwoSegments].tail, ¬ r.IsHeader := by simp
  exact decode_of_layout hmedium rfl hbodies hcut hne hheaders #[]

end LogicalStream

end WellLog
