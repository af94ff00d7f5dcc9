import WellLog.Proofs.LogicalStream.Truncation
import WellLog.Proofs.Record.Complete
/-!
# Truncation only removes records

A file that is cut off somewhere has fewer records than the whole one, and no others: a record that
the cut goes through is not found, and those in front of the cut are read as before.

* `RecordSpan.Lies.mono`, `RecordSpan.Lies.decode_eq` : a record of the cut contents is a record of
  the whole ones, with the same data.
* `RecordSpan.Scanned.isPrefix` : a scan of the cut contents finds the first records of a scan of the
  whole ones.
* `LogicalStream.findRecords_of_cut` : **a cut image has the first records of the whole one, and they
  are read in the same way.**
-/

namespace WellLog

/-! ### Records of contents that are cut off -/

section

variable {bytes bytes' : List UInt8} (hcut : bytes' <+: bytes)
include hcut

namespace SegmentHeader

variable {offset : Nat} {h : SegmentHeader} {others : List SegmentHeader}

theorem take?_of_prefix (hwritten : take? bytes' = some h) : take? bytes = some h := by
  obtain ⟨more, rfl⟩ := hcut
  match bytes', hwritten with
  | _ :: _ :: _ :: _ :: _, hwritten => exact hwritten

theorem Stands.mono (hs : h.Stands bytes' offset) : h.Stands bytes offset where
  written := take?_of_prefix (drop_prefix_drop hcut offset) hs.written
  min_length := hs.min_length
  complete := Nat.le_trans hs.complete hcut.length_le

theorem Chain.mono (hc : Chain bytes' offset h others) : Chain bytes offset h others := by
  induction others generalizing offset h with
  | nil => exact ⟨hc.1.mono hcut, hc.2⟩
  | cons next others ih => exact ⟨hc.1.mono hcut, hc.2.1, hc.2.2.1, ih hc.2.2.2⟩

/-- The body of a segment that is complete. -/
theorem Stands.body_eq (hs : h.Stands bytes' offset) :
    (bytes.drop (offset + size)).take h.bodyLength =
      (bytes'.drop (offset + size)).take h.bodyLength := by
  have hbody := size_add_bodyLength hs.min_length
  have hcomplete := hs.complete
  obtain ⟨more, rfl⟩ := hcut
  rw [List.drop_append_of_le_length (by omega), List.take_append_of_le_length]
  rw [List.length_drop]
  omega

end SegmentHeader

namespace RecordSpan

variable {offset : Nat} {first : Bool} {r : RecordSpan} {records records' : List RecordSpan}

/-- A record of the cut contents is a record of the whole ones. -/
theorem Lies.mono (h : r.Lies bytes' offset) : r.Lies bytes offset :=
  ⟨h.predecessor, h.chain.mono hcut⟩

theorem payloads_of_prefix {header : SegmentHeader} {others : List SegmentHeader}
    (hc : SegmentHeader.Chain bytes' offset header others) :
    payloads bytes offset (header :: others) = payloads bytes' offset (header :: others) := by
  have hcons : ∀ bytes : List UInt8, ∀ offset header others,
      payloads bytes offset (header :: others) = do
        let data ← header.payload ((bytes.drop (offset + SegmentHeader.size)).take header.bodyLength)
        return data ++ (← payloads bytes (offset + header.length) others) := fun _ _ _ _ => rfl
  induction others generalizing offset header with
  | nil => rw [hcons, hc.stands.body_eq hcut, hcons, payloads, payloads]
  | cons next others ih =>
    rw [hcons, hc.stands.body_eq hcut, ih hc.2.2.2, hcons bytes' offset header]

/-- It has the same data. -/
theorem Lies.decode_eq (h : r.Lies bytes' offset) :
    r.decode bytes offset = r.decode bytes' offset := by
  rw [decode, decode, segments, payloads_of_prefix hcut h.chain]

/-- **A scan of the cut contents finds the first records of a scan of the whole ones.** -/
theorem Scanned.isPrefix {most most' : Nat} (h' : Scanned bytes' most' first offset records')
    (h : Scanned bytes most first offset records) (hmost : bytes.length < offset + most) :
    records' <+: records := by
  induction h' generalizing most records with
  | spent | stop _ => exact List.nil_prefix
  | record lies passable _ ih =>
    have hlies := lies.mono hcut
    have hlt := hlies.lt_length
    have hpos := hlies.length_pos
    cases h with
    | spent => omega
    | stop none => exact absurd passable (none _ hlies)
    | record lies' _ rest' =>
      cases lies'.unique hlies
      exact List.prefix_cons_inj _ |>.2 (ih rest' (by omega))

end RecordSpan

end

namespace RecordSpan

variable {bytes : List UInt8} {most offset : Nat} {first : Bool} {records : List RecordSpan}

/-- In contents without bytes there are no records. -/
theorem Scanned.eq_nil (h : Scanned [] most first offset records) : records = [] := by
  cases h with
  | spent | stop _ => rfl
  | record lies _ _ => exact absurd lies.lt_length (Nat.not_lt_zero _)

/-- Wherever something was found, a record lies. -/
theorem exists_lies_of_found {k : Nat} (h : Tile bytes offset records)
    (hk : k ∈ offsets true offset records ++ offsets false offset records) :
    ∃ r : RecordSpan, r.Lies bytes k := by
  rcases List.mem_append.1 hk with hk | hk
  · exact (exists_lies h hk).imp fun _ => And.left
  · exact (exists_lies h hk).imp fun _ => And.left

theorem offsets_prefix {records records' : List RecordSpan} (h : records' <+: records)
    (explicit : Bool) (offset : Nat) :
    offsets explicit offset records' <+: offsets explicit offset records := by
  obtain ⟨more, rfl⟩ := h
  induction records' generalizing offset with
  | nil => exact List.nil_prefix
  | cons r records' ih =>
    rw [List.cons_append, offsets_cons, offsets_cons]
    split
    · exact (List.prefix_cons_inj _).2 (ih _)
    · exact ih _

end RecordSpan

/-! ### Streams on images that are cut off -/

namespace LogicalStream

variable {m m' : Medium} {framed : Bool} {F F' : Feed} {k : Nat}

/-- The record at an offset is read in the same way, or fails in the same way, through either of two
streams, whatever was read through them before. -/
def ReadsSame (i i' : Journalled LogicalStream) (offset : Nat) : Prop :=
  ∀ earlier earlier', ∃ outcomes j outcomes' j', readAttempts earlier i = .ok outcomes j ∧
    readAttempts earlier' i' = .ok outcomes' j' ∧
    Agree (fun record _ record' _ => record' = record) (fun e _ e' _ => e' = e)
      (readRecord offset j) (readRecord offset j')

/-- A record of the cut contents is read in the same way from the whole ones. -/
theorem Anchored.readsSame {i i' : Journalled LogicalStream} (h : i.state.Anchored m framed F)
    (h' : i'.state.Anchored m' framed F') (hcut : F'.bytes <+: F.bytes) {r : RecordSpan}
    (hr : r.Lies F'.contents.bytes k) : ReadsSame i i' k := by
  have hcontents := Feed.contents_prefix hcut
  have hlies := hr.mono hcontents
  have hopens : ∀ G : Feed, r.Lies G.contents.bytes k → G.Opens := fun G hG =>
    Feed.opens_of_contents (List.ne_nil_of_length_pos (Nat.zero_lt_of_lt hG.lt_length))
  intro earlier earlier'
  obtain ⟨outcomes, j, hrun, hj⟩ := (h.ends_readAttempts (hopens F hlies) earlier).exists_ok
  obtain ⟨outcomes', j', hrun', hj'⟩ := (h'.ends_readAttempts (hopens F' hr) earlier').exists_ok
  refine ⟨outcomes, j, outcomes', j', hrun, hrun', ?_⟩
  have hread := hj.ends_readRecord (hopens F hlies) hlies
  have hread' := hj'.ends_readRecord (hopens F' hr) hr
  rw [hr.decode_eq hcontents] at hread
  refine agree_of_ends hread hread' ?_ ?_ ?_ ?_
  · rintro record _ record' _ ⟨hdecode, -⟩ ⟨hdecode', -⟩
    rw [hdecode] at hdecode'
    cases hdecode'
    rfl
  · rintro e _ e' _ ⟨d, rfl, hdecode, -⟩ ⟨d', rfl, hdecode', -⟩
    rw [hdecode] at hdecode'
    cases hdecode'
    rfl
  · rintro record _ e' _ ⟨hdecode, -⟩ ⟨d', -, hdecode', -⟩
    rw [hdecode] at hdecode'
    cases hdecode'
  · rintro e _ record' _ ⟨d, -, hdecode, -⟩ ⟨hdecode', -⟩
    rw [hdecode] at hdecode'
    cases hdecode'

/-- A stream can be opened where the medium has a feed, and only there. -/
theorem openAt_eq {t : Track} (hm : t.reader.medium = m) (hf : t.isFramed = framed) (p : Place) :
    match openAt t p with
    | .ok s => ∃ F, m.feedAt framed p = .ok F ∧ s.At m framed F 0
    | .error e => m.feedAt framed p = .error e := by
  cases hfeed : m.feedAt framed p with
  | ok F =>
    obtain ⟨s, hopen, hs, -⟩ := openAt_at hm hf hfeed
    rw [hopen]
    exact ⟨F, rfl, hs⟩
  | error e =>
    have hmove := Track.ends_moveTo hm hf p
    rw [hfeed] at hmove
    simp only [openAt]
    cases hrun : t.moveTo p with
    | ok u t' =>
      obtain ⟨F, hF, -⟩ := hrun ▸ hmove
      cases hF
    | error e' t' =>
      obtain ⟨he, -⟩ := hrun ▸ hmove
      exact he

/-- **Truncation only removes records.**  Where a stream opens on the cut image, the scan finds the
first records that the scan of the whole image finds, and each of them is read in the same way, or
fails to be read in the same way, whether a scan or other records came first.  Where the stream opens
on the cut image alone, nothing is found. -/
theorem findRecords_of_cut (hcut : m.Cut m') {t t' : Track} (hm : t.reader.medium = m)
    (hm' : t'.reader.medium = m') (hframed : t'.isFramed = t.isFramed) {p : Place}
    {s' : LogicalStream} (hopen' : openAt t' p = .ok s') (notes notes' : Array Note) :
    ∃ index' j', findRecords ⟨s', notes'⟩ = .ok index' j' ∧
      match openAt t p with
      | .error _ => index'.explicits = [] ∧ index'.implicits = []
      | .ok s => ∃ index j, findRecords ⟨s, notes⟩ = .ok index j ∧
        index'.explicits <+: index.explicits ∧ index'.implicits <+: index.implicits ∧
        ∀ offset ∈ index'.explicits ++ index'.implicits,
          ∀ i ∈ [⟨s, notes⟩, j], ∀ i' ∈ [⟨s', notes'⟩, j'], ReadsSame i i' offset := by
  have hs' := openAt_eq hm' hframed p
  rw [hopen'] at hs'
  obtain ⟨F', hF', hs'⟩ := hs'
  obtain ⟨index', j', records', hrun', hscanned', hexplicits', himplicits', hj'⟩ :=
    hs'.ends_findRecords_scanned hcut.fault' notes'
  refine ⟨index', j', hrun', ?_⟩
  have hfeed := hcut.feedAt hF'
  have hs := openAt_eq hm rfl p
  cases hopen : openAt t p with
  | error e =>
    rw [hopen] at hs
    simp only at hs
    rw [hs] at hfeed
    have hnone : records' = [] := by
      rw [Feed.contents, hfeed, unwrap_nil] at hscanned'
      exact hscanned'.eq_nil
    rw [hexplicits', himplicits', hnone]
    exact ⟨rfl, rfl⟩
  | ok s =>
    rw [hopen] at hs
    obtain ⟨F, hF, hs⟩ := hs
    rw [hF] at hfeed
    obtain ⟨index, j, records, hrun, hscanned, hexplicits, himplicits, hj⟩ :=
      hs.ends_findRecords_scanned hcut.fault notes
    have hsize := hs.length_contents_le
    have hrecords := hscanned'.isPrefix (Feed.contents_prefix hfeed) hscanned (by omega)
    refine ⟨index, j, hrun, ?_, ?_, ?_⟩
    · rw [hexplicits', hexplicits]
      exact RecordSpan.offsets_prefix hrecords true 0
    · rw [himplicits', himplicits]
      exact RecordSpan.offsets_prefix hrecords false 0
    · intro offset hoffset i hi i' hi'
      rw [hexplicits', himplicits'] at hoffset
      obtain ⟨r, hlies⟩ := RecordSpan.exists_lies_of_found hscanned'.tile hoffset
      have hanchored : i.state.Anchored m t.isFramed F := by
        rcases List.mem_pair.1 hi with rfl | rfl
        · exact hs.toAnchored
        · exact hj
      have hanchored' : i'.state.Anchored m' t.isFramed F' := by
        rcases List.mem_pair.1 hi' with rfl | rfl
        · exact hs'.toAnchored
        · exact hj'
      exact hanchored.readsSame hanchored' hfeed hlies

/-- The image with odd padding, cut off in the body of the second record. -/
def oddMediumCut : Medium := .ofBytes (oddPadding.take 30).toArray

theorem findRecords_of_cut_oddPadding :
    ∃ s s' index j index' j',
      openAt ⟨.ofMedium oddMedium, .plain 0, none⟩ (.start 0) = .ok s ∧
      openAt ⟨.ofMedium oddMediumCut, .plain 0, none⟩ (.start 0) = .ok s' ∧
      findRecords ⟨s', #[]⟩ = .ok index' j' ∧ findRecords ⟨s, #[]⟩ = .ok index j ∧
      index'.explicits <+: index.explicits ∧ index'.implicits <+: index.implicits ∧
      ∀ offset ∈ index'.explicits ++ index'.implicits,
        ∀ i ∈ [⟨s, #[]⟩, j], ∀ i' ∈ [⟨s', #[]⟩, j'], ReadsSame i i' offset := by
  have hcut : oddMedium.Cut oddMediumCut := ⟨List.take_prefix 30 oddPadding, rfl, rfl⟩
  obtain ⟨index', j', hrun', index, j, hrun, hfound⟩ :=
    @findRecords_of_cut oddMedium oddMediumCut hcut ⟨.ofMedium oddMedium, .plain 0, none⟩
      ⟨.ofMedium oddMediumCut, .plain 0, none⟩ rfl rfl rfl (.start 0) _ rfl #[] #[]
  exact ⟨_, _, index, j, index', j', rfl, rfl, hrun', hrun, hfound⟩

end LogicalStream

end WellLog
