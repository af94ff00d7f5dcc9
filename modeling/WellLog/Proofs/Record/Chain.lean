import Mathlib.Algebra.Order.Ring.Int
import WellLog.Proofs.Record.Layout
import WellLog.Proofs.Record.Twins
/-!
# Records in the contents of a stream

A record lies in the contents of a stream as a chain of segments, each of which says whether another
one follows.  The scan and the reading of a record walk along such chains in ways of their own: the
scan passes over bodies and looks at what a segment says of the one before, while reading takes the
bodies apart and does not look back.

* `RecordSpan.Lies` : a record lies at an offset of the contents.
* `LogicalStream.At.ends_nextRecord` : **what the scan finds is a record that lies there**, and it
  stops behind it.
* `LogicalStream.ends_collect_of` : what is known of every record is known of the scan.
* `LogicalStream.At.ends_collect` : **the records that a scan finds lie one behind the other**.
-/

namespace WellLog

/-! ### What a record looks like in the contents -/

/-- A segment at an offset of some bytes. -/
structure SegmentHeader.Stands (bytes : List UInt8) (offset : Nat) (h : SegmentHeader) : Prop where
  /-- The header is written there. -/
  written : take? (bytes.drop offset) = some h
  /-- The length is one that a segment can have. -/
  min_length : minLength ≤ h.length
  /-- The body is complete. -/
  complete : offset + h.length ≤ bytes.length

/-- Segments one behind the other.  Every one but the last says that another one follows, and every
one but the first that it follows one. -/
def SegmentHeader.Chain (bytes : List UInt8) : Nat → SegmentHeader → List SegmentHeader → Prop
  | offset, h, [] => h.Stands bytes offset ∧ h.flags.successor = false
  | offset, h, next :: others => h.Stands bytes offset ∧ h.flags.successor = true ∧
    next.flags.predecessor = true ∧ Chain bytes (offset + h.length) next others

/-- The segments of a record, by their headers. -/
structure RecordSpan where
  /-- The first segment. -/
  first : SegmentHeader
  /-- The segments behind it. -/
  others : List SegmentHeader
  deriving DecidableEq, Repr

namespace RecordSpan

/-- All segments. -/
def segments (r : RecordSpan) : List SegmentHeader := r.first :: r.others

/-- The lengths of all segments together. -/
def length (r : RecordSpan) : Nat := (r.segments.map (·.length)).sum

/-- The record describes itself. -/
def explicit (r : RecordSpan) : Bool := r.first.flags.explicit

/-- The record lies at an offset of some bytes. -/
structure Lies (bytes : List UInt8) (offset : Nat) (r : RecordSpan) : Prop where
  /-- The first segment follows no other. -/
  predecessor : r.first.flags.predecessor = false
  /-- The segments lie one behind the other. -/
  chain : SegmentHeader.Chain bytes offset r.first r.others

/-- Records with their offsets: the first one is at `offset`, and every other one behind the one
before. -/
def placed (offset : Nat) : List RecordSpan → List (Nat × RecordSpan)
  | [] => []
  | r :: others => (offset, r) :: placed (offset + r.length) others

/-- The offsets of all records. -/
def starts (offset : Nat) (records : List RecordSpan) : List Nat := (placed offset records).map (·.1)

/-- The offsets of the records that are explicit, or of those that are not. -/
def offsets (explicit : Bool) (offset : Nat) (records : List RecordSpan) : List Nat :=
  ((placed offset records).filter (·.2.explicit == explicit)).map (·.1)

/-- The records lie in the bytes, one behind the other from `offset` on. -/
def Tile (bytes : List UInt8) (offset : Nat) (records : List RecordSpan) : Prop :=
  ∀ p ∈ placed offset records, p.2.Lies bytes p.1

/-- The data of segments that lie one behind the other. -/
def payloads (bytes : List UInt8) : Nat → List SegmentHeader → Except Defect (List UInt8)
  | _, [] => .ok []
  | offset, h :: others => do
    let data ← h.payload ((bytes.drop (offset + SegmentHeader.size)).take h.bodyLength)
    return data ++ (← payloads bytes (offset + h.length) others)

/-- The record that lies at an offset. -/
def decode (bytes : List UInt8) (offset : Nat) (r : RecordSpan) : Except Defect Record := do
  let body ← payloads bytes offset r.segments
  return ⟨offset, r.first.recordType, r.explicit, r.first.flags.encrypted, body⟩

end RecordSpan

/-! ### Chains -/

namespace SegmentHeader

variable {bytes : List UInt8} {offset : Nat} {h : SegmentHeader} {others : List SegmentHeader}

theorem check_eq_ok_iff : h.check = .ok () ↔ minLength ≤ h.length := by
  rw [check]
  split
  · simp only [reduceCtorEq, false_iff]
    omega
  · simp only [true_iff]
    omega

theorem size_add_bodyLength (hmin : minLength ≤ h.length) : size + h.bodyLength = h.length := by
  simp only [bodyLength, minLength, size] at *
  omega

theorem Chain.stands (hc : Chain bytes offset h others) : h.Stands bytes offset := by
  cases others with
  | nil => exact hc.1
  | cons next others => exact hc.1

/-- There are fewer segments than bytes. -/
theorem Chain.length_others_lt (hc : Chain bytes offset h others) :
    offset + others.length < bytes.length := by
  induction others generalizing offset h with
  | nil =>
    have hcomplete := hc.stands.complete
    have hmin := hc.stands.min_length
    simp only [minLength] at hmin
    rw [List.length_nil]
    omega
  | cons next others ih =>
    have hmin := hc.stands.min_length
    have hnext := ih hc.2.2.2
    simp only [minLength] at hmin
    rw [List.length_cons]
    omega

end SegmentHeader

namespace RecordSpan

variable {bytes : List UInt8} {offset : Nat} {r : RecordSpan} {records : List RecordSpan}

theorem length_eq (first : SegmentHeader) (others : List SegmentHeader) :
    length ⟨first, others⟩ = first.length + (others.map (·.length)).sum := by
  rw [length, segments, List.map_cons, List.sum_cons]

theorem Lies.length_pos (h : r.Lies bytes offset) : 0 < r.length := by
  have hmin := h.chain.stands.min_length
  simp only [SegmentHeader.minLength] at hmin
  rw [length_eq]
  omega

theorem tile_nil : Tile bytes offset [] := fun _ h => nomatch h

theorem tile_cons : Tile bytes offset (r :: records) ↔
    r.Lies bytes offset ∧ Tile bytes (offset + r.length) records := List.forall_mem_cons

theorem offsets_cons (explicit : Bool) :
    offsets explicit offset (r :: records) =
      if r.explicit = explicit then offset :: offsets explicit (offset + r.length) records
      else offsets explicit (offset + r.length) records := by
  simp only [offsets, placed, List.filter_cons, beq_iff_eq]
  split <;> rfl

end RecordSpan

/-! ### Failures that the bytes are to blame for -/

/-- The end of contents that the bytes are to blame for. -/
theorem shortage_unwrap {ending : Ending}
    (h : ∀ e, ending = .failed e → (FormatError.io e).isStructural = true) (bytes : List UInt8) :
    (unwrap ending bytes).ending.shortage = .unexpectedEof ∨
      (unwrap ending bytes).ending.shortage = .invalidData := by
  have hfailed : ∀ e, ending = .failed e → e.kind = .unexpectedEof ∨ e.kind = .invalidData := by
    intro e he
    simpa [FormatError.isStructural] using h e he
  fun_induction unwrap ending bytes with
  | case1 =>
    cases ending with
    | stopped _ _ => exact .inl rfl
    | failed e => exact hfailed e rfl
  | case2 _ _ _ _ _ _ _ _ _ ih => exact ih
  | case3 | case5 =>
    cases ending with
    | stopped _ _ => exact .inl rfl
    | failed e => exact hfailed e rfl
  | case4 => exact .inr rfl

namespace LogicalStream

variable {m : Medium} {framed : Bool} {F : Feed} {k n : Nat} {s : LogicalStream}
  {j : Journalled LogicalStream}

/-- The failure of a medium without faults: the bytes are to blame. -/
theorem Short.isStructural (hfault : m.manner.fault = none) {e : IoError}
    (h : s.Short m framed F e) : (FormatError.io e).isStructural = true := by
  have hshort := shortage_unwrap (fun _ he => Medium.isStructural_of_feedAt hfault h.origin he) F.bytes
  rw [← Feed.contents, ← h.kind] at hshort
  simpa [FormatError.isStructural] using hshort

/-- Reading failed because of the bytes, and may go on elsewhere. -/
def Spoilt (m : Medium) (framed : Bool) (F : Feed) (e : FormatError)
    (j : Journalled LogicalStream) : Prop :=
  e.isStructural = true ∧ j.state.Anchored m framed F

theorem ends_accept {α : Type} {r : Except Defect α} {Q : α → Journalled LogicalStream → Prop}
    (h : j.state.Anchored m framed F) (hQ : ∀ a, r = .ok a → Q a j) :
    Ends Q (Spoilt m framed F) (accept r j) := by
  cases r with
  | ok a => exact hQ a rfl
  | error d => exact ⟨rfl, h⟩

/-- What is known of every record that a scan passes over is known of the scan.  `I k` holds of the
streams in front of the offset `k`, `J` of those where a scan may stop, and `P most first k records`
says of `records` that they may be found from the offset `k` on, if there are at most `most`. -/
theorem ends_collect_of {I : Nat → LogicalStream → Prop} {J : LogicalStream → Prop}
    {P : Nat → Bool → Nat → List RecordSpan → Prop} (hkeep : ∀ k s, I k s → J s)
    (hspent : ∀ first k, P 0 first k [])
    (hstep : ∀ most first k (j : Journalled LogicalStream), I k j.state →
      Ends
        (fun found j' => match found with
          | .record offset explicit => offset = k ∧ ∃ r : RecordSpan, r.explicit = explicit ∧
            I (k + r.length) j'.state ∧
            ∀ others, P most false (k + r.length) others → P (most + 1) first k (r :: others)
          | _ => J j'.state ∧ P (most + 1) first k [])
        (fun e j' => e.isStructural = true ∧ J j'.state ∧ P (most + 1) first k [])
        (nextRecord first j))
    {most : Nat} (h : I k j.state) (explicits implicits : Array Nat) :
    Ends (fun index j' => ∃ records, P most (explicits.size + implicits.size == 0) k records ∧
        index.explicits = explicits.toList ++ RecordSpan.offsets true k records ∧
        index.implicits = implicits.toList ++ RecordSpan.offsets false k records ∧ J j'.state)
      (fun _ _ => False) (collect most explicits implicits j) := by
  -- where the scan stops, no record is added to those that were found
  have hstop : ∀ {first : Bool} {s : LogicalStream} {most k : Nat} {explicits implicits : Array Nat},
      J s ∧ P most first k [] → ∃ records, P most first k records ∧
        explicits.toList = explicits.toList ++ RecordSpan.offsets true k records ∧
        implicits.toList = implicits.toList ++ RecordSpan.offsets false k records ∧ J s :=
    fun hs => ⟨[], hs.2, (List.append_nil _).symm, (List.append_nil _).symm, hs.1⟩
  induction most generalizing k j explicits implicits with
  | zero => exact hstop ⟨hkeep _ _ h, hspent _ _⟩
  | succ most ih =>
    refine ends_collect_succ ((hstep most _ k j h).mono ?_ ?_)
    · rintro found j₁ h₁
      cases found with
      | record offset explicit =>
        obtain ⟨rfl, r, rfl, h₁, hnext⟩ := h₁
        refine (ih h₁ _ _).mono ?_ fun _ _ => id
        rintro index j₂ ⟨records, hothers, he, hi, h₂⟩
        rw [size_pushIf_add] at hothers
        refine ⟨r :: records, hnext records hothers, ?_, ?_, h₂⟩
        · cases hexplicit : r.explicit <;>
            simp [he, toList_pushIf, RecordSpan.offsets_cons, hexplicit]
        · cases hexplicit : r.explicit <;>
            simp [hi, toList_pushIf, RecordSpan.offsets_cons, hexplicit]
      | boundary place => exact fun _ => hstop h₁
      | nothing => exact hstop h₁
    · rintro e j₁ ⟨hstructural, h₁⟩
      rw [StepFails, if_pos hstructural]
      exact fun _ => hstop h₁

section

variable (hfault : m.manner.fault = none)
include hfault

/-- A header that is read is written there, and has a length that a segment can have. -/
theorem At.ends_requireHeader (h : j.state.At m framed F k) (offset : Nat) :
    Ends (fun header j' => SegmentHeader.take? (F.contents.bytes.drop k) = some header ∧
        SegmentHeader.minLength ≤ header.length ∧
        j'.state.At m framed F (k + SegmentHeader.size))
      (Spoilt m framed F) (requireHeader offset j) := by
  unfold requireHeader
  rw [ends_bind, ends_liftRead]
  refine h.ends_readHeader.mono ?_ fun e s' he => ⟨he.2.1.isStructural hfault, he.2.1.toAnchored⟩
  rintro found s' ⟨hfound, hat⟩
  cases found with
  | none => exact ⟨rfl, hat.2.toAnchored⟩
  | some header =>
    simp only at hat ⊢
    rw [ends_bind]
    refine ends_accept hat.toAnchored fun _ hcheck => ?_
    exact ⟨hfound.symm, SegmentHeader.check_eq_ok_iff.1 hcheck, hat⟩

/-- The scan walks along a chain. -/
theorem At.ends_skipSegments {header : SegmentHeader} {most : Nat}
    (h : j.state.At m framed F (k + SegmentHeader.size))
    (hwritten : SegmentHeader.take? (F.contents.bytes.drop k) = some header)
    (hmin : SegmentHeader.minLength ≤ header.length)
    (hmost : F.contents.bytes.length < k + SegmentHeader.size + most) (offset : Nat) :
    Ends (fun _ j' => ∃ others, SegmentHeader.Chain F.contents.bytes k header others ∧
        j'.state.At m framed F (k + RecordSpan.length ⟨header, others⟩))
      (Spoilt m framed F) (skipSegments offset most header j) := by
  -- the offset grows with every segment, so `most` never runs out
  induction most generalizing k j header with
  | zero =>
    have hle := h.le_length
    omega
  | succ most ih =>
    have hbody := SegmentHeader.size_add_bodyLength hmin
    rw [skipSegments, ends_bind, ends_liftRead]
    by_cases hlen : k + SegmentHeader.size + header.bodyLength ≤ F.contents.bytes.length
    · obtain ⟨s', hskip, hat⟩ := h.skip_of_le hlen
      have hstands : header.Stands F.contents.bytes k := ⟨hwritten, hmin, by omega⟩
      have hnext : k + SegmentHeader.size + header.bodyLength = k + header.length := by omega
      rw [hnext] at hat
      rw [hskip, ends_ok]
      cases hsucc : header.flags.successor with
      | false =>
        rw [if_neg (by decide), ends_pure]
        refine ⟨[], ⟨hstands, hsucc⟩, ?_⟩
        rwa [RecordSpan.length_eq, List.map_nil, List.sum_nil, Nat.add_zero]
      | true =>
        rw [if_pos rfl, ends_bind]
        refine (At.ends_requireHeader hfault (j := ⟨s', j.notes⟩) hat offset).mono ?_ fun _ _ => id
        rintro next j₁ ⟨hwritten', hmin', h₁⟩
        cases hpred : next.flags.predecessor with
        | false => exact ⟨rfl, h₁.toAnchored⟩
        | true =>
          have hsize : 0 < SegmentHeader.size := by decide
          simp only [Bool.not_true, Bool.false_eq_true, if_false]
          refine (ih h₁ hwritten' hmin' (by omega)).mono ?_ fun _ _ => id
          rintro - j₂ ⟨others, hchain, h₂⟩
          refine ⟨next :: others, ⟨hstands, hsucc, hpred, hchain⟩, ?_⟩
          rwa [RecordSpan.length_eq, List.map_cons, List.sum_cons, ← RecordSpan.length_eq next,
            ← Nat.add_assoc]
    · refine (h.ends_skip_of_lt (Nat.lt_of_not_le hlen)).mono (fun _ _ => False.elim) ?_
      exact fun e s' he => ⟨he.isStructural hfault, he.toAnchored⟩

/-- What the scan finds at an offset. -/
def FindsAt (m : Medium) (framed : Bool) (F : Feed) (k : Nat) (found : Found)
    (j : Journalled LogicalStream) : Prop :=
  match found with
  | .record offset explicit => offset = k ∧ ∃ r : RecordSpan, r.Lies F.contents.bytes k ∧
      r.explicit = explicit ∧ j.state.At m framed F (k + r.length)
  | _ => j.state.Anchored m framed F

/-- Behind its first header, a record is passed over, unless it opens another logical file. -/
theorem At.ends_pass {header : SegmentHeader} {opens : Bool} (hs : s.At m framed F k)
    (h : j.state.At m framed F (k + SegmentHeader.size))
    (hwritten : SegmentHeader.take? (F.contents.bytes.drop k) = some header)
    (hmin : SegmentHeader.minLength ≤ header.length) (hpred : header.flags.predecessor = false) :
    Ends (FindsAt m framed F k) (Spoilt m framed F) (pass s header opens j) := by
  have hextent := extent_eq hs.toAnchored
  have hle := h.length_contents_le
  have hsize : 0 < SegmentHeader.size := by decide
  refine LogicalStream.ends_pass (fun _ place atStart _ => ?_) ?_
  · cases atStart with
    | false => exact ⟨rfl, h.toAnchored⟩
    | true => exact h.toAnchored
  · refine (h.ends_skipSegments hfault hwritten hmin (by omega) s.tell).mono ?_ fun _ _ => id
    rintro - j' ⟨others, hchain, h'⟩
    exact ⟨hs.tell, ⟨header, others⟩, ⟨hpred, hchain⟩, rfl, h'⟩

/-- **What the scan finds is a record that lies there.** -/
theorem At.ends_nextRecord (h : j.state.At m framed F k) (first : Bool) :
    Ends (FindsAt m framed F k) (Spoilt m framed F) (nextRecord first j) := by
  unfold nextRecord
  rw [ends_bind, ends_liftRead]
  refine h.ends_fill.mono ?_ fun e s' he => ⟨he.2.short.isStructural hfault, he.2.toAnchored⟩
  rintro b s₁ (⟨rfl, h₁, -⟩ | ⟨rfl, -, hend⟩)
  · rw [if_neg (by decide), ends_bind, ends_state, ends_bind, ends_liftRead]
    refine h₁.ends_readHeader.mono ?_ fun e s' he => ⟨he.2.1.isStructural hfault, he.2.1.toAnchored⟩
    rintro found s₂ ⟨hfound, h₂⟩
    cases found with
    | none => exact h₂.2.toAnchored
    | some header =>
      simp only at h₂ ⊢
      rw [ends_bind]
      refine ends_accept h₂.toAnchored fun _ hcheck => ?_
      cases hpred : header.flags.predecessor with
      | true => exact ⟨rfl, h₂.toAnchored⟩
      | false =>
        exact h₁.ends_pass hfault (j := ⟨s₂, j.notes⟩) h₂ hfound.symm
          (SegmentHeader.check_eq_ok_iff.1 hcheck) hpred
  · exact hend.toAnchored

/-- **The records that a scan finds lie one behind the other.**  On a medium without faults, the scan
always has a result. -/
theorem At.ends_collect (h : j.state.At m framed F k) (most : Nat) (explicits implicits : Array Nat) :
    Ends (fun index j' => ∃ records, RecordSpan.Tile F.contents.bytes k records ∧
        index.explicits = explicits.toList ++ RecordSpan.offsets true k records ∧
        index.implicits = implicits.toList ++ RecordSpan.offsets false k records ∧
        j'.state.Anchored m framed F)
      (fun _ _ => False) (collect most explicits implicits j) := by
  refine ends_collect_of (I := At m framed F) (J := Anchored m framed F)
    (P := fun _ _ k => RecordSpan.Tile F.contents.bytes k) (fun _ _ => At.toAnchored)
    (fun _ _ => RecordSpan.tile_nil) ?_ h explicits implicits
  intro most first k j h
  refine (h.ends_nextRecord hfault first).mono ?_ fun _ _ h₁ => ⟨h₁.1, h₁.2, RecordSpan.tile_nil⟩
  rintro found j₁ h₁
  cases found with
  | record offset explicit =>
    obtain ⟨rfl, r, hlies, hexplicit, h₁⟩ := h₁
    exact ⟨rfl, r, hexplicit, h₁, fun others htile => RecordSpan.tile_cons.2 ⟨hlies, htile⟩⟩
  | boundary _ | nothing => exact ⟨h₁, RecordSpan.tile_nil⟩

/-- So do those that the scan of a stream finds that is at its beginning. -/
theorem At.ends_findRecords_tiled {s : LogicalStream} (h : s.At m framed F 0) (notes : Array Note) :
    Ends (fun index j => ∃ records, RecordSpan.Tile F.contents.bytes 0 records ∧
        index.explicits = RecordSpan.offsets true 0 records ∧
        index.implicits = RecordSpan.offsets false 0 records ∧ j.state.Anchored m framed F)
      (fun _ _ => False) (findRecords ⟨s, notes⟩) := by
  unfold findRecords
  rw [ends_bind, ends_state]
  exact At.ends_collect hfault (j := ⟨s, notes⟩) h _ #[] #[]

end

end LogicalStream

end WellLog
