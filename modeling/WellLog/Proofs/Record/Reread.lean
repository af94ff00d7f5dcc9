import WellLog.Proofs.Record.Chain
/-!
# Reading what a scan has found

The scan passes over bodies, while reading a record takes them apart.  On any bytes whatsoever, the
two go along the same segments.

* `RecordSpan.merge_offsets` : the offsets of explicit and implicit records are those of all records.
* `LogicalStream.Anchored.ends_readRecord` : **a record that lies at an offset is read from there**,
  unless a trailer is at odds with its segment.
* `LogicalStream.Anchored.ends_readAttempts` : records can be read in any order, whatever comes of
  them.
-/

namespace WellLog

/-- A trailer is at odds with its segment. -/
def Defect.IsTrailer : Defect → Prop
  | .segment .noPadCount | .segment (.trailerTooLong _ _) => True
  | _ => False

/-- One step after the other fails if either does. -/
theorem bind_eq_error_iff {ε α β : Type} {x : Except ε α} {f : α → Except ε β} {e : ε} :
    (x >>= f) = .error e ↔ x = .error e ∨ ∃ a, x = .ok a ∧ f a = .error e := by
  cases x with
  | ok a => simp [bind, Except.bind]
  | error e' => simp [bind, Except.bind]

namespace SegmentHeader

variable {h : SegmentHeader} {body : List UInt8} {d : Defect}

theorem isTrailer_of_trailerLength (hd : h.trailerLength body = .error d) : d.IsTrailer := by
  have hfits : ∀ pad, (if body.length < h.flags.fixedTrailer + pad then
      throw (.segment (.trailerTooLong (h.flags.fixedTrailer + pad) body.length))
      else pure (h.flags.fixedTrailer + pad) : Except Defect Nat) = .error d → d.IsTrailer := by
    intro pad hpad
    split at hpad
    · cases hpad
      trivial
    · cases hpad
  rw [trailerLength] at hd
  split at hd
  · split at hd
    · cases hd
      trivial
    · exact hfits _ hd
  · exact hfits 0 hd

theorem isTrailer_of_payload (hd : h.payload body = .error d) : d.IsTrailer := by
  rcases bind_eq_error_iff.1 hd with hlen | ⟨_, -, hpure⟩
  · exact isTrailer_of_trailerLength hlen
  · cases hpure

end SegmentHeader

namespace RecordSpan

variable {bytes : List UInt8} {offset k : Nat} {explicit : Bool} {r : RecordSpan}
  {records : List RecordSpan}

/-! ### The offsets of records -/

theorem le_of_mem_starts (h : k ∈ starts offset records) : offset ≤ k := by
  induction records generalizing offset with
  | nil => cases h
  | cons r records ih =>
    rcases List.mem_cons.1 h with rfl | h
    · exact Nat.le_refl _
    · exact Nat.le_trans (Nat.le_add_right _ _) (ih h)

/-- Every record lies behind the ones before. -/
theorem pairwise_starts (h : Tile bytes offset records) :
    (starts offset records).Pairwise (· < ·) := by
  induction records generalizing offset with
  | nil => exact .nil
  | cons r records ih =>
    obtain ⟨hlies, htile⟩ := tile_cons.1 h
    refine List.pairwise_cons.2 ⟨fun k hk => ?_, ih htile⟩
    exact Nat.lt_of_lt_of_le (Nat.lt_add_of_pos_right hlies.length_pos) (le_of_mem_starts hk)

theorem sublist_offsets : (offsets explicit offset records).Sublist (starts offset records) :=
  List.filter_sublist.map _

theorem pairwise_offsets (explicit : Bool) (h : Tile bytes offset records) :
    (offsets explicit offset records).Pairwise (· < ·) := (pairwise_starts h).sublist sublist_offsets

/-- Every record is explicit or not. -/
theorem offsets_perm : (offsets true offset records ++ offsets false offset records).Perm
    (starts offset records) := by
  have hfalse : (fun p : Nat × RecordSpan => p.2.explicit == false) =
      fun p => !(p.2.explicit == true) := by
    funext p
    cases p.2.explicit <;> rfl
  rw [offsets, offsets, starts, hfalse, ← List.map_append]
  exact (List.filter_append_perm _ _).map _

/-- No record is both explicit and implicit. -/
theorem notMem_offsets (h : Tile bytes offset records) (hk : k ∈ offsets true offset records) :
    k ∉ offsets false offset records := by
  have hnodup : (starts offset records).Nodup := (pairwise_starts h).imp Nat.ne_of_lt
  have happend := List.nodup_append.1 (offsets_perm.nodup_iff.2 hnodup)
  exact fun hk' => happend.2.2 k hk k hk' rfl

/-- Merged in order, the offsets are those of all records. -/
theorem merge_offsets (h : Tile bytes offset records) :
    List.merge (offsets true offset records) (offsets false offset records) =
      starts offset records := by
  have hle : ∀ {l : List Nat}, l.Pairwise (· < ·) → l.Pairwise (fun a b => decide (a ≤ b) = true) :=
    fun hl => hl.imp fun hab => decide_eq_true (Nat.le_of_lt hab)
  have htrans : ∀ a b c : Nat, decide (a ≤ b) = true → decide (b ≤ c) = true →
      decide (a ≤ c) = true := fun a b c hab hbc =>
    decide_eq_true (Nat.le_trans (of_decide_eq_true hab) (of_decide_eq_true hbc))
  have htotal : ∀ a b : Nat, (decide (a ≤ b) || decide (b ≤ a)) = true := by
    intro a b
    simp only [Bool.or_eq_true, decide_eq_true_eq]
    exact Nat.le_total a b
  have hmerge := List.pairwise_merge htrans htotal _ _ (hle (pairwise_offsets true h))
    (hle (pairwise_offsets false h))
  refine ((List.merge_perm_append _).trans offsets_perm).eq_of_pairwise ?_ hmerge
    (hle (pairwise_starts h))
  intro a b _ _ hab hba
  exact Nat.le_antisymm (of_decide_eq_true hab) (of_decide_eq_true hba)

/-- At an offset of such records lies one of them. -/
theorem exists_lies (h : Tile bytes offset records) (hk : k ∈ offsets explicit offset records) :
    ∃ r : RecordSpan, r.Lies bytes k ∧ r.explicit = explicit := by
  obtain ⟨p, hp, rfl⟩ := List.mem_map.1 hk
  obtain ⟨hplaced, hexplicit⟩ := List.mem_filter.1 hp
  exact ⟨p.2, h p hplaced, beq_iff_eq.1 hexplicit⟩

/-! ### Decoding -/

theorem isTrailer_of_payloads {segments : List SegmentHeader} {d : Defect}
    (h : payloads bytes offset segments = .error d) : d.IsTrailer := by
  induction segments generalizing offset with
  | nil => cases h
  | cons s segments ih =>
    rcases bind_eq_error_iff.1 h with hdata | ⟨_, -, hmore⟩
    · exact SegmentHeader.isTrailer_of_payload hdata
    · rcases bind_eq_error_iff.1 hmore with hmore | ⟨_, -, hpure⟩
      · exact ih hmore
      · cases hpure

/-- Only a trailer can keep a record from being decoded. -/
theorem isTrailer_of_decode {d : Defect} (h : r.decode bytes offset = .error d) : d.IsTrailer := by
  rcases bind_eq_error_iff.1 h with hbody | ⟨_, -, hpure⟩
  · exact isTrailer_of_payloads hbody
  · cases hpure

theorem of_decode {record : Record} (h : r.decode bytes offset = .ok record) :
    record.offset = offset ∧ record.explicit = r.explicit := by
  rw [decode] at h
  cases hbody : payloads bytes offset r.segments with
  | error d =>
    rw [hbody] at h
    cases h
  | ok body =>
    rw [hbody] at h
    cases h
    exact ⟨rfl, rfl⟩

end RecordSpan

namespace LogicalStream

variable {m : Medium} {framed : Bool} {F : Feed} {k : Nat} {j : Journalled LogicalStream}
  {header : SegmentHeader} {others : List SegmentHeader} {r : RecordSpan}

/-! ### Reading along a chain -/

/-- A segment that stands at the offset of the stream has its header read. -/
theorem At.requireHeader_of_stands (h : j.state.At m framed F k)
    (hs : header.Stands F.contents.bytes k) (offset : Nat) :
    Ends (fun found j' => found = header ∧ j'.state.At m framed F (k + SegmentHeader.size))
      (fun _ _ => False) (requireHeader offset j) := by
  have hcheck : header.check = .ok () := SegmentHeader.check_eq_ok_iff.2 hs.min_length
  unfold requireHeader
  rw [ends_bind, ends_liftRead]
  refine h.ends_readHeader.mono ?_ fun e s' he => ?_
  · rintro found s' ⟨rfl, hat⟩
    rw [hs.written] at hat ⊢
    simp only [hcheck]
    exact ⟨rfl, hat⟩
  · rw [hs.written] at he
    cases he.1

/-- Behind the header of a segment that is complete, its data is read, unless the trailer is at odds
with it. -/
theorem At.readPayload_of_stands (h : j.state.At m framed F (k + SegmentHeader.size))
    (hs : header.Stands F.contents.bytes k) :
    Ends
      (fun data j' => header.payload ((F.contents.bytes.drop (k + SegmentHeader.size)).take
          header.bodyLength) = .ok data ∧ j'.state.At m framed F (k + header.length))
      (fun e j' => ∃ d, e = .defect d ∧
        header.payload ((F.contents.bytes.drop (k + SegmentHeader.size)).take
          header.bodyLength) = .error d ∧ j'.state.Anchored m framed F)
      (readPayload header j) := by
  have hbody := SegmentHeader.size_add_bodyLength hs.min_length
  have hcomplete := hs.complete
  have hroom : k + SegmentHeader.size + header.bodyLength ≤ F.contents.bytes.length := by omega
  obtain ⟨s', hg, hat⟩ := h.gather_of_le hroom
  have hfull : ¬ ((F.contents.bytes.drop (k + SegmentHeader.size)).take
      header.bodyLength).length < header.bodyLength := by
    rw [List.length_take, List.length_drop]
    omega
  rw [Nat.add_assoc, hbody] at hat
  unfold readPayload
  rw [ends_bind, ends_liftRead, hg, ends_ok, if_neg hfull]
  cases hdata : header.payload ((F.contents.bytes.drop (k + SegmentHeader.size)).take
      header.bodyLength) with
  | ok data => exact ⟨rfl, hat⟩
  | error d => exact ⟨d, rfl, rfl, hat.toAnchored⟩

/-- A reading gives the data of the segments at an offset, or fails as they do. -/
def Yields (m : Medium) (framed : Bool) (F : Feed) (offset : Nat) (segments : List SegmentHeader)
    (x : Reading (List UInt8)) (j : Journalled LogicalStream) : Prop :=
  Ends
    (fun data j' => RecordSpan.payloads F.contents.bytes offset segments = .ok data ∧
      j'.state.Anchored m framed F)
    (fun e j' => ∃ d, e = .defect d ∧
      RecordSpan.payloads F.contents.bytes offset segments = .error d ∧ j'.state.Anchored m framed F)
    (x j)

/-- The data of a segment is read, and then that of the others. -/
theorem At.yields_cons {more : Reading (List UInt8)}
    (h : j.state.At m framed F (k + SegmentHeader.size)) (hs : header.Stands F.contents.bytes k)
    (hmore : ∀ j', j'.state.At m framed F (k + header.length) →
      Yields m framed F (k + header.length) others more j') :
    Yields m framed F k (header :: others)
      (readPayload header >>= fun data => more >>= fun behind => pure (data ++ behind)) j := by
  unfold Yields
  rw [ends_bind]
  refine (h.readPayload_of_stands hs).mono ?_ ?_
  · rintro data j₁ ⟨hdata, h₁⟩
    rw [ends_bind]
    refine (hmore j₁ h₁).mono ?_ ?_
    · rintro behind j₂ ⟨hbehind, h₂⟩
      refine ⟨?_, h₂⟩
      rw [RecordSpan.payloads, hdata, hbehind]
      rfl
    · rintro e j₂ ⟨d, rfl, hbehind, h₂⟩
      refine ⟨d, rfl, ?_, h₂⟩
      rw [RecordSpan.payloads, hdata, hbehind]
      rfl
  · rintro e j₁ ⟨d, rfl, hdata, h₁⟩
    refine ⟨d, rfl, ?_, h₁⟩
    rw [RecordSpan.payloads, hdata]
    rfl

/-- The segments behind the first one are read as they lie there. -/
theorem At.readSuccessors_of_chain {most : Nat} (h : j.state.At m framed F (k + header.length))
    (hc : SegmentHeader.Chain F.contents.bytes k header others) (hmost : others.length ≤ most)
    (offset : Nat) (type : UInt8) :
    Yields m framed F (k + header.length) others (readSuccessors offset type most header) j := by
  induction others generalizing k j header most with
  | nil =>
    cases most with
    | zero => exact ⟨rfl, h.toAnchored⟩
    | succ most =>
      unfold Yields
      rw [readSuccessors, hc.2]
      exact ⟨rfl, h.toAnchored⟩
  | cons next others ih =>
    obtain ⟨hstands, hsucc, -, hnext⟩ := hc
    obtain ⟨most, rfl⟩ : ∃ n, most = n + 1 := ⟨most - 1, by rw [List.length_cons] at hmost; omega⟩
    rw [List.length_cons] at hmost
    have hothers := fun j' h' => ih (j := j') h' hnext (Nat.le_of_succ_le_succ hmost)
    unfold Yields
    rw [readSuccessors, hsucc, if_neg (by decide), ends_bind]
    refine (h.requireHeader_of_stands hnext.stands offset).mono ?_ fun _ _ => False.elim
    rintro next j₁ ⟨rfl, h₁⟩
    -- whether the type is noted as different makes no difference to the rest
    split
    · rw [ends_bind, ends_note]
      exact At.yields_cons h₁ hnext.stands hothers
    · exact h₁.yields_cons hnext.stands hothers

/-- **A record that lies at an offset is read from there**, unless a trailer is at odds with its
segment. -/
theorem Anchored.ends_readRecord (h : j.state.Anchored m framed F) (hF : F.Opens)
    (hr : r.Lies F.contents.bytes k) :
    Ends
      (fun record j' => r.decode F.contents.bytes k = .ok record ∧ j'.state.Anchored m framed F)
      (fun e j' => ∃ d, e = .defect d ∧ r.decode F.contents.bytes k = .error d ∧
        j'.state.Anchored m framed F)
      (readRecord k j) := by
  have hstands := hr.chain.stands
  have hcomplete := hstands.complete
  obtain ⟨s', hseek, hat⟩ := h.seek_of_le hF (k := k) (by omega)
  unfold readRecord
  rw [ends_bind, ends_lift, hseek, ends_ok, ends_bind]
  refine (At.requireHeader_of_stands (j := ⟨s', j.notes⟩) hat hstands k).mono ?_
    fun _ _ => False.elim
  rintro - j₁ ⟨rfl, h₁⟩
  rw [ends_bind]
  refine (h₁.readPayload_of_stands hstands).mono ?_ ?_
  · rintro data j₂ ⟨hdata, h₂⟩
    have hmany := hr.chain.length_others_lt
    have hsize := h₂.length_contents_le
    rw [ends_bind, ends_state, extent_eq h₂.toAnchored, ends_bind]
    refine (h₂.readSuccessors_of_chain hr.chain (by omega) k _).mono ?_ ?_
    · rintro more j₃ ⟨hmore, h₃⟩
      refine ⟨?_, h₃⟩
      rw [RecordSpan.decode, RecordSpan.segments, RecordSpan.payloads, hdata, hmore]
      rfl
    · rintro e j₃ ⟨d, rfl, hmore, h₃⟩
      refine ⟨d, rfl, ?_, h₃⟩
      rw [RecordSpan.decode, RecordSpan.segments, RecordSpan.payloads, hdata, hmore]
      rfl
  · rintro e j₂ ⟨d, rfl, hdata, h₂⟩
    refine ⟨d, rfl, ?_, h₂⟩
    rw [RecordSpan.decode, RecordSpan.segments, RecordSpan.payloads, hdata]
    rfl

/-- Wherever one reads, and whatever comes of it, one may go on reading elsewhere. -/
theorem Anchored.readRecord_anchored (h : j.state.Anchored m framed F) (hF : F.Opens) (offset : Nat) :
    Ends (fun _ j' => j'.state.Anchored m framed F) (fun _ j' => j'.state.Anchored m framed F)
      (readRecord offset j) := by
  let O : Origin := ⟨m, framed, F⟩
  have htied : Tied O O j.state j.state := ⟨h, h⟩
  refine (htied.agree_readRecord (.refl F) hF offset).ends_self.mono ?_ ?_
  · rintro record j' ⟨-, h'⟩
    exact h'.left
  · rintro e j' ⟨-, h'⟩
    exact h'.left

/-- Records are read at some offsets, one after the other, and all that is kept is what came of it. -/
def readAttempts (offsets : List Nat) : Reading (List (Except FormatError Record)) :=
  offsets.mapM fun offset => attempt (readRecord offset)

theorem Anchored.ends_readAttempts (h : j.state.Anchored m framed F) (hF : F.Opens)
    (offsets : List Nat) :
    Ends (fun _ j' => j'.state.Anchored m framed F) (fun _ _ => False) (readAttempts offsets j) := by
  unfold readAttempts
  induction offsets generalizing j with
  | nil => exact h
  | cons offset offsets ih =>
    rw [List.mapM_cons, ends_bind, ends_attempt]
    refine (h.readRecord_anchored hF offset).mono ?_ ?_ <;>
    · intro _ j₁ h₁
      rw [ends_bind]
      exact (ih h₁).mono (fun _ _ h₂ => h₂) fun _ _ => id

end LogicalStream

end WellLog
