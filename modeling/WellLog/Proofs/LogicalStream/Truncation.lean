import WellLog.Proofs.LogicalStream.Outlook
/-!
# Images that are cut off

An image is cut off anywhere: in a tape mark, in the header of a visible record, in its body, or
between two of them.  Each cut is met by another branch of the reading, and all of them come to the
same: what is delivered from the cut image is the beginning of what is delivered from the whole one.

* `Medium.Cut m m'` : the image of `m'` is the beginning of that of `m`.
* `Medium.Cut.feedAt` : the bytes of a track on the cut image are the first bytes of the same track
  on the whole one.
* `unwrap_prefix` : **so are the contents of visible records.**
-/

namespace WellLog

theorem take_prefix_take {α : Type} {l l' : List α} (h : l' <+: l) (n : Nat) :
    l'.take n <+: l.take n := by
  obtain ⟨more, rfl⟩ := h
  rw [List.take_append]
  exact List.prefix_append _ _

theorem drop_prefix_drop {α : Type} {l l' : List α} (h : l' <+: l) (n : Nat) :
    l'.drop n <+: l.drop n := by
  obtain ⟨more, rfl⟩ := h
  rw [List.drop_append]
  exact List.prefix_append _ _

/-- Media without faults, where the image of `m'` is the beginning of that of `m`. -/
structure Medium.Cut (m m' : Medium) : Prop where
  /-- The cut image is the beginning of the whole one. -/
  bytes : m'.bytes.toList <+: m.bytes.toList
  /-- Reading the whole image does not fail. -/
  fault : m.manner.fault = none
  /-- Reading the cut image does not fail. -/
  fault' : m'.manner.fault = none

namespace Medium.Cut

variable {m m' : Medium} {framed : Bool} {p : Place} {F' : Feed}

theorem bytesFrom (h : m.Cut m') (o : Nat) : m'.bytesFrom o <+: m.bytesFrom o := by
  rw [bytesFrom_of_faultless h.fault, bytesFrom_of_faultless h.fault']
  exact drop_prefix_drop h.bytes o

/-- A tape mark that is there on the cut image is there on the whole one. -/
theorem markAt (h : m.Cut m') {o : Nat} {k : TapeMark} (hmark : m'.markAt o = .ok (some k)) :
    m.markAt o = .ok (some k) := by
  have hbytes := take_prefix_take (h.bytesFrom o) TapeMark.size
  simp only [Medium.markAt] at hmark ⊢
  split at hmark
  · rename_i hfull
    have heq : (m'.bytesFrom o).take TapeMark.size = (m.bytesFrom o).take TapeMark.size :=
      hbytes.eq_of_length_le (by rw [hfull]; exact List.length_take_le _ _)
    rwa [← heq, if_pos hfull]
  · split at hmark
    · cases hmark
    · split at hmark <;> cases hmark

/-- The bytes of a record, which may be cut off, and the bytes behind it. -/
theorem throughRecord (h : m.Cut m') (s : TapeRecord) {next next' : Feed}
    (hnext : next'.bytes <+: next.bytes) :
    (m'.throughRecord s next').bytes <+: (m.throughRecord s next).bytes := by
  have hbytes := take_prefix_take (h.bytesFrom s.tell) s.remaining
  have hlen : ((m.bytesFrom s.tell).take s.remaining).length ≤ s.remaining :=
    List.length_take_le _ _
  simp only [Medium.throughRecord]
  split
  · rename_i hfull
    have heq := hbytes.eq_of_length_le (by rw [hfull]; exact hlen)
    rw [← heq, if_pos hfull]
    exact (List.prefix_append_right_inj _).2 hnext
  · split
    · exact hbytes.trans (List.prefix_append _ _)
    · exact hbytes

/-- The bytes from a tape mark on. -/
theorem feedFrom (h : m.Cut m') (o : Nat) : (m'.feedFrom o).bytes <+: (m.feedFrom o).bytes := by
  fun_induction Medium.feedFrom m' o with
  | case4 o k hmark hfits hk ih =>
    rw [Medium.feedFrom_of_record (h.markAt hmark) hfits hk]
    exact h.throughRecord _ ih
  | _ => exact List.nil_prefix

/-- **The bytes of a track on the cut image are the first bytes of the same track on the whole one.**
Where there is no such track, nothing is lost: there are no bytes on the cut image either. -/
theorem feedAt (h : m.Cut m') (hF' : m'.feedAt framed p = .ok F') :
    match m.feedAt framed p with
    | .ok F => F'.bytes <+: F.bytes
    | .error _ => F'.bytes = [] := by
  cases framed with
  | false =>
    cases hF'
    exact h.bytesFrom _
  | true =>
    simp only [Medium.feedAt, if_true] at hF'
    cases hmark : m'.markAt p.offset with
    | error e =>
      rw [hmark] at hF'
      cases hF'
    | ok found =>
      rw [hmark] at hF'
      cases found with
      | none =>
        -- the image is cut off in front of the mark, which may be any bytes
        cases hF'
        split
        · exact List.nil_prefix
        · rfl
      | some k =>
        simp only [Medium.feedAt, if_true, h.markAt hmark] at hF' ⊢
        by_cases hfits : k.Fits p.offset
        · rw [if_pos hfits] at hF' ⊢
          by_cases hk : k.IsFileMark
          · rw [if_pos hk] at hF' ⊢
            cases hF'
            exact List.nil_prefix
          · rw [if_neg hk] at hF' ⊢
            by_cases hskip : k.dataLength p.offset < p.skip
            · rw [if_pos hskip] at hF'
              cases hF'
            · rw [if_neg hskip] at hF' ⊢
              cases hF'
              exact h.throughRecord _ (h.feedFrom _)
        · rw [if_neg hfits] at hF'
          cases hF'

end Medium.Cut

/-- **The contents of visible records that are cut off** are the first bytes of the whole ones. -/
theorem unwrap_prefix (ending ending' : Ending) {bytes bytes' : List UInt8}
    (h : bytes' <+: bytes) : (unwrap ending' bytes').bytes <+: (unwrap ending bytes).bytes := by
  revert bytes
  fun_induction unwrap ending' bytes' with
  | case2 a b c d rest header hvalid hlen others =>
    rename_i ih
    -- the visible record is whole, and the same on both sides
    rintro _ ⟨more, rfl⟩
    have hlen' : header.bodyLength ≤ (rest ++ more).length := by
      rw [List.length_append]
      omega
    simp only [List.cons_append]
    rw [unwrap]
    simp only [header] at *
    rw [if_pos hvalid, if_pos hlen', List.take_append_of_le_length hlen]
    refine (List.prefix_append_right_inj _).2 (ih ?_)
    rw [List.drop_append_of_le_length hlen]
    exact List.prefix_append _ _
  | case3 a b c d rest header hvalid =>
    rename_i hlen
    -- the visible record is cut off, and all that is there of it is delivered
    rintro _ ⟨more, rfl⟩
    simp only [List.cons_append]
    rw [unwrap]
    simp only [header] at *
    rw [if_pos hvalid]
    split
    · rw [List.take_append, List.take_of_length_le (Nat.le_of_not_le hlen), List.append_assoc]
      exact List.prefix_append _ _
    · exact List.prefix_append _ _
  | _ => exact fun _ => List.nil_prefix

/-- The contents of a feed that is cut off. -/
theorem Feed.contents_prefix {F F' : Feed} (h : F'.bytes <+: F.bytes) :
    F'.contents.bytes <+: F.contents.bytes := unwrap_prefix F.ending F'.ending h

/-- Contents that are not empty begin with a visible record. -/
theorem Feed.opens_of_contents {F : Feed} (h : F.contents.bytes ≠ []) : F.Opens := by
  by_contra hno
  exact h (Outlook.unwrap_of_short fun header rest hheader => hno ⟨header, rest, hheader⟩)

end WellLog
