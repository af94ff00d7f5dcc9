import WellLog.Proofs.Segment
/-!
# Streams with the same contents

The same bytes can come from different media, in different pieces, with or without tape marks.  Two
logical streams at the same offset of the same contents are `Twins`.  Whatever is read from one of
them is read from the other, up to the places, which belong to the medium.

* `Feed.Alike.contents` : feeds that are alike have contents that are alike.
* `LogicalStream.Twins.agree_fill`, `LogicalStream.Twins.agree_gather`,
  `LogicalStream.Twins.agree_readHeader`, `LogicalStream.Tied.agree_seek` : **twins remain twins**.
-/

namespace WellLog

/-- Endings for the same reason, at places of their own. -/
inductive Ending.Alike : Ending → Ending → Prop where
  /-- The tracks stop. -/
  | stopped (stop : Stop) (p p' : Place) : Alike (.stopped stop p) (.stopped stop p')
  /-- Reading fails. -/
  | failed {e e' : IoError} (kind : e.kind = e'.kind) : Alike (.failed e) (.failed e')

/-- Ends of contents for the same reason, at places of their own. -/
inductive ContentsEnd.Alike : ContentsEnd → ContentsEnd → Prop where
  /-- The tracks stop. -/
  | ended (stop : Stop) (p p' : Place) : Alike (.ended stop p) (.ended stop p')
  /-- The contents are broken. -/
  | broken (kind : IoKind) : Alike (.broken kind) (.broken kind)

/-- Feeds with the same bytes that end alike. -/
structure Feed.Alike (F F' : Feed) : Prop where
  /-- The bytes. -/
  bytes : F'.bytes = F.bytes
  /-- The endings. -/
  ending : F.ending.Alike F'.ending

theorem ContentsEnd.Alike.shortage {c c' : ContentsEnd} (h : c.Alike c') :
    c'.shortage = c.shortage := by
  cases h <;> rfl

theorem Ending.Alike.between {e e' : Ending} (h : e.Alike e') : e.between.Alike e'.between := by
  cases h with
  | stopped stop p p' => exact .ended stop p p'
  | failed kind =>
    simp only [Ending.between, kind]
    exact .broken _

theorem Ending.Alike.inside {e e' : Ending} (h : e.Alike e') : e.inside.Alike e'.inside := by
  cases h with
  | stopped stop p p' => exact .broken _
  | failed kind =>
    simp only [Ending.inside, kind]
    exact .broken _

theorem unwrap_alike {e e' : Ending} (h : e.Alike e') (bytes : List UInt8) :
    (unwrap e' bytes).bytes = (unwrap e bytes).bytes ∧
      (unwrap e bytes).ending.Alike (unwrap e' bytes).ending := by
  fun_induction unwrap e bytes with
  | case1 => rw [unwrap]; exact ⟨rfl, h.between⟩
  | case2 a b c d rest header hvalid hlen others ih =>
    rw [unwrap]
    simp only [header] at hvalid hlen
    simp only [if_pos hvalid, if_pos hlen]
    exact ⟨congrArg _ ih.1, ih.2⟩
  | case3 a b c d rest header hvalid hlen =>
    rw [unwrap]
    simp only [header] at hvalid hlen
    simp only [if_pos hvalid, if_neg hlen]
    exact ⟨trivial, h.inside⟩
  | case4 a b c d rest header hvalid =>
    rw [unwrap]
    simp only [header] at hvalid
    simp only [if_neg hvalid]
    exact ⟨trivial, .broken _⟩
  | case5 bytes hne hno =>
    rw [unwrap.eq_3 _ _ hne hno]
    exact ⟨rfl, h.inside⟩

namespace Feed.Alike

variable {F F' : Feed} {k : Nat}

theorem refl (F : Feed) : F.Alike F := by
  refine ⟨rfl, ?_⟩
  cases F.ending with
  | stopped stop p => exact .stopped stop p p
  | failed e => exact .failed rfl

theorem contents (h : F.Alike F') : F'.contents.bytes = F.contents.bytes ∧
    F.contents.ending.Alike F'.contents.ending := by
  rw [Feed.contents, Feed.contents, h.bytes]
  exact unwrap_alike h.ending F.bytes

theorem outlook (h : F.Alike F') (k : Nat) : F'.outlook k = F.outlook k := by
  rw [Feed.outlook, Feed.outlook, h.bytes]

theorem exhausted (h : F.Alike F') : F'.Exhausted k ↔ F.Exhausted k := by
  constructor
  · rintro ⟨hlen, hrem, hno⟩
    rw [h.contents.1] at hlen
    rw [h.outlook] at hrem hno
    exact ⟨hlen, hrem, hno⟩
  · rintro ⟨hlen, hrem, hno⟩
    rw [← h.contents.1] at hlen
    rw [← h.outlook] at hrem hno
    exact ⟨hlen, hrem, hno⟩

theorem opens (h : F.Alike F') (hF : F.Opens) : F'.Opens := by
  rw [Feed.Opens, h.bytes]
  exact hF

end Feed.Alike

/-- Where a logical stream is read from. -/
structure Origin where
  /-- The medium. -/
  medium : Medium
  /-- Tape marks are stepped over. -/
  framed : Bool
  /-- What the track delivers from the first visible record on. -/
  feed : Feed

namespace LogicalStream

variable {O O' : Origin} {k n : Nat} {s s' : LogicalStream}

/-- Two streams that know places in their contents. -/
structure Tied (O O' : Origin) (s s' : LogicalStream) : Prop where
  /-- The one. -/
  left : s.Anchored O.medium O.framed O.feed
  /-- The other. -/
  right : s'.Anchored O'.medium O'.framed O'.feed

/-- Two streams behind the first `k` bytes of their contents. -/
structure Twins (O O' : Origin) (k : Nat) (s s' : LogicalStream) : Prop where
  /-- The one. -/
  left : s.At O.medium O.framed O.feed k
  /-- The other. -/
  right : s'.At O'.medium O'.framed O'.feed k

/-- Two streams at the end of their contents, where their tracks have stopped. -/
structure Over (O O' : Origin) (k : Nat) (s s' : LogicalStream) : Prop where
  /-- There is no further byte. -/
  eq_length : k = O.feed.contents.bytes.length
  /-- The one. -/
  left : s.AtEnd O.medium O.framed O.feed
  /-- The other. -/
  right : s'.AtEnd O'.medium O'.framed O'.feed

/-- Two failures of the same kind. -/
def SameKind (O O' : Origin) (e : IoError) (s : LogicalStream) (e' : IoError) (s' : LogicalStream) :
    Prop := e.kind = e'.kind ∧ Tied O O' s s'

theorem Twins.tied (h : Twins O O' k s s') : Tied O O' s s' :=
  ⟨h.left.toAnchored, h.right.toAnchored⟩

theorem Over.tied (h : Over O O' k s s') : Tied O O' s s' :=
  ⟨h.left.toAnchored, h.right.toAnchored⟩

section

variable (hF : O.feed.Alike O'.feed)
include hF

/-- An end of the contents is no failure. -/
theorem not_fails_of_atEnd {e : IoError} (h : s.AtEnd O.medium O.framed O.feed)
    (h' : s'.Fails O'.medium O'.framed O'.feed e) : False := by
  obtain ⟨stop, -, hending⟩ := h.stopped
  have halike := hF.contents.2
  rw [hending, h'.broken] at halike
  cases halike

theorem not_atEnd_of_fails {e : IoError} (h : s.Fails O.medium O.framed O.feed e)
    (h' : s'.AtEnd O'.medium O'.framed O'.feed) : False := by
  obtain ⟨stop, -, hending⟩ := h'.stopped
  have halike := hF.contents.2
  rw [hending, h.broken] at halike
  cases halike

theorem sameKind_of_short {e e' : IoError} (h : s.Short O.medium O.framed O.feed e)
    (h' : s'.Short O'.medium O'.framed O'.feed e') : SameKind O O' e s e' s' :=
  ⟨by rw [h.kind, h'.kind, hF.contents.2.shortage], h.toAnchored, h'.toAnchored⟩

/-- Twins enter their next visible records together. -/
theorem Twins.agree_fill (h : Twins O O' k s s') :
    Agree (fun b t b' t' => b = true ∧ b' = true ∧ Twins O O' k t t' ∧ t.remaining ≠ 0 ∧
          t'.remaining ≠ 0 ∨
        b = false ∧ b' = false ∧ Over O O' k t t')
      (SameKind O O') (fill s) (fill s') := by
  refine agree_of_ends h.left.ends_fill h.right.ends_fill ?_ ?_ ?_ ?_
  · rintro b t b' t' (⟨rfl, hat, hrem⟩ | ⟨rfl, hno, hend⟩) (⟨rfl, hat', hrem'⟩ | ⟨rfl, hno', hend'⟩)
    · exact .inl ⟨rfl, rfl, ⟨hat, hat'⟩, hrem, hrem'⟩
    · exact absurd (hF.exhausted.1 hno') (hat.not_exhausted hrem)
    · exact absurd (hF.exhausted.2 hno) (hat'.not_exhausted hrem')
    · exact .inr ⟨rfl, rfl, hno.eq_length, hend, hend'⟩
  · rintro e t e' t' ⟨-, hfails⟩ ⟨-, hfails'⟩
    exact sameKind_of_short hF hfails.short hfails'.short
  · rintro b t e' t' (⟨-, hat, hrem⟩ | ⟨-, -, hend⟩) ⟨hno', hfails'⟩
    · exact hat.not_exhausted hrem (hF.exhausted.1 hno')
    · exact not_fails_of_atEnd hF hend hfails'
  · rintro e t b' t' ⟨hno, hfails⟩ (⟨-, hat', hrem'⟩ | ⟨-, -, hend'⟩)
    · exact hat'.not_exhausted hrem' (hF.exhausted.2 hno)
    · exact not_atEnd_of_fails hF hfails hend'

/-- Gathering delivers the same bytes. -/
theorem Twins.agree_gather (h : Twins O O' k s s') (n : Nat) :
    Agree (fun got t got' t' => got' = got ∧
        (got.length = n ∧ Twins O O' (k + n) t t' ∨ got.length < n ∧ Tied O O' t t'))
      (SameKind O O') (gather read n s) (gather read n s') := by
  have hlen := congrArg List.length hF.contents.1
  by_cases hn : k + n ≤ O.feed.contents.bytes.length
  · obtain ⟨t, hg, hat⟩ := h.left.gather_of_le hn
    obtain ⟨t', hg', hat'⟩ := h.right.gather_of_le (n := n) (by omega)
    rw [hg, hg', hF.contents.1]
    refine ⟨rfl, .inl ⟨?_, hat, hat'⟩⟩
    rw [List.length_take, List.length_drop]
    omega
  · have hlt := Nat.lt_of_not_le hn
    refine agree_of_ends (h.left.ends_gather_of_lt hlt) (h.right.ends_gather_of_lt (by omega))
      ?_ ?_ ?_ ?_
    · rintro got t got' t' ⟨rfl, hend⟩ ⟨rfl, hend'⟩
      rw [hF.contents.1, List.length_drop]
      exact ⟨rfl, .inr ⟨by have := h.left.le_length; omega, hend.toAnchored, hend'.toAnchored⟩⟩
    · exact fun e t e' t' hfails hfails' => sameKind_of_short hF hfails.short hfails'.short
    · exact fun _ t e' t' hend hfails => not_fails_of_atEnd hF hend.2 hfails
    · exact fun e t _ t' hfails hend => not_atEnd_of_fails hF hfails hend.2

theorem Twins.agree_skip (h : Twins O O' k s s') (n : Nat) :
    Agree (fun _ t _ t' => Twins O O' (k + n) t t') (SameKind O O') (skip n s) (skip n s') := by
  have hlen := congrArg List.length hF.contents.1
  by_cases hn : k + n ≤ O.feed.contents.bytes.length
  · obtain ⟨t, hs, hat⟩ := h.left.skip_of_le hn
    obtain ⟨t', hs', hat'⟩ := h.right.skip_of_le (n := n) (by omega)
    rw [hs, hs']
    exact ⟨hat, hat'⟩
  · have hlt := Nat.lt_of_not_le hn
    exact agree_of_ends (h.left.ends_skip_of_lt hlt) (h.right.ends_skip_of_lt (by omega))
      (fun _ _ _ _ => False.elim) (fun _ _ _ _ => sameKind_of_short hF)
      (fun _ _ _ _ h _ => h) fun _ _ _ _ _ h => h

/-- Headers that are read are the same. -/
theorem Twins.agree_readHeader (h : Twins O O' k s s') :
    Agree (fun found t found' t' => found' = found ∧
        match found with
        | some _ => Twins O O' (k + SegmentHeader.size) t t'
        | none => Over O O' k t t')
      (SameKind O O') (SegmentHeader.read s) (SegmentHeader.read s') := by
  have hlen := congrArg List.length hF.contents.1
  have hread' := h.right.ends_readHeader
  rw [hF.contents.1] at hread'
  refine agree_of_ends h.left.ends_readHeader hread' ?_ ?_ ?_ ?_
  · rintro found t found' t' ⟨rfl, hfound⟩ ⟨rfl, hfound'⟩
    refine ⟨rfl, ?_⟩
    cases htake : SegmentHeader.take? (O.feed.contents.bytes.drop k) with
    | some header =>
      rw [htake] at hfound hfound'
      exact ⟨hfound, hfound'⟩
    | none =>
      rw [htake] at hfound hfound'
      exact ⟨hfound.1, hfound.2, hfound'.2⟩
  · rintro e t e' t' ⟨-, hshort, -⟩ ⟨-, hshort', -⟩
    exact sameKind_of_short hF hshort hshort'
  · rintro found t e' t' ⟨rfl, hfound⟩ ⟨hnone, -, hfails⟩
    rw [hnone] at hfound
    exact not_fails_of_atEnd hF hfound.2 (hfails hfound.1)
  · rintro e t found' t' ⟨hnone, -, hfails⟩ ⟨rfl, hfound⟩
    rw [hnone] at hfound
    exact not_atEnd_of_fails hF (hfails hfound.1) hfound.2

/-- **Every offset is reached in both streams, or in none.** -/
theorem Tied.agree_seek (h : Tied O O' s s') (hopens : O.feed.Opens) (k : Nat) :
    Agree (fun _ t _ t' => Twins O O' k t t')
      (fun e t e' t' => ∃ x x', e = .io x ∧ e' = .io x' ∧ SameKind O O' x t x' t')
      (seek k s) (seek k s') := by
  have hlen := congrArg List.length hF.contents.1
  by_cases hk : k ≤ O.feed.contents.bytes.length
  · obtain ⟨t, hs, hat⟩ := h.left.seek_of_le hopens hk
    obtain ⟨t', hs', hat'⟩ := h.right.seek_of_le (hF.opens hopens) (k := k) (by omega)
    rw [hs, hs']
    exact ⟨hat, hat'⟩
  · have hlt := Nat.lt_of_not_le hk
    refine agree_of_ends (h.left.ends_seek_of_lt hopens hlt)
      (h.right.ends_seek_of_lt (hF.opens hopens) (by omega)) (fun _ _ _ _ => False.elim) ?_
      (fun _ _ _ _ h _ => h) fun _ _ _ _ _ h => h
    rintro e t e' t' ⟨x, rfl, hshort⟩ ⟨x', rfl, hshort'⟩
    exact ⟨x, x', rfl, rfl, sameKind_of_short hF hshort hshort'⟩

/-- Twins in visible records know whether they are at the start of them, and the places lead to the
rest of the feeds. -/
theorem Twins.visiblePosition (h : Twins O O' k s s') (hrem : s.remaining ≠ 0)
    (hrem' : s'.remaining ≠ 0) :
    ∃ p p' start, s.visiblePosition = some (p, start) ∧ s'.visiblePosition = some (p', start) ∧
      (start = true → ∃ bytes, O.medium.feedAt O.framed p = .ok ⟨bytes, O.feed.ending⟩ ∧
        O'.medium.feedAt O'.framed p' = .ok ⟨bytes, O'.feed.ending⟩ ∧
        ∃ header rest, HeaderAt bytes header rest) := by
  obtain ⟨p, hp, hplace⟩ := h.left.visiblePosition_eq hrem
  obtain ⟨p', hp', hplace'⟩ := h.right.visiblePosition_eq hrem'
  rw [hF.outlook] at hp' hplace'
  refine ⟨p, p', _, hp, hp', fun hstart => ?_⟩
  have hzero := of_decide_eq_true hstart
  exact ⟨_, (hplace hzero).1, (hplace' hzero).1, (hplace hzero).2⟩

end

end LogicalStream

end WellLog
