import WellLog.Proofs.Record.Twins
/-!
# The scan makes progress

A scan that begins with the header of a visible record leaves that record behind, whatever the bytes
are.  So the place where it stops is behind the place where it began, and only bytes that are no
record keep it from finding a record.

* `LogicalStream.At.ends_findRecords` : **the scan stops behind the place where it began**.
* `LogicalStream.keeps_findRecords`, `LogicalStream.keeps_extractRecords`,
  `LogicalStream.keeps_indexFrames` : a stream never forgets where it begins.
-/

namespace WellLog

/-- The contents of a feed that begins with a visible record have bytes, or are broken. -/
theorem Feed.Opens.ending_of_nil {F : Feed} (hF : F.Opens) (hnil : F.contents.bytes = []) :
    F.contents.ending = F.ending.inside := by
  obtain ⟨header, rest, hheader⟩ := hF
  have hpos := hheader.bodyLength_pos
  have hcontents : F.contents = Outlook.contents F.ending ⟨header.bodyLength, rest⟩ := by
    rw [Outlook.contents_enter hheader, Outlook.contents_zero, Feed.contents]
  rw [hcontents, Outlook.contents] at hnil ⊢
  split at hnil
  · rename_i hle
    have hlen := congrArg List.length hnil
    simp only [List.length_append, List.length_take, List.length_nil] at hlen hle
    omega
  · rw [if_neg ‹_›]

/-- Where an offset has been found, there are records. -/
theorem RecordIndex.isEmpty_eq_false {explicits implicits : Array Nat}
    (h : 0 < explicits.size + implicits.size) (ending : ScanEnd) (resume : Place) :
    isEmpty ⟨explicits.toList, implicits.toList, ending, resume⟩ = false := by
  simp only [RecordIndex.isEmpty, RecordIndex.size, Array.length_toList, beq_eq_false_iff_ne]
  omega

namespace LogicalStream

variable {m : Medium} {framed : Bool} {F : Feed} {j : Journalled LogicalStream}
  {s s' start : LogicalStream}

/-- The header of another logical file is found at the start of a visible record that the scan has
reached.  The first record is never taken for another logical file. -/
theorem ends_nextRecord_boundary (first : Bool) (j : Journalled LogicalStream) :
    Ends (fun found _ => ∀ place, found = .boundary place → first = false ∧
        ∃ s, j.state.Forward s ∧ s.visiblePosition = some (place, true))
      (fun _ _ => True) (nextRecord first j) := by
  unfold nextRecord
  rw [ends_bind, ends_liftRead]
  refine (proceeds_fill j.state).mono ?_ fun _ _ _ => trivial
  rintro b s ⟨hforward, -⟩
  split
  · exact fun _ => nofun
  · rw [ends_bind, ends_state, ends_bind, ends_liftRead]
    refine (Ends.trivial _).mono ?_ fun _ _ _ => trivial
    rintro found s₁ -
    cases found with
    | none => exact fun _ => nofun
    | some header =>
      simp only
      rw [ends_bind]
      refine (Ends.trivial _).mono ?_ fun _ _ _ => trivial
      rintro - j₁ -
      split
      · exact trivial
      · refine ends_pass (fun hopens place atStart hvisible => ?_) ?_
        · cases atStart with
          | false => exact trivial
          | true =>
            rintro _ ⟨⟩
            exact ⟨by simpa using (Bool.and_eq_true_iff.1 hopens).2, s, hforward, hvisible⟩
        · refine (Ends.trivial _).mono (fun _ _ _ => ?_) fun _ _ _ => trivial
          exact fun _ => nofun

/-- Behind the first record, the scan stops behind the place where it began. -/
theorem ends_collect_of_onward {most : Nat} {explicits implicits : Array Nat}
    (hcurrent : start.current = none) (h : start.Onward j.state)
    (hcount : 0 < explicits.size + implicits.size) :
    Ends (fun index _ => start.track.place.Passes index.resume ∧ index.isEmpty = false)
      (fun _ _ => True) (collect most explicits implicits j) := by
  refine ends_collect_keeps
    (I := fun explicits implicits j =>
      start.Onward j.state ∧ 0 < explicits.size + implicits.size)
    (fun _ _ _ h => ⟨h.1.track.place, RecordIndex.isEmpty_eq_false h.2 _ _⟩) ?_ ⟨h, hcount⟩
  rintro explicits implicits j ⟨h, hcount⟩
  have hboundary := ends_nextRecord_boundary (explicits.size + implicits.size == 0) j
  refine ((proceeds_nextRecord _ j).and hboundary).mono ?_ ?_
  · rintro found j₁ ⟨⟨hahead, -⟩, hplace⟩
    have hon : start.Onward j₁.state := advance.left h hahead
    cases found with
    | record offset explicit =>
      refine ⟨hon, ?_⟩
      rw [size_pushIf_add]
      exact Nat.succ_pos _
    | boundary place =>
      obtain ⟨-, s, hs, hvisible⟩ := hplace place rfl
      exact fun _ => ⟨(advance.left h hs).passes_of_visiblePosition hcurrent hvisible,
        RecordIndex.isEmpty_eq_false hcount _ _⟩
    | nothing => exact ⟨hon.track.place, RecordIndex.isEmpty_eq_false hcount _ _⟩
  · rintro e j₁ ⟨hahead, -⟩
    have hon : start.Onward j₁.state := advance.left h hahead
    unfold StepFails
    split
    · exact fun _ => ⟨hon.track.place, RecordIndex.isEmpty_eq_false hcount _ _⟩
    · exact trivial

/-- What is filled before a record is read is not read twice. -/
theorem nextRecord_of_fill {first : Bool} {notes : Array Note} (h : fill s = .ok true s')
    (hrem : s'.remaining ≠ 0) : nextRecord first ⟨s, notes⟩ = nextRecord first ⟨s', notes⟩ := by
  have hfilled : fill s' = .ok true s' := by
    rw [fill, bind_get, if_neg hrem]
    rfl
  have hlift : (liftM fill : Reading Bool) ⟨s, notes⟩ = (liftM fill : Reading Bool) ⟨s', notes⟩ := by
    change Logged.quiet (EStateM.adaptExcept FormatError.io fill) _ =
      Logged.quiet (EStateM.adaptExcept FormatError.io fill) _
    simp only [Logged.quiet, EStateM.adaptExcept, h, hfilled]
  unfold nextRecord
  simp only [bind, EStateM.bind, hlift]

/-- Where a visible record begins, the track goes on to it. -/
theorem At.ends_fill_onward (h : s.At m framed F 0) (hF : F.Opens) (hrem : s.remaining = 0) :
    Ends
      (fun b s' => b = true ∧ s'.At m framed F 0 ∧ s'.remaining ≠ 0 ∧ s.Forward s' ∧
        s.track.Onward s'.track)
      (fun _ _ => False) (fill s) := by
  obtain ⟨header, rest, hheader⟩ := hF
  have hmore : ¬ F.Exhausted 0 := by
    intro hno
    refine hno.no_header header rest ?_
    rw [Feed.outlook_zero]
    exact hheader
  have hgo : fill s = nextVisible s := by
    rw [fill, bind_get, if_pos hrem]
  refine (h.ends_fill.and (hgo ▸ proceeds_nextVisible s)).mono ?_ fun e s' he => hmore he.1.1
  rintro b s' ⟨⟨rfl, hat, hrem'⟩ | ⟨-, hno, -⟩, hforward, honward⟩
  · exact ⟨rfl, hat, hrem', hforward, honward rfl⟩
  · exact absurd hno hmore

/-- **The scan stops behind the place where it began.**  Without a record, it is broken. -/
theorem At.ends_findRecords (h : s.At m framed F 0) (hF : F.Opens) (hcurrent : s.current = none)
    (hrem : s.remaining = 0) (notes : Array Note) :
    Ends
      (fun index _ => s.track.place.Passes index.resume ∧
        (index.isEmpty = true → index.isBroken = true))
      (fun _ _ => True) (findRecords ⟨s, notes⟩) := by
  obtain ⟨_, s', hrun, rfl, hat, hrem', hforward, honward⟩ :=
    (h.ends_fill_onward hF hrem).exists_ok
  set O : Origin := ⟨m, framed, F⟩
  have hself : Twins O O 0 (Journalled.mk s' notes).state (Journalled.mk s' notes).state := ⟨hat, hat⟩
  unfold findRecords
  rw [ends_bind, ends_state]
  refine ends_collect_succ ?_
  have hcount : ((#[] : Array Nat).size + (#[] : Array Nat).size == 0) = true := rfl
  rw [hcount, nextRecord_of_fill hrun hrem']
  refine (((hself.agree_nextRecord (.refl F) true).ends_self.and
    (proceeds_nextRecord true _)).and (ends_nextRecord_boundary true _)).mono ?_ ?_
  · rintro found j₁ ⟨⟨hfound, hahead, hbeyond⟩, hboundary⟩
    cases found with
    | record offset explicit =>
      have hon : s.Onward j₁.state := advance.right hforward (hbeyond trivial)
      refine (ends_collect_of_onward hcurrent hon ?_).mono ?_ fun _ _ => id
      · rw [size_pushIf_add]
        exact Nat.succ_pos _
      · rintro index j₂ ⟨hpasses, hsome⟩
        exact ⟨hpasses, fun hnone => by rw [hsome] at hnone; cases hnone⟩
    | boundary place =>
      obtain ⟨hfirst, -⟩ := hboundary place rfl
      cases hfirst
    | nothing =>
      have ended : Over O O 0 j₁.state j₁.state := by
        cases hfound with
        | nothing ended => exact ended
      obtain ⟨stop, -, hending⟩ := ended.left.stopped
      have hnil : F.contents.bytes = [] := List.length_eq_zero_iff.1 ended.eq_length.symm
      rw [hF.ending_of_nil hnil] at hending
      cases hend : F.ending with
      | stopped stop place =>
        rw [hend] at hending
        cases hending
      | failed x =>
        rw [hend] at hending
        cases hending
  · rintro e j₁ ⟨⟨-, hahead⟩, -⟩
    unfold StepFails
    split
    · exact fun _ => ⟨(Track.advance.left honward (Forward.track hahead)).place, fun _ => rfl⟩
    · exact trivial

/-- A scan that is not broken stops where the track can be taken up again. -/
theorem At.ends_findRecords_held {k : Nat} (h : s.At m framed F k) (notes : Array Note) :
    Ends
      (fun index _ => index.isBroken = false → framed = true → index.resume.Held m)
      (fun _ _ => True) (findRecords ⟨s, notes⟩) := by
  set O : Origin := ⟨m, framed, F⟩
  have hself : Twins O O k (Journalled.mk s notes).state (Journalled.mk s notes).state := ⟨h, h⟩
  refine (hself.agree_findRecords (.refl F)).ends_self.mono ?_ fun _ _ _ => trivial
  rintro index j' ⟨halike, -⟩ hbroken hframed
  have hstop : ∀ stop, O.feed.ending = .stopped stop index.resume → index.resume.Held m :=
    fun stop => (Medium.endsBehind_feedAt h.origin).held stop index.resume
  cases hending : index.ending with
  | boundary =>
    obtain ⟨bytes, hfeed, -, header, rest, a, b, c, d, rfl, -, -⟩ := halike.boundary hending
    exact Medium.held_of_feedAt hfeed (List.cons_ne_nil _ _) hframed
  | fileMark =>
    obtain ⟨stop, hfeed, -, -⟩ := halike.stopped (.inl hending)
    exact hstop stop hfeed
  | mediumEnd =>
    obtain ⟨stop, hfeed, -, -⟩ := halike.stopped (.inr hending)
    exact hstop stop hfeed
  | broken =>
    rw [RecordIndex.isBroken, hending] at hbroken
    cases hbroken

/-! ### A stream begins where it began -/

/-- Both streams begin at the same place. -/
def SameOrigin (s s' : LogicalStream) : Prop := s'.origin = s.origin

theorem sameOrigin : Advance SameOrigin SameOrigin where
  refl _ := rfl
  trans h h' := Eq.trans h' h
  weaken := id
  left h h' := Eq.trans h' h
  right h h' := Eq.trans h' h

/-- The computation does not change where the stream begins. -/
abbrev Keeps {α : Type} (x : Reading α) : Prop :=
  Proceeds (InvImage SameOrigin Journalled.state) (InvImage SameOrigin Journalled.state)
    (fun _ => False) x

theorem keeps_of_proceeds {α : Type} {P : α → Prop} {x : Reading α} (h : Proceeds Ahead Beyond P x) :
    Keeps x := h.weaken fun h => Forward.origin h

theorem keeps_seek (offset : Nat) :
    Proceeds SameOrigin SameOrigin (fun _ : Unit => False) (seek offset) := by
  intro s
  rw [seek_eq, ends_bind, ends_onTrack]
  refine (Ends.trivial _).mono ?_ fun _ _ _ => rfl
  rintro - t -
  rw [ends_bind, ends_modify, ends_bind, ends_liftIo]
  refine (proceeds_fill _).mono ?_ fun _ _ h => h.origin
  rintro b s₁ ⟨h₁, -⟩
  have horigin : s₁.origin = s.origin := h₁.origin
  rw [ends_liftIo]
  refine (proceeds_skip _ s₁).mono ?_ fun _ s₂ h₂ => h₂.origin.trans horigin
  rintro - s₂ ⟨h₂, -⟩
  exact ⟨h₂.origin.trans horigin, False.elim⟩

theorem keeps_readRecord (offset : Nat) : Keeps (readRecord offset) := by
  unfold readRecord
  refine .bind sameOrigin.journalled (keeps_seek offset).lift fun _ => ?_
  refine .bind sameOrigin.journalled (keeps_of_proceeds (proceeds_requireHeader _)) fun _ => ?_
  refine .bind sameOrigin.journalled (keeps_of_proceeds (proceeds_readPayload _)) fun _ => ?_
  refine .bind sameOrigin.journalled (.state sameOrigin) fun _ => ?_
  refine .bind sameOrigin.journalled (keeps_of_proceeds (proceeds_readSuccessors _ _ _ _)) fun _ => ?_
  exact .pure sameOrigin.journalled id

theorem keeps_readIntact (offset : Nat) (what : String) : Keeps (readIntact offset what) := by
  unfold readIntact
  refine .bind sameOrigin.journalled (keeps_readRecord offset).attempt fun found => ?_
  cases found with
  | ok record => exact .pure sameOrigin.journalled id
  | error e =>
    simp only
    split
    · exact .bind sameOrigin.journalled (.note sameOrigin) fun _ => .pure sameOrigin.journalled id
    · exact .throw sameOrigin.journalled

theorem keeps_extractRecords (offsets : List Nat) : Keeps (extractRecords offsets) := by
  unfold extractRecords
  refine .bind sameOrigin.journalled
    (.filterMapM sameOrigin.journalled (keeps_readIntact · _) offsets) fun _ => ?_
  exact .bind sameOrigin.journalled (.note sameOrigin) fun _ => .pure sameOrigin.journalled id

theorem keeps_frameAt (offset : Nat) : Keeps (frameAt offset) := by
  unfold frameAt
  refine .bind sameOrigin.journalled (keeps_readIntact offset _) fun found => ?_
  cases found with
  | none => exact .pure sameOrigin.journalled id
  | some record =>
    simp only
    split
    · exact .pure sameOrigin.journalled id
    · cases record.frame with
      | ok frame => exact .pure sameOrigin.journalled id
      | error d =>
        exact .bind sameOrigin.journalled (.note sameOrigin) fun _ => .pure sameOrigin.journalled id

theorem keeps_indexFrames (offsets : List Nat) : Keeps (indexFrames offsets) := by
  unfold indexFrames
  refine .bind sameOrigin.journalled (.filterMapM sameOrigin.journalled (fun offset => ?_) offsets)
    fun _ => ?_
  · exact .bind sameOrigin.journalled (keeps_frameAt offset) fun _ => .pure sameOrigin.journalled id
  · exact .bind sameOrigin.journalled (.note sameOrigin) fun _ => .pure sameOrigin.journalled id

theorem proceeds_collect (most : Nat) (explicits implicits : Array Nat) :
    Proceeds Ahead Beyond (fun _ => False) (collect most explicits implicits) := by
  induction most generalizing explicits implicits with
  | zero => exact .bind advance_reading (.state advance) fun _ => .pure advance_reading id
  | succ most ih =>
    unfold collect
    refine .bind advance_reading (proceeds_nextRecord _).attempt fun found => ?_
    cases found with
    | ok found =>
      cases found with
      | record offset explicit =>
        simp only
        split
        · exact ih _ _
        · exact ih _ _
      | boundary place =>
        exact .bind advance_reading (.note advance) fun _ => .pure advance_reading id
      | nothing => exact .bind advance_reading (.state advance) fun _ => .pure advance_reading id
    | error e =>
      simp only
      split
      · exact .bind advance_reading (.state advance) fun _ =>
          .bind advance_reading (.note advance) fun _ => .pure advance_reading id
      · exact .throw advance_reading

theorem keeps_findRecords : Keeps findRecords :=
  .bind sameOrigin.journalled (.state sameOrigin) fun _ => keeps_of_proceeds (proceeds_collect _ _ _)

end LogicalStream

end WellLog
