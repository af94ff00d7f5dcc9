import WellLog.Proofs.LogicalStream.Outlook
/-!
# Where the next header is looked for

A logical stream takes the next four bytes of its track for the header of a visible record.  What
becomes of it depends on the bytes that the track has ahead, and on how the track ends.

The bytes are used up before they are looked at.  If they are no header, nothing else has changed
(`LogicalStream.OnlyTrack`), and the four bytes behind them are the next ones to be taken for one.

* `headerFault?` : the failure, if no header lies ahead.
* `LogicalStream.ends_nextVisible_of_delivers` : **the next visible record is entered, the stream
  ends, or it fails in this way.**
-/

namespace WellLog

/-- The failure without the offset that is named with a header cut short. -/
def IoError.unplaced : IoError → IoError
  | headerCut _ => headerCut 0
  | e => e

@[simp] theorem IoError.kind_unplaced (e : IoError) : e.unplaced.kind = e.kind := by
  cases e <;> rfl

/-- The failure of a visible record header that is malformed or cut short. -/
def IoError.IsHeaderFault : IoError → Prop
  | malformed (.visibleRecord _ _ _) => True
  | headerCut _ => True
  | _ => False

/-- The failure of a visible record header that is malformed or cut short. -/
def FormatError.IsHeaderFault : FormatError → Prop
  | io e => e.IsHeaderFault
  | defect _ => False

/-- The failure of a read that needs a byte where there is none: that of the track, or `short` if
the track has stopped. -/
def Ending.fault (short : IoError) : Ending → IoError
  | stopped _ _ => short
  | failed e => e.unplaced

theorem Ending.inside_eq (ending : Ending) {short : IoError} (h : short.kind = .unexpectedEof) :
    ending.inside = .broken (ending.fault short).kind := by
  cases ending with
  | stopped _ _ => exact congrArg ContentsEnd.broken h.symm
  | failed e => exact congrArg ContentsEnd.broken e.kind_unplaced.symm

/-- The failure of a read in front of the next header, where no byte of a visible record follows. -/
def headerFault? (ending : Ending) : List UInt8 → Option IoError
  | a :: b :: c :: d :: _ =>
    let header := VisibleHeader.ofBytes a b c d
    some (if header.IsValid then ending.fault (.recordCut header.bodyLength)
      else .malformed header.invalid)
  | [] =>
    match ending with
    | .stopped _ _ => none
    | .failed e => some e.unplaced
  | _ => some (ending.fault (.headerCut 0))

section headerFault

variable {ending : Ending} {bytes : List UInt8}

theorem headerFault?_of_lt (hne : bytes ≠ []) (hlt : bytes.length < VisibleHeader.size) :
    headerFault? ending bytes = some (ending.fault (.headerCut 0)) := by
  match bytes, hlt with
  | [], _ => exact absurd rfl hne
  | [_], _ | [_, _], _ | [_, _, _], _ => rfl
  | _ :: _ :: _ :: _ :: rest, hlt =>
    simp only [List.length_cons, VisibleHeader.size] at hlt
    omega

/-- Where the next header fails, so do the contents. -/
theorem unwrap_of_headerFault {e : IoError} (hno : ¬ Headed bytes)
    (h : headerFault? ending bytes = some e.unplaced) :
    unwrap ending bytes = ⟨[], .broken e.kind⟩ := by
  by_cases hlen : VisibleHeader.size ≤ bytes.length
  · obtain ⟨a, b, c, d, rest, rfl⟩ := exists_four hlen
    have hvalid : ¬ (VisibleHeader.ofBytes a b c d).IsValid := mt headed_iff.2 hno
    rw [headerFault?, if_neg hvalid, Option.some.injEq] at h
    rw [unwrap_of_not_isValid hvalid, ← e.kind_unplaced, ← h]
    rfl
  · by_cases hne : bytes = []
    · subst hne
      rw [unwrap_nil]
      cases ending with
      | stopped _ _ => cases h
      | failed x =>
        rw [headerFault?, Option.some.injEq] at h
        rw [Ending.between, ← x.kind_unplaced, h, e.kind_unplaced]
    · have hlt := Nat.lt_of_not_le hlen
      rw [headerFault?_of_lt hne hlt, Option.some.injEq] at h
      have hinside : ending.inside = .broken (ending.fault (.headerCut 0)).kind :=
        ending.inside_eq rfl
      rw [unwrap_of_length_lt hne hlt, hinside, h, e.kind_unplaced]

end headerFault

namespace LogicalStream

variable {m : Medium} {framed : Bool} {ending : Ending} {s s' s'' : LogicalStream}

theorem ends_onTrack {ε α : Type} {Q : α → LogicalStream → Prop} {E : ε → LogicalStream → Prop}
    {x : EStateM ε Track α} :
    Ends Q E (onTrack x s) ↔
      Ends (fun a t => Q a { s with track := t }) (fun e t => E e { s with track := t })
        (x s.track) := by
  simp only [onTrack]
  cases x s.track <;> rfl

/-- The two streams differ in their tracks only. -/
def OnlyTrack (s s' : LogicalStream) : Prop := s' = { s with track := s'.track }

theorem OnlyTrack.refl (s : LogicalStream) : OnlyTrack s s := rfl

theorem OnlyTrack.trans (h : OnlyTrack s s') (h' : OnlyTrack s' s'') : OnlyTrack s s'' := by
  rw [OnlyTrack, h', h]

theorem OnlyTrack.tell (h : OnlyTrack s s') : s'.tell = s.tell := by rw [h]

theorem OnlyTrack.passed (h : OnlyTrack s s') : s'.passed = s.passed := by rw [h]

theorem OnlyTrack.remaining (h : OnlyTrack s s') : s'.remaining = s.remaining := by rw [h]

/-- The visible record with this header, at which the stream is. -/
def recordHere (s : LogicalStream) (header : VisibleHeader) : VisibleRecord :=
  ⟨s.tell, s.track.place, header.bodyLength⟩

/-- The stream in that record, with the header read off the track. -/
def enter (s : LogicalStream) (header : VisibleHeader) (t : Track) : LogicalStream :=
  let record := s.recordHere header
  let isNew := match s.passed with
    | [] => true
    | last :: _ => last.start < record.start
  { s with
    track := t
    passed := if isNew then record :: s.passed else s.passed
    current := some record
    remaining := record.length }

theorem mem_passed_enter {header : VisibleHeader} {t : Track} {v : VisibleRecord}
    (h : v ∈ (s.enter header t).passed) : v = s.recordHere header ∨ v ∈ s.passed := by
  simp only [enter] at h
  split at h
  · exact List.mem_cons.1 h
  · split at h
    · exact List.mem_cons.1 h
    · exact .inr h

/-- A record behind all others is remembered. -/
theorem passed_enter (header : VisibleHeader) (t : Track) (h : ∀ v ∈ s.passed, v.start < s.tell) :
    (s.enter header t).passed = s.recordHere header :: s.passed := by
  refine if_pos ?_
  split
  · rfl
  · rename_i last others hpassed
    exact decide_eq_true (h last (hpassed ▸ List.mem_cons_self))

/-- **Looking for the next header.**  It is entered if it is valid.  If it is malformed or cut
short, its bytes are used up, and nothing else has changed. -/
theorem ends_nextVisible_of_delivers {bytes : List UInt8}
    (hd : s.track.Delivers m framed ⟨bytes, ending⟩) :
    Ends
      (fun more s' =>
        more = true ∧ (∃ header rest t, HeaderAt bytes header rest ∧
          t.Delivers m framed ⟨rest, ending⟩ ∧ s' = s.enter header t) ∨
        more = false ∧ bytes = [] ∧ OnlyTrack s s' ∧ s'.track.Delivers m framed ⟨[], ending⟩ ∧
          ∃ stop, s'.track.stop = some stop ∧ ending = .stopped stop s'.track.place)
      (fun e s' => OnlyTrack s s' ∧ ¬ Headed bytes ∧ headerFault? ending bytes = some e.unplaced ∧
        (e.IsHeaderFault ∧ s'.track.Delivers m framed ⟨bytes.drop VisibleHeader.size, ending⟩ ∨
          bytes.length < VisibleHeader.size ∧ ending = .failed e ∧
            s'.track.reader.medium = m ∧ s'.track.isFramed = framed))
      (nextVisible s) := by
  unfold nextVisible
  rw [ends_bind, ends_get, ends_bind, ends_onTrack]
  by_cases hlen : VisibleHeader.size ≤ bytes.length
  · obtain ⟨t', hg, hd'⟩ := hd.gather_of_le hlen
    rw [hg, ends_ok]
    obtain ⟨a, b, c, d, rest, rfl⟩ := exists_four hlen
    simp only [VisibleHeader.size, List.take_succ_cons, List.take_zero] at hd' ⊢
    by_cases hvalid : (VisibleHeader.ofBytes a b c d).IsValid
    · rw [if_pos hvalid, ends_bind, ends_modify, ends_pure]
      exact .inl ⟨rfl, _, rest, t', ⟨a, b, c, d, rfl, rfl, hvalid⟩, hd', rfl⟩
    · rw [if_neg hvalid, ends_throw, headerFault?, if_neg hvalid]
      exact ⟨rfl, mt headed_iff.1 hvalid, rfl, .inl ⟨trivial, hd'⟩⟩
  · have hlt : bytes.length < VisibleHeader.size := Nat.lt_of_not_le hlen
    have hno : ¬ Headed bytes := fun h => hlen h.size_le
    have hdrop : bytes.drop VisibleHeader.size = [] := List.drop_of_length_le (Nat.le_of_lt hlt)
    refine (hd.gather_of_lt hlt).mono ?_ ?_
    · rintro got t' ⟨rfl, stop, place, hstop, ht', hplace, hd'⟩
      simp only at hlt hno hdrop hstop hd'
      subst hplace hstop
      have hcut := @headerFault?_of_lt (.stopped stop t'.place) got
      rw [hdrop]
      match got, hlt with
      | [], _ => exact .inr ⟨rfl, rfl, rfl, hd', stop, ht', rfl⟩
      | [_], hlt | [_, _], hlt | [_, _, _], hlt =>
        exact ⟨rfl, hno, hcut (List.cons_ne_nil _ _) hlt, .inl ⟨trivial, hd'⟩⟩
      | _ :: _ :: _ :: _ :: rest, hlt =>
        simp only [List.length_cons, VisibleHeader.size] at hlt
        omega
    · rintro e t' ⟨hending, htrack⟩
      simp only at hending
      subst hending
      refine ⟨rfl, hno, ?_, .inr ⟨hlt, rfl, htrack⟩⟩
      by_cases hne : bytes = []
      · rw [hne]
        rfl
      · rw [headerFault?_of_lt hne hlt]
        rfl

end LogicalStream

end WellLog
