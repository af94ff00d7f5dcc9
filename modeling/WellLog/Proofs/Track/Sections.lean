import WellLog.Proofs.Track.Feed
/-!
# The sections of a medium

File marks cut the data of a medium into sections; a plain medium has one section.
`Medium.Carries m framed p sections` says which sections there are from the place `p` on, each
behind the stop of the one before.

`Medium.RunsTo` also says where the last section ends.

* `Medium.carries_plain` : a plain medium carries its bytes.
* `Medium.Carries.feed` : the sections are delivered one after the other.
* `Abreast.feeds` : **places with the same sections ahead deliver the same bytes**, and behind the
  next stop there are again places with the same sections ahead.
-/

namespace WellLog

variable {m m' : Medium} {framed framed' : Bool} {p p' q q' : Place} {bytes : List UInt8}
  {sections : List (List UInt8)} {stop : Stop}

namespace Medium

/-- From the place `p` on, the medium has these sections, with file marks between them, and it ends
at the place `finish`. -/
inductive RunsTo (m : Medium) (framed : Bool) (finish : Place) :
    Place → List (List UInt8) → Prop where
  /-- The last section ends with the medium. -/
  | last {p : Place} {bytes : List UInt8}
    (feed : m.feedAt framed p = .ok ⟨bytes, .stopped .mediumEnd finish⟩) :
    RunsTo m framed finish p [bytes]
  /-- The others end with file marks, behind which the next one begins. -/
  | cons {p q : Place} {bytes : List UInt8} {sections : List (List UInt8)}
    (feed : m.feedAt framed p = .ok ⟨bytes, .stopped .fileMark q⟩)
    (others : RunsTo m framed finish q sections) : RunsTo m framed finish p (bytes :: sections)

/-- From the place `p` on, the medium has these sections, with file marks between them. -/
inductive Carries (m : Medium) (framed : Bool) : Place → List (List UInt8) → Prop where
  /-- The last section ends with the medium, where nothing follows. -/
  | last {p q : Place} {bytes : List UInt8}
    (feed : m.feedAt framed p = .ok ⟨bytes, .stopped .mediumEnd q⟩)
    (nothing : m.feedAt framed q = .ok ⟨[], .stopped .mediumEnd q⟩) : Carries m framed p [bytes]
  /-- The others end with file marks, behind which the next one begins. -/
  | cons {p q : Place} {bytes : List UInt8} {sections : List (List UInt8)}
    (feed : m.feedAt framed p = .ok ⟨bytes, .stopped .fileMark q⟩)
    (others : Carries m framed q sections) : Carries m framed p (bytes :: sections)

/-- A medium carries its sections if nothing follows at its end. -/
theorem RunsTo.carries {finish : Place} (h : m.RunsTo framed finish p sections)
    (nothing : m.feedAt framed finish = .ok ⟨[], .stopped .mediumEnd finish⟩) :
    m.Carries framed p sections := by
  induction h with
  | last feed => exact .last feed nothing
  | cons feed others ih => exact .cons feed ih

/-- Without faults, a plain medium has one section. -/
theorem carries_plain (h : m.manner.fault = none) {o : Nat} (ho : o ≤ m.bytes.size) :
    m.Carries false (.start o) [m.bytes.toList.drop o] := by
  have hfeed : ∀ o ≤ m.bytes.size, m.feedAt false (.start o) =
      .ok ⟨m.bytes.toList.drop o, .stopped .mediumEnd (.start m.bytes.size)⟩ := by
    intro o ho
    rw [feedAt, if_neg (by decide), Place.start, Nat.add_zero, plainFeed_of_faultless h ho]
  refine .last (hfeed o ho) ?_
  rw [hfeed _ (Nat.le_refl _)]
  simp

/-- The first section is delivered.  At every place inside it the rest of it is ahead, and behind the
stop the others are; behind the last one nothing is. -/
theorem Carries.feed (h : m.Carries framed p (bytes :: sections)) :
    ∃ stop q, m.feedAt framed p = .ok ⟨bytes, .stopped stop q⟩ ∧
      (∀ {r bytes}, m.feedAt framed r = .ok ⟨bytes, .stopped stop q⟩ →
        m.Carries framed r (bytes :: sections)) ∧
      match stop with
      | .mediumEnd => sections = [] ∧ m.Carries framed q [[]]
      | .fileMark => sections ≠ [] ∧ m.Carries framed q sections := by
  cases h with
  | last feed nothing =>
    exact ⟨.mediumEnd, _, feed, fun hr => .last hr nothing, rfl, .last nothing nothing⟩
  | cons feed others =>
    refine ⟨.fileMark, _, feed, fun hr => .cons hr others, ?_, others⟩
    rintro rfl
    cases others

end Medium

/-- Two places, on media of their own, with the same sections ahead. -/
def Abreast (m : Medium) (framed : Bool) (m' : Medium) (framed' : Bool) (p p' : Place) : Prop :=
  ∃ sections, m.Carries framed p sections ∧ m'.Carries framed' p' sections

/-- **Places with the same sections ahead deliver the same bytes.**  What follows is the same again:
behind the stop, and at every place inside the section. -/
theorem Abreast.feeds (h : Abreast m framed m' framed' p p') :
    ∃ bytes stop q q', m.feedAt framed p = .ok ⟨bytes, .stopped stop q⟩ ∧
      m'.feedAt framed' p' = .ok ⟨bytes, .stopped stop q'⟩ ∧ Abreast m framed m' framed' q q' ∧
      ∀ {r r' bytes}, m.feedAt framed r = .ok ⟨bytes, .stopped stop q⟩ →
        m'.feedAt framed' r' = .ok ⟨bytes, .stopped stop q'⟩ → Abreast m framed m' framed' r r' := by
  obtain ⟨sections, hcarries, hcarries'⟩ := h
  cases hcarries with
  | last feed nothing =>
    cases hcarries' with
    | last feed' nothing' =>
      exact ⟨_, _, _, _, feed, feed', ⟨_, .last nothing nothing, .last nothing' nothing'⟩,
        fun hr hr' => ⟨_, .last hr nothing, .last hr' nothing'⟩⟩
    | cons _ others' => cases others'
  | cons feed others =>
    cases hcarries' with
    | last _ _ => cases others
    | cons feed' others' =>
      exact ⟨_, _, _, _, feed, feed', ⟨_, others, others'⟩,
        fun hr hr' => ⟨_, .cons hr others, .cons hr' others'⟩⟩

end WellLog
