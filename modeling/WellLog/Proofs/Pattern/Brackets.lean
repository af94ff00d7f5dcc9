import WellLog.Proofs.Pattern.Closing
/-!
# Classes in front of a closing parenthesis

A class in brackets has to be closed by a bracket.  So a parenthesis behind the text is of no use to
a class that the text leaves open: it would be one more item, and the class is still open behind it.
The steps that read items look ahead, some of them two characters, which is why the parenthesis can be
left behind a step that the text alone fails (`NearEnd`); the next step fails then.

* `closes_classItem`, `closes_classOpening` : items and the beginning of a class.
* `namedClass?_closed` : a class by name is looked for without regard to what follows it.
* `closes_bracketed` : **a class is read in front of a closing parenthesis as it is read alone.**
-/

namespace WellLog

namespace Pattern

namespace Read

variable {α : Type} {n m m' : Nat}

/-- Nothing is left but the parenthesis, if at all. -/
def NearEnd (_ : α) (s : Reading) : Prop := s.rest = [] ∨ s.rest = [')']

/-! ### Items -/

theorem closes_classUnit : Closes (n + 1) n AtEdge classUnit classUnit := by
  refine .ofRest_fails rfl rfl ?_ ?_
  · rintro s hs b t ⟨⟩
    exact .inl rfl
  · intro c more s hs hmore
    by_cases hslash : c = '\\'
    · subst hslash
      exact Closes.continueWith closes_escape (Nat.le_of_lt_succ hmore)
    · simp only
      exact Closes.continueWith (.answer _) (Nat.le_of_lt_succ hmore)

theorem peekBehind_closed (verbose : Bool) (text : List Char) :
    peekBehind verbose (text ++ [')']) = peekBehind verbose text ∨
      peekBehind verbose text = none ∧ peekBehind verbose (text ++ [')']) = some ')' := by
  have hhead : ∀ text : List Char, (text ++ [')']).head? = text.head? ∨
      text.head? = none ∧ (text ++ [')']).head? = some ')' := by
    intro text
    cases text with
    | nil => exact .inr ⟨rfl, rfl⟩
    | cons c text => exact .inl rfl
  cases verbose with
  | false => exact hhead text
  | true =>
    simp only [peekBehind, Bool.not_true, Bool.false_eq_true, if_false, dropWhile_isBlank_closed]
    cases text.dropWhile Text.isBlank with
    | nil => exact .inr ⟨rfl, rfl⟩
    | cons c more =>
      by_cases hmark : c = '#'
      · subst hmark
        simp only [List.cons_append, dropWhile_isBlank_closed]
        exact hhead _
      · simp only [List.cons_append]
        exact .inl (by simp [hmark])

theorem peekBehind_closed_beq (verbose : Bool) (text : List Char) {c : Char} (hc : c ≠ ')') :
    (peekBehind verbose (text ++ [')']) == some c) = (peekBehind verbose text == some c) := by
  obtain hsame | ⟨hnone, hparen⟩ := peekBehind_closed verbose text
  · rw [hsame]
  · rw [hnone, hparen]
    simpa using hc.symm

/-- A character or a set by itself. -/
def itemAlone (first : Atom) : Read SetPiece :=
  match first with
  | .literal c _ => return ⟨.single (← literalSet c), 0⟩
  | .set s => return ⟨s, 0⟩
  | .look _ => failure

/-- What two atoms with a hyphen between them are. -/
def itemRange (first last : Atom) : Read SetPiece :=
  match first, last with
  | .literal a _, .literal b _ => do
    if a ≤ b then return ⟨.range (← literalSet a) (← literalSet b), 0⟩ else failure
  | _, _ => failure

/-- The rest of an item behind its first character or set. -/
def itemBehind (first : Atom) : Read SetPiece := do
  skipIgnored
  let verbose := (← switches).verbose
  match ← rest with
  | [] => failure
  | '-' :: more =>
    if peekBehind verbose more == some ']' || peekBehind verbose more == some '-' then
      itemAlone first
    else
      continueBehind more
      let last ← classUnit
      itemRange first last
  | _ => itemAlone first

theorem classItem_eq : classItem = classUnit >>= itemBehind := rfl

theorem closes_literalSet (c : Char) : Closes n n AtEnd (literalSet c) (literalSet c) :=
  closes_switches.bind fun _ => .ite (.answer _) .fail

theorem closes_itemAlone (first : Atom) :
    Closes n n AtEnd (itemAlone first) (itemAlone first) := by
  cases first with
  | literal c byte => exact (closes_literalSet c).bind fun _ => .answer _
  | set s => exact .answer _
  | look l => exact .fail

theorem closes_itemRange (first last : Atom) :
    Closes n n AtEnd (itemRange first last) (itemRange first last) := by
  unfold itemRange
  split
  · exact .ite ((closes_literalSet _).bind fun _ => (closes_literalSet _).bind fun _ => .answer _)
      .fail
  · exact .fail

theorem eq_of_itemAlone {first : Atom} {s t : Reading} {p : SetPiece}
    (h : itemAlone first s = some (p, t)) : t = s := by
  unfold itemAlone at h
  cases first with
  | literal c byte =>
    change ((if (s.switches.unicode || decide (c.toNat < 128)) = true then pure c
      else failure : Read Char) s).bind _ = _ at h
    split at h <;> cases h
    rfl
  | set set =>
    cases h
    rfl
  | look l => cases h

theorem closes_itemBehind (first : Atom) :
    Closes n n NearEnd (itemBehind first) (itemBehind first) := by
  refine closes_skipIgnored.bind_sure fun _ => closes_switches.bind_sure fun sw =>
    .ofRest_fails rfl rfl ?_ ?_
  · intro s hs b t h
    rw [eq_of_itemAlone h]
    exact .inr (Reading.closed_of_nil hs)
  · intro c more s hs hmore
    have halone : Agrees n NearEnd (itemAlone first s) (itemAlone first s.closed) :=
      ((closes_itemAlone first).mono fun _ _ => .inl).closed s (by rw [hs]; exact hmore)
    by_cases hhyphen : c = '-'
    · subst hhyphen
      simp only
      rw [peekBehind_closed_beq _ _ (by decide), peekBehind_closed_beq _ _ (by decide)]
      split
      · exact halone
      · refine Closes.continueBehind (j := more.length)
          ((closes_classUnit.weaken (Nat.le_succ _) (Nat.le_refl _)).bind_beyond
            (fun last => (closes_itemRange first last).mono fun _ _ => .inl) ?_)
          (Nat.le_of_lt hmore)
        rintro last t p u (hend | ⟨⟨l, rfl⟩, -⟩) hrun
        · exact .inl ((closes_itemRange (n := 0) first last).spends t p u hend hrun)
        · cases first <;> cases hrun
    · simp only [List.cons.injEq, hhyphen, false_and, imp_self, implies_true]
      exact halone

theorem itemBehind_of_nil {first : Atom} {s : Reading} (hs : s.rest = []) :
    itemBehind first s = none := by
  rw [itemBehind, bind_apply, skipIgnored_of_nil hs, Option.bind_some, bind_apply]
  exact rest_bind_of hs _

/-- The parenthesis is no item, since nothing comes behind it. -/
theorem classItem_of_paren {s : Reading} (hs : s.rest = [')']) : classItem s = none := by
  have hunit : classUnit s = some (.literal ')' false, { s with rest := [] }) := by
    rw [classUnit, rest_bind_of hs]
    rfl
  rw [classItem_eq, bind_apply, hunit]
  exact itemBehind_of_nil rfl

theorem closes_classItem : Closes (n + 1) n NearEnd classItem classItem := by
  rw [classItem_eq]
  refine closes_classUnit.bind_beyond closes_itemBehind ?_
  rintro first t p u (hend | ⟨⟨l, rfl⟩, more, hmore, -⟩) hrun
  · rw [itemBehind_of_nil hend] at hrun
    cases hrun
  · rw [itemBehind, bind_apply, skipIgnored_of_cons hmore (by decide) (by decide),
      Option.bind_some, bind_apply] at hrun
    change (rest >>= _) t = _ at hrun
    rw [rest_bind_of hmore] at hrun
    cases hrun

/-! ### The beginning of a class -/

theorem leadingHyphens_of_paren {s : Reading} (hs : s.rest = [')']) (m : Nat) :
    leadingHyphens m s = some ([], s) := by
  cases m with
  | zero => rfl
  | succ m =>
    rw [leadingHyphens, rest_bind_of hs]
    rfl

theorem leadingHyphens_of_nil {s : Reading} (hs : s.rest = []) (m : Nat) :
    leadingHyphens m s = some ([], s) := by
  cases m with
  | zero => rfl
  | succ m =>
    rw [leadingHyphens, rest_bind_of hs]
    rfl

theorem closes_leadingHyphens (hm : n ≤ m) (hm' : n < m') :
    Closes n n NearEnd (leadingHyphens m) (leadingHyphens m') := by
  induction m' generalizing n m with
  | zero => omega
  | succ m' ih =>
    cases m with
    | zero =>
      refine ⟨fun s hs => ?_, fun s hs => ?_, fun s a t hs h => ?_⟩
      · obtain hs := List.length_eq_zero_iff.1 (Nat.le_zero.1 (Nat.le_trans hs hm))
        rw [leadingHyphens_of_nil hs, leadingHyphens_of_paren (Reading.closed_of_nil hs)]
        exact .untouched (by simp [hs])
      · rw [leadingHyphens_of_nil hs, leadingHyphens_of_nil hs]
      · cases leadingHyphens_of_nil hs _ ▸ h
        exact hs
    | succ m =>
      refine .ofRest (fun _ _ => rfl) (.answer []) ?_ ?_
      · intro s hs
        exact .untouched (s := s) (by simp [hs])
      · intro c more s hs hmore
        by_cases hhyphen : c = '-'
        · subst hhyphen
          refine Closes.continueBehind (j := more.length) (closes_peek.bind_beyond (fun _ =>
            (ih (n := more.length) ?_ ?_).bind_beyond (fun hyphens => .answer _) ?_) ?_)
            (Nat.le_of_lt hmore)
          · omega
          · omega
          · rintro hyphens t p u ht ⟨⟩
            exact ht
          · rintro d t p u ⟨-, ht⟩ hrun
            rw [bind_apply, leadingHyphens_of_paren ht] at hrun
            cases hrun
            exact .inr ht
        · simp only [List.cons.injEq, hhyphen, false_and, imp_self, implies_true]
          exact .untouched (by rw [hs]; exact hmore)

/-- The beginning of a class behind its sign of negation. -/
def openingBehind (negated : Bool) : Read (Bool × List SetPiece) := do
  let _ ← peek
  let hyphens ← leadingHyphens (← rest).length
  match hyphens, ← rest with
  | [], ']' :: more =>
    continueBehind more
    let _ ← peek
    return (negated, [⟨.single ']', 0⟩])
  | _, _ => return (negated, hyphens)

theorem classOpening_eq : classOpening = (do
    skipIgnored
    let negated := (← peek) == '^'
    if negated then
      continueBehind ((← rest).drop 1)
    openingBehind negated) := rfl

theorem openingBehind_of_nil {negated : Bool} {s : Reading} (hs : s.rest = []) :
    openingBehind negated s = none := by
  rw [openingBehind, bind_apply, peek_of_nil hs]
  rfl

theorem openingBehind_of_paren {negated : Bool} {s : Reading} (hs : s.rest = [')']) :
    openingBehind negated s = some ((negated, []), s) := by
  rw [openingBehind, bind_apply, peek_of_cons hs, Option.bind_some]
  change (rest >>= _) s = _
  rw [rest_bind_of hs, bind_apply, leadingHyphens_of_paren hs, Option.bind_some]
  change (rest >>= _) s = _
  rw [rest_bind_of hs]
  rfl

/-- A closing bracket that stands for itself, or nothing. -/
def leadingBracket (negated : Bool) (hyphens : List SetPiece) : Read (Bool × List SetPiece) := do
  match hyphens, ← rest with
  | [], ']' :: more =>
    continueBehind more
    let _ ← peek
    return (negated, [⟨.single ']', 0⟩])
  | _, _ => return (negated, hyphens)

theorem closes_leadingBracket (negated : Bool) (hyphens : List SetPiece) :
    Closes n n NearEnd (leadingBracket negated hyphens) (leadingBracket negated hyphens) := by
  cases hyphens with
  | cons hyphen hyphens =>
    refine .ofRest (fun _ _ => rfl) (.answer _) ?_ ?_
    · intro s hs
      exact .untouched (s := s) (by simp [hs])
    · intro c more s hs hmore
      exact .untouched (s := s) (by rw [hs]; exact hmore)
  | nil =>
    refine .ofRest (fun _ _ => rfl) (.answer _) ?_ ?_
    · intro s hs
      exact .untouched (s := s) (by simp [hs])
    · intro c more s hs hmore
      by_cases hbracket : c = ']'
      · subst hbracket
        refine Closes.continueBehind (j := more.length)
          (closes_peek.bind_beyond (fun _ => .answer _) ?_) (Nat.le_of_lt hmore)
        rintro d t p u ⟨-, ht⟩ ⟨⟩
        exact .inr ht
      · simp only [List.cons.injEq, hbracket, false_and, imp_self, implies_true]
        exact .untouched (s := s) (by rw [hs]; exact hmore)

theorem closes_openingBehind (negated : Bool) :
    Closes n n NearEnd (openingBehind negated) (openingBehind negated) := by
  have hspends : ∀ hyphens, Spends (leadingBracket negated hyphens) := fun hyphens =>
    (closes_leadingBracket (n := 0) negated hyphens).spends
  refine closes_peek.bind_beyond (fun _ => ?_) ?_
  · refine Closes.ofRest_sized (fun text => (closes_leadingHyphens (Nat.le_refl _)
      (by simp)).bind_beyond (closes_leadingBracket negated) ?_) (fun _ _ => rfl)
      ((Spends.answer []).bind hspends)
    rintro hyphens t p u (ht | ht) hrun
    · exact .inl (hspends hyphens t p u ht hrun)
    · change (rest >>= _) t = _ at hrun
      rw [rest_bind_of ht] at hrun
      cases hyphens <;> cases hrun <;> exact .inr ht
  · rintro d t p u ⟨-, ht⟩ hrun
    have hopening : openingBehind negated t = some (p, u) := by
      rw [openingBehind, bind_apply, peek_of_cons ht]
      exact hrun
    rw [openingBehind_of_paren ht] at hopening
    cases hopening
    exact .inr ht

theorem closes_classOpening : Closes n n NearEnd classOpening classOpening := by
  rw [classOpening_eq]
  refine closes_skipIgnored.bind_sure fun _ => closes_peek.bind_beyond (fun c => .ite ?_ ?_) ?_
  · have hnone : ∀ s, (continueBehind [] >>= fun _ => openingBehind (c == '^')) s = none := by
      intro s
      rw [bind_apply, continueBehind_nil]
      exact openingBehind_of_nil rfl
    refine .ofRest_fails (funext hnone) (funext hnone) ?_ ?_
    · intro s hs b t h
      cases (hnone _).symm.trans h
    · intro d more s hs hmore
      exact Closes.continueBehind (j := more.length) (closes_openingBehind _) (Nat.le_of_lt hmore)
  · exact closes_openingBehind _
  · rintro d t p u ⟨rfl, ht⟩ hrun
    have hopening : openingBehind false t = some (p, u) := hrun
    rw [openingBehind_of_paren ht] at hopening
    cases hopening
    exact .inr ht

/-! ### Classes by name -/

/-- Looking for the end of a name, a parenthesis behind the text is as good as none. -/
theorem takeWhile_closed {p : Char → Bool} (hp : p ')' = true) (text : List Char) :
    text.drop (text.takeWhile p).length = [] ∧
        (text ++ [')']).drop ((text ++ [')']).takeWhile p).length = [] ∨
      text.drop (text.takeWhile p).length ≠ [] ∧
        (text ++ [')']).takeWhile p = text.takeWhile p ∧
        (text ++ [')']).drop (text.takeWhile p).length =
          text.drop (text.takeWhile p).length ++ [')'] := by
  induction text with
  | nil => exact .inl ⟨rfl, by simp [hp]⟩
  | cons c text ih =>
    by_cases hc : p c
    · simpa [hc] using ih
    · exact .inr (by simp [hc])

/-- A class by name behind its colon and its sign of negation. -/
def namedBehind (negated : Bool) (text : List Char) : Option (Bool × CharSet × List Char) :=
  match text.drop (text.takeWhile (· != ':')).length with
  | ':' :: ']' :: more =>
    (asciiSet? (text.takeWhile (· != ':'))).map fun set => (negated, set, more)
  | _ => none

theorem namedClass?_caret (more : List Char) :
    namedClass? (':' :: '^' :: more) = namedBehind true more := rfl

theorem namedClass?_colon {text : List Char} (h : ∀ more, text ≠ '^' :: more) :
    namedClass? (':' :: text) = namedBehind false text := by
  cases text with
  | nil => rfl
  | cons c more =>
    have hcaret : c ≠ '^' := fun hc => h more (hc ▸ rfl)
    simp only [namedClass?]
    rfl

theorem namedBehind_closed (negated : Bool) (text : List Char) :
    namedBehind negated (text ++ [')']) =
      (namedBehind negated text).map fun p => (p.1, p.2.1, p.2.2 ++ [')']) := by
  unfold namedBehind
  obtain ⟨hnone, hclosed⟩ | ⟨-, hname, hclosed⟩ :=
    takeWhile_closed (p := (· != ':')) (by decide) text
  · rw [hnone, hclosed]
    rfl
  · rw [hname, hclosed]
    generalize text.drop (text.takeWhile (· != ':')).length = behind
    match behind with
    | [] => rfl
    | [c] => simp
    | c :: d :: more =>
      by_cases hcolon : c = ':' ∧ d = ']'
      · obtain ⟨rfl, rfl⟩ := hcolon
        cases asciiSet? (text.takeWhile (· != ':')) <;> rfl
      · have hother : ∀ more', c :: d :: more = ':' :: ']' :: more' → False := by
          rintro more' ⟨⟩
          exact hcolon ⟨rfl, rfl⟩
        have hother' : ∀ more', c :: d :: (more ++ [')']) = ':' :: ']' :: more' → False := by
          rintro more' ⟨⟩
          exact hcolon ⟨rfl, rfl⟩
        simp only [List.cons_append]
        rfl

theorem namedClass?_closed (text : List Char) :
    namedClass? (text ++ [')']) =
      (namedClass? text).map fun p => (p.1, p.2.1, p.2.2 ++ [')']) := by
  cases text with
  | nil => rfl
  | cons c text =>
    by_cases hcolon : c = ':'
    · subst hcolon
      by_cases hcaret : ∃ more, text = '^' :: more
      · obtain ⟨more, rfl⟩ := hcaret
        exact namedBehind_closed true more
      · have hcaret' : ∀ more, text ++ [')'] ≠ '^' :: more := by
          intro more heq
          cases text with
          | nil => cases heq
          | cons d text => exact hcaret ⟨text, by rw [(List.cons.inj heq).1]⟩
        rw [List.cons_append, namedClass?_colon hcaret',
          namedClass?_colon fun more heq => hcaret ⟨more, heq⟩]
        exact namedBehind_closed false text
    · simp only [List.cons_append, namedClass?, List.cons.injEq, hcolon, false_and, imp_self,
        implies_true, Option.map_none]

theorem length_of_namedBehind {text more : List Char} {negated sign : Bool} {set : CharSet}
    (h : namedBehind sign text = some (negated, set, more)) : more.length ≤ text.length := by
  unfold namedBehind at h
  split at h
  · next behind hdrop =>
    obtain ⟨_, -, hmore⟩ := Option.map_eq_some_iff.1 h
    cases hmore
    have := congrArg List.length hdrop
    simp only [List.length_drop, List.length_cons] at this
    omega
  · cases h

theorem length_of_namedClass? {text more : List Char} {negated : Bool} {set : CharSet}
    (h : namedClass? text = some (negated, set, more)) : more.length ≤ text.length := by
  cases text with
  | nil => cases h
  | cons c text =>
    by_cases hcolon : c = ':'
    · subst hcolon
      by_cases hcaret : ∃ more, text = '^' :: more
      · obtain ⟨behind, rfl⟩ := hcaret
        have := length_of_namedBehind ((namedClass?_caret behind).symm.trans h)
        simp only [List.length_cons]
        omega
      · rw [namedClass?_colon fun more heq => hcaret ⟨more, heq⟩] at h
        exact Nat.le_succ_of_le (length_of_namedBehind h)
    · simp only [namedClass?, List.cons.injEq, hcolon, false_and, imp_self, implies_true] at h
      cases h

/-! ### Whole classes -/

theorem classRest_of_near {s : Reading} {pending : Option (SetOp × SetPiece)}
    {items : List SetPiece} (hs : s.rest = [] ∨ s.rest = [')']) :
    classRest m pending items s = none := by
  cases m with
  | zero => rfl
  | succ m =>
    rw [classRest, bind_apply]
    obtain hs | hs := hs
    · rw [skipIgnored_of_nil hs, Option.bind_some, bind_apply]
      exact rest_bind_of hs _
    · rw [skipIgnored_of_cons hs (by decide) (by decide), Option.bind_some, bind_apply]
      change (rest >>= _) s = _
      rw [rest_bind_of hs]
      change (classItem s).bind _ = _
      rw [classItem_of_paren hs]
      rfl

theorem closes_classRest (hm : n < m) (hm' : n + 1 < m') (pending : Option (SetOp × SetPiece))
    (items : List SetPiece) :
    Closes n n AtEnd (classRest m pending items) (classRest m' pending items) := by
  induction m generalizing n m' pending items with
  | zero => omega
  | succ m ih =>
    obtain ⟨m', rfl⟩ := Nat.exists_eq_add_of_lt hm'
    refine closes_skipIgnored.bind fun _ => closes_switches.bind fun sw =>
      .ofRest_fails rfl rfl ?_ ?_
    · intro s hs b t h
      have hparen := Reading.closed_of_nil hs
      change (classItem s.closed).bind _ = _ at h
      rw [classItem_of_paren hparen] at h
      cases h
    · intro c more s hs hmore
      -- what is behind a shorter text
      have hgo : ∀ {k} pending items, k ≤ more.length → Closes k k AtEnd
          (classRest m pending items) (classRest (n + 1 + m') pending items) := by
        intro k pending items hk
        exact ih (by omega) (by omega) pending items
      have hnear : ∀ {pending items} {β} (b : β) t p u, NearEnd b t →
          classRest (n + 1 + m') pending items t = some (p, u) → AtEnd p u := by
        intro pending items β b t p u ht hrun
        rw [classRest_of_near ht] at hrun
        cases hrun
      have hitem : Agrees n AtEnd
          ((classItem >>= fun item => classRest m pending (item :: items)) s)
          ((classItem >>= fun item => classRest (n + 1 + m') pending (item :: items)) s.closed) :=
        ((closes_classItem (n := more.length)).bind_beyond
          (fun item => hgo pending (item :: items) (Nat.le_refl _)) fun _ _ _ _ => hnear _ _ _ _)
          |>.closed s (by rw [hs]; exact Nat.le_refl _) |>.mono (Nat.le_of_lt hmore) fun _ _ => id
      by_cases hopen : c = '['
      · subst hopen
        simp only
        rw [namedClass?_closed]
        cases hnamed : namedClass? more with
        | some p =>
          obtain ⟨negated, set, behind⟩ := p
          have hbehind := length_of_namedClass? hnamed
          exact Closes.continueWith (j := behind.length)
            ((closes_finish negated set).bind fun _ => hgo _ _ hbehind) (by omega)
        | none =>
          refine Closes.continueWith (j := more.length) (closes_classOpening.bind_beyond
            (fun opening => (hgo none opening.2 (Nat.le_refl _)).bind fun inner =>
              (closes_finish opening.1 inner.set).bind fun _ => hgo _ _ (Nat.le_refl _)) ?_)
            (Nat.le_of_lt hmore)
          rintro ⟨negated, first⟩ t p u ht hrun
          rw [bind_apply, classRest_of_near ht] at hrun
          cases hrun
      · by_cases hclose : c = ']'
        · subst hclose
          exact Closes.continueWith (.answer _) (Nat.le_of_lt hmore)
        · cases more with
          | nil =>
            simp only [List.nil_append, List.cons.injEq, hopen, hclose, false_and, and_false,
              Char.reduceEq, imp_self, implies_true] at hitem ⊢
            exact hitem
          | cons d behind =>
            have hoperation : ∀ op, Agrees n AtEnd
                ((continueWith behind >>= fun _ =>
                  classRest m (some (op, together sw pending items)) []) s)
                ((continueWith (behind ++ [')']) >>= fun _ =>
                  classRest (n + 1 + m') (some (op, together sw pending items)) []) s.closed) :=
              fun op => Closes.continueWith (j := behind.length) (hgo _ _ (Nat.le_succ _))
                (by simp only [List.length_cons] at hmore; omega)
            by_cases hinter : c = '&' ∧ d = '&'
            · obtain ⟨rfl, rfl⟩ := hinter
              exact hoperation .inter
            · by_cases hdiff : c = '-' ∧ d = '-'
              · obtain ⟨rfl, rfl⟩ := hdiff
                exact hoperation .diff
              · by_cases hsymm : c = '~' ∧ d = '~'
                · obtain ⟨rfl, rfl⟩ := hsymm
                  exact hoperation .symmDiff
                · simp only [List.cons_append, List.cons.injEq, ← and_assoc, hopen, hclose, hinter,
                    hdiff, hsymm, false_and, imp_self, implies_true]
                  exact hitem

theorem closes_bracketed : Closes n n AtEnd bracketed bracketed := by
  refine closes_classOpening.bind_beyond (fun opening => .ofRest_sized (fun text =>
    (closes_classRest (Nat.lt_succ_self _) (by simp) _ _).bind fun inner =>
      (closes_finish _ _).bind fun _ => .answer _) (fun _ _ => rfl) ?_) ?_
  · exact Spends.bind (.of_none fun s hs => classRest_of_near (.inl hs)) fun inner =>
      (closes_finish (n := 0) _ _).spends.bind fun _ => .answer _
  · rintro ⟨negated, first⟩ t p u ht hrun
    change (rest >>= _) t = _ at hrun
    rw [rest_bind_of rfl, bind_apply, classRest_of_near ht] at hrun
    cases hrun

end Read

end Pattern

end WellLog
