import WellLog.Proofs.Pattern.Brackets
/-!
# Groups in front of a closing parenthesis

A group that the text leaves open takes a parenthesis behind the text for its own, and nothing is left
then.  Everything else in a pattern has no use for it: switches need a letter or a colon before it, a
name is closed by `>`, and counts are closed by a brace.  An opening brace behind a word condition is
left for a repetition, so that the parenthesis can stand behind it unread (`Stuck`); the repetition
then fails.

* `closes_groupOpening`, `closes_counts`, `closes_single` : the parts of a group.
* `closes_group` : **a pattern is read in front of a closing parenthesis as it is read alone**, unless
  it ends in a comment or with a group open.
* `group_congr` : the bound on the recursion does not matter as long as it is above the length of the
  text.
-/

namespace WellLog

namespace Pattern

namespace Read

variable {α : Type} {n m m' : Nat}

/-! ### The beginning of a group -/

theorem closes_switchLetters (hm : n < m) (hm' : n + 1 < m') (seen : List Char) (on : Bool)
    (s : Switches) :
    Closes n n NearEnd (switchLetters m seen on s) (switchLetters m' seen on s) := by
  induction m generalizing n m' seen on s with
  | zero => omega
  | succ m ih =>
    obtain ⟨m', rfl⟩ := Nat.exists_eq_add_of_lt hm'
    refine .ofRest_fails rfl rfl ?_ ?_
    · intro t ht b u h
      simp only [Char.reduceBEq, Bool.or_true, if_true] at h
      split at h
      · cases h
      · cases h
        exact .inr (Reading.closed_of_nil ht)
    · intro c more t ht hmore
      simp only
      split
      · split
        · exact .refused
        · exact .untouched (by rw [ht]; exact hmore)
      · split
        · exact .refused
        · have hgo : ∀ next, Closes more.length more.length NearEnd
              (switchLetters m (c :: seen) (on && c != '-') next)
              (switchLetters (n + 1 + m') (c :: seen) (on && c != '-') next) := by
            intro next
            exact ih (by omega) (by omega) _ _ _
          refine Closes.continueWith (j := more.length) ?_ (Nat.le_of_lt hmore)
          split
          iterate 8 exact (Closes.answer (D := fun _ _ => False) _).bind_sure hgo
          · exact Closes.fail

theorem closes_numbered (s : Switches) : Closes n n AtEnd (numbered s) (numbered s) :=
  .keeping fun t => ⟨_, { t with groups := t.groups + 1 }, rfl, rfl, rfl⟩

/-- What a name and the text behind it make of a place. -/
def named (s : Reading) : (name behind : List Char) → Option (Unit × Reading)
  | first :: others, '>' :: more =>
    if !isNameChar true first || !others.all (isNameChar false) then none
    else if s.names.contains (first :: others) then none
    else some ((), { s with names := (first :: others) :: s.names, rest := more })
  | _, _ => none

theorem groupName_apply (s : Reading) :
    groupName s = named s (s.rest.takeWhile (· != '>'))
      (s.rest.drop (s.rest.takeWhile (· != '>')).length) := by
  rw [groupName, rest_bind_of rfl]
  generalize s.rest.takeWhile (· != '>') = name
  generalize s.rest.drop name.length = behind
  match name, behind with
  | [], _ => rfl
  | _ :: _, [] => rfl
  | first :: others, c :: more =>
    by_cases hmark : c = '>'
    · subst hmark
      simp only [named]
      split
      · rfl
      · change (if s.names.contains (first :: others) = true then failure else _ : Read Unit) s = _
        split <;> rfl
    · simp only [named, List.cons.injEq, hmark, false_and, imp_self, implies_true]
      rfl

theorem named_closed (s : Reading) (name : List Char) {behind : List Char} (hbehind : behind ≠ []) :
    Agrees behind.length AtEnd (named s name behind) (named s.closed name (behind ++ [')'])) := by
  match name, behind, hbehind with
  | [], _, _ => exact .refused
  | first :: others, c :: more, _ =>
    by_cases hmark : c = '>'
    · subst hmark
      simp only [List.cons_append, named]
      split
      · exact .refused
      · by_cases hused : s.names.contains (first :: others) = true
        · rw [if_pos hused,
            if_pos (show s.closed.names.contains (first :: others) = true from hused)]
          exact .refused
        · rw [if_neg hused,
            if_neg (show ¬ s.closed.names.contains (first :: others) = true from hused)]
          exact .untouched (s := { s with names := (first :: others) :: s.names, rest := more })
            (Nat.le_succ _)
    · simp only [List.cons_append, named, List.cons.injEq, hmark, false_and, imp_self, implies_true]
      exact .refused

theorem closes_groupName : Closes n n AtEnd groupName groupName where
  closed s hs := by
    rw [groupName_apply, groupName_apply]
    obtain ⟨hnone, hclosed⟩ | ⟨hsome, hname, hclosed⟩ :=
      takeWhile_closed (p := (· != '>')) (by decide) s.rest
    · have hrefused : ∀ t name, named t name [] = none := by
        intro t name
        cases name <;> rfl
      rw [hnone, show s.closed.rest = s.rest ++ [')'] from rfl, hclosed, hrefused, hrefused]
      exact .refused
    · rw [show s.closed.rest = s.rest ++ [')'] from rfl, hname, hclosed]
      refine (named_closed s _ hsome).mono ?_ fun _ _ => id
      exact Nat.le_trans (List.drop_suffix _ _).length_le hs
  same _ _ := rfl
  spends := .of_none fun s hs => by
    rw [groupName_apply, hs]
    rfl

/-- What stands behind the letters of switches: a colon and a group, or nothing but a closing
parenthesis, if there were letters at all. -/
def switchesEnd (length : Nat) (next : Switches) : Read Opening := do
  match ← rest with
  | ')' :: behind =>
    if behind.length + 1 == length then failure
    else
      continueWith behind
      return .switches next
  | _ :: behind =>
    continueWith behind
    return .group none next
  | [] => failure

theorem spends_switchesEnd {length : Nat} {next : Switches} {s t : Reading} {o : Opening}
    (hs : NearEnd next s) (h : switchesEnd length next s = some (o, t)) : t.rest = [] := by
  obtain hs | hs := hs
  · rw [switchesEnd, rest_bind_of hs] at h
    cases h
  · rw [switchesEnd, rest_bind_of hs] at h
    simp only at h
    split at h
    · cases h
    · cases h
      rfl

theorem closes_switchesEnd {length : Nat} (next : Switches) :
    Closes n n AtEnd (switchesEnd length next) (switchesEnd (length + 1) next) := by
  refine .ofRest_fails rfl rfl ?_ ?_
  · intro s hs o t h
    refine spends_switchesEnd (o := o) (.inr (Reading.closed_of_nil hs)) (?_ :
      switchesEnd (length + 1) next s.closed = _)
    rw [switchesEnd, rest_bind_of (Reading.closed_of_nil hs)]
    exact h
  · intro c behind s hs hbehind
    by_cases hparen : c = ')'
    · subst hparen
      have hlength :
          ((behind ++ [')']).length + 1 == length + 1) = (behind.length + 1 == length) := by
        rw [List.length_append, List.length_singleton]
        exact Bool.eq_iff_iff.2 (by simp)
      simp only
      rw [hlength]
      split
      · exact .refused
      · exact Closes.continueWith (.answer _) (Nat.le_of_lt hbehind)
    · simp only
      exact Closes.continueWith (.answer _) (Nat.le_of_lt hbehind)

/-- A group or switches behind a question mark. -/
def openingSwitches (s : Switches) (more : List Char) : Read Opening := do
  continueWith more
  let next ← switchLetters (more.length + 1) [] true s
  switchesEnd more.length next

theorem closes_openingSwitches (s : Switches) {t : Reading} {more : List Char}
    (hmore : more.length ≤ n) :
    Agrees n AtEnd (openingSwitches s more t) (openingSwitches s (more ++ [')']) t.closed) := by
  unfold openingSwitches
  rw [List.length_append, List.length_singleton]
  exact Closes.continueWith (j := more.length) ((closes_switchLetters (Nat.lt_succ_self _)
    (Nat.lt_succ_self _) [] true s).bind_beyond closes_switchesEnd
    fun _ _ _ _ => spends_switchesEnd) hmore

theorem groupOpening_eq : groupOpening = (do
    skipIgnored
    let s ← switches
    match ← rest with
    | '?' :: 'P' :: '<' :: more =>
      continueWith more
      groupName
      numbered s
    | '?' :: '<' :: more =>
      continueWith more
      groupName
      numbered s
    | '?' :: more => openingSwitches s more
    | _ => numbered s) := rfl

theorem closes_groupOpening : Closes n n AtEnd groupOpening groupOpening := by
  rw [groupOpening_eq]
  refine closes_skipIgnored.bind fun _ => closes_switches.bind fun s =>
    .ofRest (fun _ _ => rfl) (closes_numbered (n := 0) s).spends ?_ ?_
  · intro t ht
    exact (closes_numbered s).closed t (by simp [ht])
  · intro c more t ht hmore
    have hname : ∀ {behind : List Char}, behind.length ≤ n → Agrees n AtEnd
        ((continueWith behind >>= fun _ => groupName >>= fun _ => numbered s) t)
        ((continueWith (behind ++ [')']) >>= fun _ => groupName >>= fun _ => numbered s) t.closed) :=
      fun hbehind => Closes.continueWith (closes_groupName.bind fun _ => closes_numbered s) hbehind
    by_cases hmark : c = '?'
    · subst hmark
      have hswitches := closes_openingSwitches s (t := t) (Nat.le_of_lt hmore)
      match more with
      | [] => exact hswitches
      | [d] =>
        by_cases hangle : d = '<'
        · subst hangle
          exact hname (by simp only [List.length_singleton] at hmore; exact Nat.zero_le _)
        · simp only [List.cons_append, List.nil_append, List.cons.injEq, hangle, Char.reduceEq,
            false_and, and_false, imp_self, implies_true] at hswitches ⊢
          exact hswitches
      | d :: e :: behind =>
        simp only [List.length_cons] at hmore
        by_cases hangle : d = '<'
        · subst hangle
          exact hname (by simp only [List.length_cons]; omega)
        · by_cases hname' : d = 'P' ∧ e = '<'
          · obtain ⟨rfl, rfl⟩ := hname'
            exact hname (by omega)
          · simp only [List.cons_append, List.cons.injEq, ← and_assoc, hangle, hname', false_and,
              imp_self, implies_true] at hswitches ⊢
            exact hswitches
    · simp only [List.cons.injEq, hmark, false_and, imp_self, implies_true]
      exact (closes_numbered s).closed t (by rw [ht]; exact hmore)

theorem closes_fewTurns : Closes n n AtEnd fewTurns fewTurns := by
  refine closes_switches.bind fun s => .ofRest (fun _ _ => rfl) (.answer _) ?_ ?_
  · intro t ht
    exact .untouched (s := t) (by simp [ht])
  · intro c more t ht hmore
    by_cases hmark : c = '?'
    · subst hmark
      exact Closes.continueWith (.answer _) (Nat.le_of_lt hmore)
    · simp only [List.cons.injEq, hmark, false_and, imp_self, implies_true]
      exact .untouched (by rw [ht]; exact hmore)

theorem closes_repeated (bounds : Nat × Option Nat) (parts : List Piece) :
    Closes n n AtEnd (repeated bounds parts) (repeated bounds parts) := by
  unfold repeated
  split
  · exact closes_fewTurns.bind fun _ => .answer _
  · exact .fail

/-! ### Counted repetitions -/

theorem skipBlanks_of_paren {s : Reading} (hs : s.rest = [')']) : skipBlanks s = some ((), s) := by
  change some ((), { s with rest := s.rest.dropWhile Text.isBlank }) = _
  rw [hs, List.dropWhile_cons_of_neg (by decide), ← hs]

theorem skipIgnored_of_paren {s : Reading} (hs : s.rest = [')']) :
    skipIgnored s = some ((), s) :=
  skipIgnored_of_cons hs (by decide) (by decide)

/-- In front of the parenthesis there is no number. -/
theorem decimal_of_paren {s : Reading} (hs : s.rest = [')']) : decimal s = some (none, s) := by
  have hdigits : digits 1 s = some ([], s) := by
    rw [digits, rest_bind_of hs]
    rfl
  rw [decimal, bind_apply, skipBlanks_of_paren hs, Option.bind_some, rest_bind_of hs, bind_apply]
  change (digits 1 s).bind _ = _
  rw [hdigits, Option.bind_some, bind_apply, skipBlanks_of_paren hs, Option.bind_some, bind_apply,
    skipIgnored_of_paren hs]
  rfl

/-- The closing brace behind the bounds of a repetition. -/
def countsEnd (bounds : Nat × Option Nat) : Read (Nat × Option Nat) := do
  match ← rest with
  | '}' :: more =>
    continueBehind more
    return bounds
  | _ => failure

theorem countsEnd_of_paren {s : Reading} (hs : s.rest = [')']) (bounds : Nat × Option Nat) :
    countsEnd bounds s = none := by
  rw [countsEnd, rest_bind_of hs]
  rfl

theorem closes_countsEnd (bounds : Nat × Option Nat) :
    Closes n n AtEnd (countsEnd bounds) (countsEnd bounds) := by
  refine .ofRest_fails rfl rfl ?_ ?_
  · rintro s hs b t ⟨⟩
  · intro c more s hs hmore
    by_cases hbrace : c = '}'
    · subst hbrace
      exact Closes.continueBehind (.answer _) (Nat.le_of_lt hmore)
    · simp only [List.cons.injEq, hbrace, false_and, imp_self, implies_true]
      exact .refused

/-- The upper bound of a repetition behind the comma. -/
def countsMost (least : Option Nat) : Read (Nat × Option Nat) := do
  match ← peek, least with
  | '}', some least => countsEnd (least, none)
  | _, some least =>
    match ← decimal with
    | some most => if least ≤ most then countsEnd (least, some most) else failure
    | none => failure
  | _, none => failure

/-- The bounds of a repetition behind the lower one. -/
def countsBehind (least : Option Nat) : Read (Nat × Option Nat) := do
  match ← peek with
  | ',' => do
    continueBehind ((← rest).drop 1)
    countsMost least
  | _ =>
    match least with
    | some n => countsEnd (n, some n)
    | none => failure

theorem counts_eq : counts = (do
    let _ ← peek
    let least ← decimal
    countsBehind least) := rfl

theorem closes_countsMost (least : Option Nat) :
    Closes n n AtEnd (countsMost least) (countsMost least) := by
  refine closes_peek.bind_beyond (fun c => ?_) ?_
  · split
    · exact closes_countsEnd _
    · refine closes_decimal.bind fun most => ?_
      cases most with
      | none => exact .fail
      | some most => exact .ite (closes_countsEnd _) .fail
    · exact .fail
  · rintro c t bounds u ⟨rfl, ht⟩ hrun
    cases least with
    | none => cases hrun
    | some least =>
      change (decimal t).bind _ = _ at hrun
      rw [decimal_of_paren ht] at hrun
      cases hrun

theorem closes_countsBehind (least : Option Nat) :
    Closes n n AtEnd (countsBehind least) (countsBehind least) := by
  refine closes_peek.bind_beyond (fun c => ?_) ?_
  · split
    · have hnone : ∀ s, (continueBehind [] >>= fun _ => countsMost least) s = none := by
        intro s
        rw [bind_apply, continueBehind_nil, Option.bind_some, countsMost, bind_apply,
          peek_of_nil rfl]
        rfl
      refine .ofRest_fails (funext hnone) (funext hnone) ?_ ?_
      · intro s hs b t h
        cases (hnone _).symm.trans h
      · intro d more s hs hmore
        exact Closes.continueBehind (j := more.length) (closes_countsMost least)
          (Nat.le_of_lt hmore)
    · cases least with
      | none => exact .fail
      | some least => exact closes_countsEnd _
  · rintro c t bounds u ⟨rfl, ht⟩ hrun
    cases least with
    | none => cases hrun
    | some least =>
      change countsEnd _ t = _ at hrun
      rw [countsEnd_of_paren ht] at hrun
      cases hrun

theorem countsBehind_of_paren {s : Reading} (hs : s.rest = [')']) :
    countsBehind none s = none := by
  rw [countsBehind, bind_apply, peek_of_cons hs]
  rfl

/-- The parenthesis is no number. -/
theorem counts_of_paren {s : Reading} (hs : s.rest = [')']) : counts s = none := by
  rw [counts_eq, bind_apply, peek_of_cons hs, Option.bind_some, bind_apply, decimal_of_paren hs]
  exact countsBehind_of_paren hs

theorem closes_counts : Closes n n AtEnd counts counts := by
  rw [counts_eq]
  refine closes_peek.bind_beyond (fun _ => closes_decimal.bind closes_countsBehind) ?_
  rintro c t bounds u ⟨-, ht⟩ hrun
  rw [bind_apply, decimal_of_paren ht, Option.bind_some, countsBehind_of_paren ht] at hrun
  cases hrun

/-! ### Parts of a sequence -/

/-- The part of a sequence that an atom is. -/
def pieceOf (s : Switches) : Atom → Read Piece
  | .literal c byte =>
    if byte && !s.unicode && 128 ≤ c.toNat then failure
    else return ⟨some (.one (casedChar s c)), 0⟩
  | .set set => return ⟨some (.one set), 0⟩
  | .look l => return ⟨some (.look l), 0⟩

theorem closes_pieceOf {D : Piece → Reading → Prop} (s : Switches) (unit : Atom) :
    Closes n n D (pieceOf s unit) (pieceOf s unit) := by
  cases unit with
  | literal c byte => exact .ite .fail (.answer _)
  | set set => exact .answer _
  | look l => exact .answer _

theorem closes_single : Closes (n + 1) n AtBrace single single := by
  refine closes_switches.bind_sure fun s => .ofRest_fails rfl rfl ?_ ?_
  · intro t ht p u h
    exact .inl ((closes_pieceOf (n := 0) (D := AtEnd) s (.literal ')' false)).spends.continueWith h)
  · intro c more t ht hmore
    have hmore := Nat.le_of_lt_succ hmore
    have hanswer : ∀ unit, Agrees n AtBrace
        ((continueWith more >>= fun _ => pure unit >>= pieceOf s) t)
        ((continueWith (more ++ [')']) >>= fun _ => pure unit >>= pieceOf s) t.closed) :=
      fun unit => Closes.continueWith (j := more.length) (closes_pieceOf s unit) hmore
    by_cases hslash : c = '\\'
    · subst hslash
      refine Closes.continueWith (j := more.length)
        (closes_escape.bind_beyond (closes_pieceOf s) ?_) hmore
      rintro unit v p u (hend | ⟨⟨l, rfl⟩, hstuck⟩) hrun
      · exact .inl ((closes_pieceOf (n := 0) (D := AtEnd) s unit).spends v p u hend hrun)
      · cases hrun
        exact .inr hstuck
    · by_cases hdot : c = '.'
      · subst hdot
        have hset : ∀ set, Closes more.length more.length AtBrace
            (pure (Atom.set set) >>= pieceOf s) (pure (Atom.set set) >>= pieceOf s) :=
          fun set => (Closes.answer _).bind_sure (closes_pieceOf s)
        exact Closes.continueWith (j := more.length)
          (.ite .fail (.ite (hset _) (.ite (hset _) (hset _)))) hmore
      · by_cases hcaret : c = '^'
        · subst hcaret
          exact hanswer _
        · by_cases hdollar : c = '$'
          · subst hdollar
            exact hanswer _
          · simp only
            exact hanswer _

/-! ### Groups -/

theorem group_of_nil {choices parts : List Piece} {s : Reading} (hs : s.rest = []) :
    group (m + 1) choices parts s =
      some (Piece.choice (choices ++ [Piece.sequence parts.reverse]), s) := by
  rw [group, bind_apply, skipIgnored_of_nil hs, Option.bind_some, rest_bind_of hs]
  rfl

/-- A brace that begins no repetition is no part of a pattern. -/
theorem group_of_stuck {choices parts : List Piece} {s : Reading} (hs : Stuck s) :
    group m choices parts s = none := by
  obtain ⟨more, hmore, t, hskip, ht⟩ := hs
  cases m with
  | zero => rfl
  | succ m =>
    rw [group, bind_apply, skipIgnored_of_cons hmore (by decide) (by decide), Option.bind_some,
      rest_bind_of hmore]
    simp only
    split
    · rfl
    · rw [bind_apply, show continueBehind more s = skipIgnored { s with rest := more } from rfl,
        hskip, Option.bind_some, bind_apply, counts_of_paren ht]
      rfl

/-! ### One step of a group

The rest of a group is read by recursion.  What one step does with the next character is written here
with the recursion as a parameter `go`, so that what goes through one step is said once for each of its
parts. -/

/-- A sign of repetition. -/
def turnsBehind (go : List Piece → List Piece → Read Piece) (choices parts : List Piece)
    (bounds : Nat × Option Nat) : Read Piece := do
  go choices (← repeated bounds parts)

/-- An inner group was read. -/
def innerBehind (go : List Piece → List Piece → Read Piece) (choices parts : List Piece)
    (number : Option Nat) (outer : Switches) (inner : Piece) : Read Piece := do
  match ← rest with
  | ')' :: more =>
    modify ({ · with switches := outer, rest := more })
    go choices (⟨some (.group number inner.body), 1 + inner.depth⟩ :: parts)
  | _ => failure

/-- An opening parenthesis and what belongs to it were read. -/
def openingDone (go : List Piece → List Piece → Read Piece) (choices parts : List Piece) :
    Opening → Read Piece
  | .switches s => do
    modify ({ · with switches := s })
    go choices (⟨none, 0⟩ :: parts)
  | .group number s => do
    let outer ← switches
    modify ({ · with switches := s })
    innerBehind go choices parts number outer (← go [] [])

/-- A step of a group in front of the character `c`. -/
def groupAt (go : List Piece → List Piece → Read Piece) (choices parts : List Piece)
    (more : List Char) (c : Char) : Read Piece :=
  if c = ')' then return Piece.choice (choices ++ [Piece.sequence parts.reverse])
  else if c = '|' then do
    continueWith more
    go (choices ++ [Piece.sequence parts.reverse]) []
  else if c = '(' then do
    continueWith more
    openingDone go choices parts (← groupOpening)
  else if c = '[' then do
    continueWith more
    let class_ ← bracketed
    go choices (⟨some (.one class_.set), class_.depth⟩ :: parts)
  else if c = '?' then do
    continueWith more
    turnsBehind go choices parts (0, some 1)
  else if c = '*' then do
    continueWith more
    turnsBehind go choices parts (0, none)
  else if c = '+' then do
    continueWith more
    turnsBehind go choices parts (1, none)
  else if c = '{' then
    if parts.isEmpty then failure
    else do
      continueBehind more
      turnsBehind go choices parts (← counts)
  else do go choices ((← single) :: parts)

/-- The rest of a group by steps, with the recursion as a parameter. -/
def groupStep (go : List Piece → List Piece → Read Piece) (choices parts : List Piece) :
    List Char → Read Piece
  | [] => return Piece.choice (choices ++ [Piece.sequence parts.reverse])
  | c :: more => groupAt go choices parts more c

theorem bind_congr_at {α β : Type} {f g : Read α} {k k' : α → Read β} {s : Reading}
    (hfg : f s = g s) (hk : ∀ a t, f s = some (a, t) → k a t = k' a t) :
    (f >>= k) s = (g >>= k') s := by
  rw [bind_apply, bind_apply, ← hfg]
  cases hf : f s with
  | none => rfl
  | some p => exact hk p.1 p.2 hf

theorem ite_congr_at {p : Prop} [Decidable p] {f g f' g' : Read α} {s : Reading} (hf : f s = f' s)
    (hg : g s = g' s) : (if p then f else g) s = (if p then f' else g') s := by
  split
  · exact hf
  · exact hg

theorem continueWith_bind (more : List Char) (k : Unit → Read α) (s : Reading) :
    (continueWith more >>= k) s = k () { s with rest := more } := rfl

theorem group_succ (choices parts : List Piece) :
    group (m + 1) choices parts =
      skipIgnored >>= fun _ => rest >>= groupStep (group m) choices parts := by
  rw [group]
  refine congrArg (skipIgnored >>= ·) (funext fun _ => congrArg (rest >>= ·) (funext fun text => ?_))
  cases text with
  | nil => rfl
  | cons c more =>
    rw [groupStep, groupAt]
    by_cases hclose : c = ')'
    · subst hclose
      rfl
    by_cases hbar : c = '|'
    · subst hbar
      rfl
    by_cases hopen : c = '('
    · subst hopen
      refine congrArg (continueWith more >>= ·) (funext fun _ => ?_)
      refine congrArg (groupOpening >>= ·) (funext fun opening => ?_)
      cases opening <;> rfl
    by_cases hbracket : c = '['
    · subst hbracket
      rfl
    by_cases hmark : c = '?'
    · subst hmark
      rfl
    by_cases hstar : c = '*'
    · subst hstar
      rfl
    by_cases hplus : c = '+'
    · subst hplus
      rfl
    by_cases hbrace : c = '{'
    · subst hbrace
      simp only
      split <;> rfl
    simp only [List.cons.injEq, hclose, hbar, hopen, hbracket, hmark, hstar, hplus, hbrace,
      false_and, imp_self, implies_true, if_false]

/-! ### In front of a parenthesis -/

theorem closes_switchTo (s : Switches) :
    Closes n n AtEnd (modify ({ · with switches := s }) : Read Unit)
      (modify ({ · with switches := s })) :=
  .keeping fun t => ⟨(), { t with switches := s }, rfl, rfl, rfl⟩

section

variable {go go' : List Piece → List Piece → Read Piece} {choices parts : List Piece}
  (hgo : ∀ choices parts, Closes n n AtEnd (go choices parts) (go' choices parts))

include hgo

theorem closes_turnsBehind (bounds : Nat × Option Nat) :
    Closes n n AtEnd (turnsBehind go choices parts bounds) (turnsBehind go' choices parts bounds) :=
  (closes_repeated bounds parts).bind fun parts => hgo choices parts

theorem closes_innerBehind (number : Option Nat) (outer : Switches) (inner : Piece) :
    Closes n n AtEnd (innerBehind go choices parts number outer inner)
      (innerBehind go' choices parts number outer inner) := by
  refine .ofRest_fails rfl rfl ?_ ?_
  · intro t ht p u h
    exact (hgo _ _).spends { t.closed with switches := outer, rest := [] } p u rfl h
  · intro d behind t ht hbehind
    by_cases hinner : d = ')'
    · subst hinner
      exact (hgo _ _).closed { t with switches := outer, rest := behind } (Nat.le_of_lt hbehind)
    · simp only [List.cons.injEq, hinner, false_and, imp_self, implies_true]
      exact .refused

theorem closes_openingDone (opening : Opening) :
    Closes n n AtEnd (openingDone go choices parts opening)
      (openingDone go' choices parts opening) := by
  cases opening with
  | switches next => exact (closes_switchTo next).bind fun _ => hgo _ _
  | group number next =>
    exact closes_switches.bind fun outer => (closes_switchTo next).bind fun _ =>
      (hgo [] []).bind fun inner => closes_innerBehind hgo number outer inner

end

theorem Agrees.ite {p : Prop} [Decidable p] {D : α → Reading → Prop} {f g f' g' : Read α}
    {s t : Reading} (hf : Agrees n D (f s) (f' t)) (hg : Agrees n D (g s) (g' t)) :
    Agrees n D ((if p then f else g) s) ((if p then f' else g') t) := by
  split
  · exact hf
  · exact hg

theorem closes_groupAt {go go' : List Piece → List Piece → Read Piece} {choices parts : List Piece}
    {more : List Char} {c : Char} {s : Reading} (hs : s.rest = c :: more)
    (hgo : ∀ choices parts,
      Closes more.length more.length AtEnd (go choices parts) (go' choices parts))
    (hstuck : ∀ choices parts t, Stuck t → go' choices parts t = none) :
    Agrees (more.length + 1) AtEnd (groupAt go choices parts more c s)
      (groupAt go' choices parts (more ++ [')']) c s.closed) := by
  have hlength := Nat.le_succ more.length
  have hturns : ∀ bounds, Closes more.length more.length AtEnd
      (turnsBehind go choices parts bounds) (turnsBehind go' choices parts bounds) :=
    closes_turnsBehind hgo
  refine .ite ?_ (.ite ?_ (.ite ?_ (.ite ?_ (.ite ?_ (.ite ?_ (.ite ?_ (.ite (.ite ?_ ?_) ?_)))))))
  · exact .untouched (s := s) (by simp [hs])
  · exact Closes.continueWith (hgo _ _) hlength
  · exact Closes.continueWith
      (closes_groupOpening.bind fun opening => closes_openingDone hgo opening) hlength
  · exact Closes.continueWith (closes_bracketed.bind fun class_ => hgo _ _) hlength
  · exact Closes.continueWith (hturns _) hlength
  · exact Closes.continueWith (hturns _) hlength
  · exact Closes.continueWith (hturns _) hlength
  · exact .refused
  · exact Closes.continueBehind (closes_counts.bind hturns) hlength
  · -- the parenthesis can stand behind a brace that the atom has left
    refine ((closes_single.bind_beyond (fun piece => hgo _ _) ?_).closed s (by simp [hs])).mono
      hlength fun _ _ => id
    rintro piece t p u (hend | hbrace) hrun
    · exact (hgo choices (piece :: parts)).spends t p u hend hrun
    · rw [hstuck _ _ t hbrace] at hrun
      cases hrun

/-- **Reading in front of a closing parenthesis.**  The induction is on the bound of the reading
alone. -/
theorem closes_group (hm : n < m) (hm' : n + 1 < m') (choices parts : List Piece) :
    Closes n n AtEnd (group m choices parts) (group m' choices parts) := by
  induction m generalizing n m' choices parts with
  | zero => omega
  | succ m ih =>
    obtain ⟨m', rfl⟩ := Nat.exists_eq_add_of_lt hm'
    rw [group_succ, group_succ]
    refine closes_skipIgnored.bind fun _ => .ofRest (fun _ _ => rfl) (.answer _) ?_ ?_
    · intro s hs
      exact .untouched (s := s) (by simp [hs])
    · intro c more s hs hmore
      have hgo : ∀ choices parts, Closes more.length more.length AtEnd
          (group m choices parts) (group (n + 1 + m') choices parts) :=
        fun choices parts => ih (by omega) (by omega) choices parts
      exact (closes_groupAt hs hgo fun _ _ _ => group_of_stuck).mono hmore fun _ _ => id

/-! ### Bounds of recursion -/

/-- Two steps are the same on texts of at most `n` characters. -/
def SameUpTo (n : Nat) (f g : Read α) : Prop := ∀ s, s.rest.length ≤ n → f s = g s

theorem Closes.length_le {i j : Nat} {D : α → Reading → Prop} {f g : Read α} {s t : Reading} {a : α}
    (h : Closes i j D f g) (hs : s.rest.length ≤ i) (hrun : f s = some (a, t)) :
    t.rest.length ≤ j := by
  have hstep := h.closed s hs
  rw [hrun] at hstep
  generalize g s.closed = y at hstep
  cases hstep with
  | untouched short => exact short
  | passedOver ended => simp [ended]

/-- A step that leaves no more than it had, and then another. -/
theorem SameUpTo.bind {i j : Nat} {β : Type} {D : α → Reading → Prop} {f f' g : Read α}
    {k k' : α → Read β} (h : SameUpTo i f f') (hf : Closes i j D f g)
    (hk : ∀ a, SameUpTo j (k a) (k' a)) : SameUpTo i (f >>= k) (f' >>= k') := fun s hs =>
  bind_congr_at (h s hs) fun a t ht => hk a t (hf.length_le hs ht)

theorem SameUpTo.refl (f : Read α) : SameUpTo n f f := fun _ _ => rfl

section

variable {go go' : List Piece → List Piece → Read Piece} {choices parts : List Piece}
  (hgo : ∀ choices parts, SameUpTo n (go choices parts) (go' choices parts))

include hgo

theorem sameUpTo_turnsBehind (bounds : Nat × Option Nat) :
    SameUpTo n (turnsBehind go choices parts bounds) (turnsBehind go' choices parts bounds) :=
  (SameUpTo.refl _).bind (closes_repeated bounds parts) fun parts => hgo choices parts

theorem sameUpTo_innerBehind (number : Option Nat) (outer : Switches) (inner : Piece) :
    SameUpTo n (innerBehind go choices parts number outer inner)
      (innerBehind go' choices parts number outer inner) := by
  intro s hs
  unfold innerBehind
  cases hrest : s.rest with
  | nil =>
    rw [rest_bind_of hrest, rest_bind_of hrest]
  | cons d behind =>
    rw [rest_bind_of hrest, rest_bind_of hrest]
    rw [hrest] at hs
    by_cases hinner : d = ')'
    · subst hinner
      exact hgo _ _ { s with switches := outer, rest := behind } (Nat.le_of_succ_le hs)
    · simp only [List.cons.injEq, hinner, false_and, imp_self, implies_true]

variable {far : List Piece → List Piece → Read Piece}
  (hfar : ∀ choices parts, Closes n n AtEnd (go choices parts) (far choices parts))

include hfar

theorem sameUpTo_openingDone (opening : Opening) :
    SameUpTo n (openingDone go choices parts opening) (openingDone go' choices parts opening) := by
  cases opening with
  | switches next => exact (SameUpTo.refl _).bind (closes_switchTo next) fun _ => hgo _ _
  | group number next =>
    exact (SameUpTo.refl _).bind (closes_switches (D := AtEnd)) fun outer =>
      (SameUpTo.refl _).bind (closes_switchTo next) fun _ =>
        (hgo [] []).bind (hfar [] []) fun inner => sameUpTo_innerBehind hgo number outer inner

theorem groupAt_congr {more : List Char} {c : Char} {s : Reading} (hs : s.rest = c :: more)
    (hmore : more.length ≤ n) :
    groupAt go choices parts more c s = groupAt go' choices parts more c s := by
  have hturns : ∀ bounds, SameUpTo n (turnsBehind go choices parts bounds)
      (turnsBehind go' choices parts bounds) := sameUpTo_turnsBehind hgo
  have hrest : ({ s with rest := more } : Reading).rest.length ≤ n := hmore
  refine ite_congr_at ?_ (ite_congr_at ?_ (ite_congr_at ?_ (ite_congr_at ?_ (ite_congr_at ?_
    (ite_congr_at ?_ (ite_congr_at ?_ (ite_congr_at (ite_congr_at ?_ ?_) ?_)))))))
  · rfl
  · exact hgo _ _ _ hrest
  · exact (SameUpTo.refl _).bind closes_groupOpening
      (fun opening => sameUpTo_openingDone hgo hfar opening) _ hrest
  · rw [continueWith_bind, continueWith_bind]
    exact (SameUpTo.refl _).bind closes_bracketed (fun class_ => hgo _ _) _ hrest
  · exact hturns _ _ hrest
  · exact hturns _ _ hrest
  · exact hturns _ _ hrest
  · rfl
  · exact (SameUpTo.refl _).bind (closes_skipIgnored (D := AtEnd)) (fun _ =>
      (SameUpTo.refl _).bind closes_counts hturns) _ hrest
  · exact (SameUpTo.refl _).bind closes_single (fun piece => hgo _ _) s (by simp [hs, hmore])

end

/-- **A bound above the length of the text does not matter.** -/
theorem group_congr (hm : n < m) (hm' : n < m') (choices parts : List Piece) :
    SameUpTo n (group m choices parts) (group m' choices parts) := by
  induction m generalizing n m' choices parts with
  | zero => omega
  | succ m ih =>
    obtain ⟨m', rfl⟩ := Nat.exists_eq_add_of_lt hm'
    rw [group_succ, group_succ]
    refine (SameUpTo.refl _).bind (closes_skipIgnored (D := AtEnd)) fun _ s hs => ?_
    cases hrest : s.rest with
    | nil =>
      rw [rest_bind_of hrest, rest_bind_of hrest]
      rfl
    | cons c more =>
      rw [rest_bind_of hrest, rest_bind_of hrest]
      rw [hrest, List.length_cons] at hs
      exact groupAt_congr (fun choices parts => ih (by omega) (by omega) choices parts)
        (closes_group (by omega) (Nat.lt_succ_self _)) hrest (Nat.le_refl _)

end Read

end Pattern

end WellLog
