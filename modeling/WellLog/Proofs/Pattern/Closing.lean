import WellLog.Pattern.Parser
/-!
# Reading in front of a closing parenthesis

A query puts the text of a pattern in front of a closing parenthesis.  The reader then sees one
character more at the end, and the question is what it makes of it.  A step that does not come to the
end of the text does not notice: it ends in the same way, and the parenthesis is still there
(`Agrees.untouched`).  A step that does may

* pass over the parenthesis as a part of a comment, and otherwise end in the same way
  (`Agrees.passedOver`),
* fail alone for want of text, and go on with the parenthesis (`Agrees.beyond`); it takes up the
  parenthesis then, and nothing is left for the group that was to be closed,
* fail in both cases (`Agrees.refused`).

`Closes` says this of a step for all texts, and goes through binds.  Where a step only looks at the
next character, the parenthesis is not taken up at once, so the condition `D` says what is left
instead: a later step fails on that or takes it up.

A step may also read with a bound on its recursion.  The text with the parenthesis is longer, so
steps are related with different bounds on both sides.

* `Closes.bind_beyond` : one step and then another.
* `Closes.ofRest`, `Closes.continueWith` : looking at the next character, and going on behind it.
* `closes_skipIgnored` : **a comment at the end takes up the parenthesis**; nothing else that is left
  out does.
* `closes_decimal`, `closes_escape` : numbers and escapes.
-/

namespace WellLog

namespace Pattern

/-- The place with a closing parenthesis behind the text. -/
def Reading.closed (s : Reading) : Reading := { s with rest := s.rest ++ [')'] }

theorem Reading.closed_of_nil {s : Reading} (hs : s.rest = []) : s.closed.rest = [')'] := by
  rw [closed, hs]
  rfl

theorem Reading.closed_of_cons {s : Reading} {c : Char} {more : List Char}
    (hs : s.rest = c :: more) : s.closed.rest = c :: (more ++ [')']) := by
  rw [closed, hs]
  rfl

namespace Read

variable {α β : Type} {i j n m m' : Nat} {D D' : α → Reading → Prop} {E : β → Reading → Prop}

/-- Nothing is left. -/
def AtEnd (_ : α) (s : Reading) : Prop := s.rest = []

/-- How a step ends on a text, and how another ends on the text with a closing parenthesis behind.
Where the first fails for want of text, the second ends in `D`. -/
inductive Agrees (n : Nat) (D : α → Reading → Prop) :
    Option (α × Reading) → Option (α × Reading) → Prop where
  /-- The parenthesis is still there. -/
  | untouched {a : α} {s : Reading} (short : s.rest.length ≤ n) :
    Agrees n D (some (a, s)) (some (a, s.closed))
  /-- A comment has passed over the parenthesis. -/
  | passedOver {a : α} {s : Reading} (ended : s.rest = []) : Agrees n D (some (a, s)) (some (a, s))
  /-- The text alone has nothing more. -/
  | beyond {b : α} {t : Reading} (ends : D b t) : Agrees n D none (some (b, t))
  /-- Neither is a pattern. -/
  | refused : Agrees n D none none

/-- A step that has nothing to read leaves nothing. -/
def Spends (f : Read α) : Prop := ∀ s a t, s.rest = [] → f s = some (a, t) → t.rest = []

/-- On a text of at most `i` characters the step `f` ends like the step `g` with a closing
parenthesis behind the text, and leaves at most `j` characters. -/
structure Closes (i j : Nat) (D : α → Reading → Prop) (f g : Read α) : Prop where
  /-- They end alike on a text and on the text with the parenthesis. -/
  closed : ∀ s, s.rest.length ≤ i → Agrees j D (f s) (g s.closed)
  /-- Without a text they are the same: a comment may have taken up the parenthesis before. -/
  same : ∀ s, s.rest = [] → f s = g s
  /-- Without a text nothing is left. -/
  spends : Spends g

theorem Agrees.mono {x y : Option (α × Reading)} (h : Agrees m D x y) (hmn : m ≤ n)
    (hD : ∀ b t, D b t → D' b t) : Agrees n D' x y := by
  cases h with
  | untouched short => exact .untouched (Nat.le_trans short hmn)
  | passedOver ended => exact .passedOver ended
  | beyond ends => exact .beyond (hD _ _ ends)
  | refused => exact .refused

theorem Agrees.of_none {y : Option (α × Reading)} (h : ∀ b t, y = some (b, t) → D b t) :
    Agrees n D none y := by
  cases y with
  | none => exact .refused
  | some p => exact .beyond (h p.1 p.2 rfl)

theorem Agrees.of_same {x : Option (α × Reading)}
    (h : ∀ b t, x = some (b, t) → t.rest = []) : Agrees n D x x := by
  cases x with
  | none => exact .refused
  | some p => exact .passedOver (h p.1 p.2 rfl)

theorem bind_apply (f : Read α) (k : α → Read β) (s : Reading) :
    (f >>= k) s = (f s).bind fun p => k p.1 p.2 := rfl

theorem rest_bind_of {text : List Char} {s : Reading} (hs : s.rest = text)
    (k : List Char → Read α) : (rest >>= k) s = k text s := hs ▸ rfl

namespace Spends

theorem bind {f : Read α} {k : α → Read β} (h : Spends f) (hk : ∀ a, Spends (k a)) :
    Spends (f >>= k) := by
  intro s b t hs
  rw [bind_apply]
  cases hf : f s with
  | none => exact nofun
  | some p => exact hk p.1 p.2 b t (h s p.1 p.2 hs hf)

theorem answer (a : α) : Spends (pure a : Read α) := by
  rintro s b t hs ⟨⟩
  exact hs

theorem of_none {f : Read α} (h : ∀ s, s.rest = [] → f s = none) : Spends f := by
  intro s a t hs hf
  rw [h s hs] at hf
  cases hf

/-- Behind the last character nothing is left. -/
theorem continueWith {f : Read α} {s t : Reading} {b : α} (h : Spends f)
    (hrun : (Read.continueWith [] >>= fun _ => f) s = some (b, t)) : t.rest = [] :=
  h { s with rest := [] } b t rfl hrun

end Spends

namespace Closes

/-- One step and then another, where the text may have failed the first. -/
theorem bind_beyond {f g : Read α} {k k' : α → Read β} (h : Closes i j D f g)
    (hk : ∀ a, Closes j n E (k a) (k' a))
    (hD : ∀ b t c u, D b t → k' b t = some (c, u) → E c u) :
    Closes i n E (f >>= k) (g >>= k') where
  closed s hs := by
    have hstep := h.closed s hs
    rw [bind_apply, bind_apply]
    generalize f s = x at hstep
    generalize g s.closed = y at hstep
    cases hstep with
    | @untouched a s short => exact (hk a).closed s short
    | @passedOver a s ended =>
      simp only [Option.bind_some]
      rw [(hk a).same s ended]
      exact .of_same fun b t => (hk a).spends s b t ended
    | @beyond b t ends => exact .of_none fun c u => hD b t c u ends
    | refused => exact .refused
  same s hs := by
    rw [bind_apply, bind_apply, h.same s hs]
    cases hg : g s with
    | none => rfl
    | some p => exact (hk p.1).same p.2 (h.spends s p.1 p.2 hs hg)
  spends := h.spends.bind fun a => (hk a).spends

/-- One step, which does not fail for want of text, and then another. -/
theorem bind_sure {f g : Read α} {k k' : α → Read β} (h : Closes i j (fun _ _ => False) f g)
    (hk : ∀ a, Closes j n E (k a) (k' a)) : Closes i n E (f >>= k) (g >>= k') :=
  h.bind_beyond hk fun _ _ _ _ hnever => hnever.elim

/-- One step and then another. -/
theorem bind {f g : Read α} {k k' : α → Read β} (h : Closes i j AtEnd f g)
    (hk : ∀ a, Closes j n AtEnd (k a) (k' a)) : Closes i n AtEnd (f >>= k) (g >>= k') :=
  h.bind_beyond hk fun b t c u hend => (hk b).spends t c u hend

theorem mono {f g : Read α} (h : Closes i j D f g) (hD : ∀ b t, D b t → D' b t) :
    Closes i j D' f g where
  closed s hs := (h.closed s hs).mono (Nat.le_refl j) hD
  same := h.same
  spends := h.spends

theorem weaken {f g : Read α} (h : Closes i j D f g) (hi : m ≤ i) (hj : j ≤ n) :
    Closes m n D f g where
  closed s hs := (h.closed s (Nat.le_trans hs hi)).mono hj fun _ _ => id
  same := h.same
  spends := h.spends

theorem answer (a : α) : Closes n n D (pure a) (pure a) where
  closed _ hs := .untouched hs
  same _ _ := rfl
  spends := .answer a

theorem fail : Closes i j D (failure : Read α) failure where
  closed _ _ := .refused
  same _ _ := rfl
  spends _ _ _ _ h := by cases h

/-- A choice between two steps that does not depend on the text. -/
theorem ite {p : Prop} [Decidable p] {f g f' g' : Read α} (hf : Closes i j D f f')
    (hg : Closes i j D g g') : Closes i j D (if p then f else g) (if p then f' else g') := by
  split
  · exact hf
  · exact hg

/-- A step that changes the place but not the text. -/
theorem keeping {f : Read α} (h : ∀ s, ∃ a t, f s = some (a, t) ∧ t.rest = s.rest ∧
    f s.closed = some (a, t.closed)) : Closes n n D f f where
  closed s hs := by
    obtain ⟨a, t, hf, ht, hclosed⟩ := h s
    rw [hf, hclosed]
    exact .untouched (ht ▸ hs)
  same _ _ := rfl
  spends s b u hs hrun := by
    obtain ⟨a, t, hf, ht, -⟩ := h s
    cases hf ▸ hrun
    rw [ht, hs]

/-! #### Looking at what is left -/

theorem ofRest {k k' : List Char → Read α} (same : ∀ s, s.rest = [] → k [] s = k' [] s)
    (spends : Spends (k' []))
    (stop : ∀ s, s.rest = [] → Agrees j D (k [] s) (k' [')'] s.closed))
    (cons : ∀ c more s, s.rest = c :: more → more.length < i →
      Agrees j D (k (c :: more) s) (k' (c :: (more ++ [')'])) s.closed)) :
    Closes i j D (rest >>= k) (rest >>= k') where
  closed s hs := by
    change Agrees j D (k s.rest s) (k' (s.rest ++ [')']) s.closed)
    cases hrest : s.rest with
    | nil => exact stop s hrest
    | cons c more => exact cons c more s hrest (by rw [hrest] at hs; exact hs)
  same s hs := by
    rw [rest_bind_of hs, rest_bind_of hs]
    exact same s hs
  spends s a t hs := by
    rw [rest_bind_of hs]
    exact spends s a t hs

/-- A step that needs a character. -/
theorem ofRest_fails {k k' : List Char → Read α} (hk : k [] = failure) (hk' : k' [] = failure)
    (stop : ∀ s : Reading, s.rest = [] → ∀ b t, k' [')'] s.closed = some (b, t) → D b t)
    (cons : ∀ c more s, s.rest = c :: more → more.length < i →
      Agrees j D (k (c :: more) s) (k' (c :: (more ++ [')'])) s.closed)) :
    Closes i j D (rest >>= k) (rest >>= k') := by
  refine .ofRest ?_ ?_ ?_ cons
  · intro s _
    rw [hk, hk']
  · intro s a t _ h
    rw [hk'] at h
    cases h
  · intro s hs
    rw [hk]
    exact .of_none (stop s hs)

/-- A step that takes the length of the text for a bound. -/
theorem ofRest_sized {k k' : List Char → Read α}
    (h : ∀ text, Closes text.length text.length D (k text) (k' (text ++ [')'])))
    (same : ∀ s, s.rest = [] → k [] s = k' [] s) (spends : Spends (k' [])) :
    Closes n n D (rest >>= k) (rest >>= k') where
  closed s hs := ((h s.rest).closed s (Nat.le_refl _)).mono hs fun _ _ => id
  same s hs := by
    rw [rest_bind_of hs, rest_bind_of hs]
    exact same s hs
  spends s a t hs := by
    rw [rest_bind_of hs]
    exact spends s a t hs

/-- Going on with a shorter text. -/
theorem continueWith {f g : Read α} {more : List Char} {s : Reading}
    (h : Closes more.length j D f g) (hj : j ≤ n) :
    Agrees n D ((Read.continueWith more >>= fun _ => f) s)
      ((Read.continueWith (more ++ [')']) >>= fun _ => g) s.closed) :=
  (h.closed { s with rest := more } (Nat.le_refl _)).mono hj fun _ _ => id

end Closes

theorem closes_switches {D : Switches → Reading → Prop} : Closes n n D switches switches :=
  .keeping fun s => ⟨s.switches, s, rfl, rfl, rfl⟩

/-! ### What is left out -/

theorem dropIgnored_closed (inComment : Bool) (text : List Char) :
    dropIgnored inComment (text ++ [')']) = dropIgnored inComment text ++ [')'] ∨
      dropIgnored inComment text = [] ∧ dropIgnored inComment (text ++ [')']) = [] := by
  fun_induction dropIgnored inComment text with
  | case1 inComment =>
    cases inComment with
    | false => exact .inl rfl
    | true => exact .inr ⟨rfl, rfl⟩
  | case2 c rest ih => exact ih
  | case3 c rest hblank ih =>
    rw [List.cons_append, dropIgnored, if_pos hblank]
    exact ih
  | case4 c rest hblank hmark ih =>
    rw [List.cons_append, dropIgnored, if_neg hblank, if_pos hmark]
    exact ih
  | case5 c rest hblank hmark =>
    rw [List.cons_append, dropIgnored, if_neg hblank, if_neg hmark]
    exact .inl rfl

theorem length_dropIgnored_le (inComment : Bool) (text : List Char) :
    (dropIgnored inComment text).length ≤ text.length := by
  fun_induction dropIgnored inComment text <;>
    simp only [List.length_cons, Nat.le_refl] at * <;> omega

theorem skipIgnored_apply (s : Reading) :
    skipIgnored s = some ((), if s.switches.verbose then { s with rest := dropIgnored false s.rest }
      else s) := rfl

theorem skipIgnored_of_verbose {s : Reading} (h : s.switches.verbose = true) :
    skipIgnored s = some ((), { s with rest := dropIgnored false s.rest }) := by
  rw [skipIgnored_apply, if_pos h]

theorem skipIgnored_of_not_verbose {s : Reading} (h : ¬ s.switches.verbose = true) :
    skipIgnored s = some ((), s) := by
  rw [skipIgnored_apply, if_neg h]

/-- There is nothing to leave out in front of a character that stands for something. -/
theorem skipIgnored_of_cons {s : Reading} {c : Char} {more : List Char} (hs : s.rest = c :: more)
    (hblank : Text.isBlank c = false) (hmark : c ≠ '#') : skipIgnored s = some ((), s) := by
  rw [skipIgnored_apply]
  split
  · rw [hs, dropIgnored, if_neg (by rw [hblank]; exact Bool.false_ne_true),
      if_neg (by simpa using hmark), ← hs]
  · rfl

theorem skipIgnored_of_nil {s : Reading} (hs : s.rest = []) : skipIgnored s = some ((), s) := by
  rw [skipIgnored_apply]
  split
  · rw [hs, dropIgnored, ← hs]
  · rfl

theorem spends_skipIgnored : Spends skipIgnored := by
  intro s a t hs h
  rw [skipIgnored_of_nil hs] at h
  cases h
  exact hs

theorem closes_skipIgnored {D : Unit → Reading → Prop} :
    Closes n n D skipIgnored skipIgnored where
  closed s hs := by
    by_cases hverbose : s.switches.verbose
    · rw [skipIgnored_of_verbose hverbose, skipIgnored_of_verbose (s := s.closed) hverbose]
      obtain hclosed | ⟨hnone, hclosed⟩ := dropIgnored_closed false s.rest
      · rw [show s.closed.rest = s.rest ++ [')'] from rfl, hclosed]
        exact .untouched (s := { s with rest := dropIgnored false s.rest })
          (Nat.le_trans (length_dropIgnored_le false s.rest) hs)
      · rw [show s.closed.rest = s.rest ++ [')'] from rfl, hclosed, hnone]
        exact .passedOver (s := { s with rest := [] }) rfl
    · rw [skipIgnored_of_not_verbose hverbose,
        skipIgnored_of_not_verbose (s := s.closed) hverbose]
      exact .untouched hs
  same _ _ := rfl
  spends := spends_skipIgnored

theorem continueBehind_nil (s : Reading) :
    continueBehind [] s = some ((), { s with rest := [] }) :=
  skipIgnored_of_nil (s := { s with rest := [] }) rfl

theorem Spends.continueBehind {f : Read α} {s t : Reading} {b : α} (h : Spends f)
    (hrun : (Read.continueBehind [] >>= fun _ => f) s = some (b, t)) : t.rest = [] := by
  rw [bind_apply, continueBehind_nil] at hrun
  exact h _ b t rfl hrun

/-- Going on with a shorter text, behind what is left out there. -/
theorem Closes.continueBehind {f g : Read α} {more : List Char} {s : Reading}
    (h : Closes more.length j D f g) (hj : j ≤ n) :
    Agrees n D ((Read.continueBehind more >>= fun _ => f) s)
      ((Read.continueBehind (more ++ [')']) >>= fun _ => g) s.closed) :=
  (closes_skipIgnored.bind_sure fun _ => h).continueWith hj

/-! ### Numbers -/

/-- Characters of one kind at the front of the text. -/
theorem closes_front {front : Nat → Read (List Char)} {p : Char → Bool} (hparen : p ')' = false)
    (hzero : front 0 = pure [])
    (hsucc : ∀ m, front (m + 1) = do
      match ← rest with
      | c :: more =>
        if p c then
          continueBehind more
          return c :: (← front m)
        else return []
      | [] => return [])
    (hm : n ≤ m) (hm' : n < m') : Closes n n AtEnd (front m) (front m') := by
  have hnil : ∀ m s, s.rest = [] → front m s = some ([], s) := by
    intro m s hs
    cases m with
    | zero => rw [hzero]; rfl
    | succ m => rw [hsucc, rest_bind_of hs]; rfl
  induction m' generalizing n m with
  | zero => omega
  | succ m' ih =>
    cases m with
    | zero =>
      refine ⟨fun s hs => ?_, fun s hs => ?_, fun s a t hs h => ?_⟩
      · obtain hs := List.length_eq_zero_iff.1 (Nat.le_zero.1 (Nat.le_trans hs hm))
        rw [hnil 0 s hs, hsucc, rest_bind_of (Reading.closed_of_nil hs)]
        simp only [hparen, Bool.false_eq_true, if_false]
        exact .untouched (by simp [hs])
      · rw [hnil _ s hs, hnil _ s hs]
      · cases hnil _ s hs ▸ h
        exact hs
    | succ m =>
      rw [hsucc, hsucc]
      refine .ofRest (fun _ _ => rfl) (.answer []) ?_ ?_
      · intro s hs
        simp only [hparen, Bool.false_eq_true, if_false]
        exact .untouched (s := s) (by simp [hs])
      · intro c more s hs hmore
        simp only
        by_cases hc : p c
        · rw [if_pos hc, if_pos hc]
          refine Closes.continueBehind (j := more.length)
            ((ih ?_ ?_).bind fun ds => .answer _) ?_ <;>
            omega
        · rw [if_neg hc, if_neg hc]
          exact .untouched (s := s) (by rw [hs]; exact hmore)

theorem closes_digits (hm : n ≤ m) (hm' : n < m') : Closes n n AtEnd (digits m) (digits m') :=
  closes_front (p := Char.isDigit) (by decide) rfl (fun _ => rfl) hm hm'

theorem closes_wordLookName (hm : n ≤ m) (hm' : n < m') :
    Closes n n AtEnd (wordLookName m) (wordLookName m') :=
  closes_front (p := fun c => c.isAlpha || c == '-') (by decide) rfl (fun _ => rfl) hm hm'

theorem dropWhile_isBlank_closed (text : List Char) :
    (text ++ [')']).dropWhile Text.isBlank = text.dropWhile Text.isBlank ++ [')'] := by
  induction text with
  | nil => rfl
  | cons c text ih =>
    by_cases hblank : Text.isBlank c
    · simp only [List.cons_append, List.dropWhile_cons_of_pos hblank, ih]
    · simp only [List.cons_append, List.dropWhile_cons_of_neg hblank]

theorem closes_skipBlanks : Closes n n AtEnd skipBlanks skipBlanks where
  closed s hs := by
    have hclosed : skipBlanks s.closed =
        some ((), ({ s with rest := s.rest.dropWhile Text.isBlank } : Reading).closed) := by
      simp only [Reading.closed, ← dropWhile_isBlank_closed]
      rfl
    rw [hclosed]
    exact .untouched (s := { s with rest := s.rest.dropWhile Text.isBlank })
      (Nat.le_trans (List.dropWhile_suffix _).length_le hs)
  same _ _ := rfl
  spends := by
    rintro s a t hs ⟨⟩
    change s.rest.dropWhile Text.isBlank = []
    rw [hs]
    rfl

theorem closes_someDigits {k : List Char → Read α}
    (hk : ∀ n ds, Closes n n AtEnd (k ds) (k ds)) :
    Closes n n AtEnd (rest >>= fun text => digits text.length >>= k)
      (rest >>= fun text => digits text.length >>= k) :=
  .ofRest_sized (fun text => (closes_digits (Nat.le_refl _) (by simp)).bind (hk _))
    (fun _ _ => rfl) (hk 0 []).spends

theorem closes_decimal : Closes n n AtEnd decimal decimal :=
  closes_skipBlanks.bind fun _ => closes_someDigits fun _ _ => closes_skipBlanks.bind fun _ =>
    closes_skipIgnored.bind fun _ => .ite (.answer _) (.ite (.answer _) .fail)

theorem closes_char (code : Nat) : Closes n n AtEnd (char code) (char code) :=
  .ite (.answer _) .fail

theorem closes_fixedHex (k value : Nat) :
    Closes n n AtEnd (fixedHex k value) (fixedHex k value) := by
  induction k generalizing n value with
  | zero => exact .answer value
  | succ k ih =>
    refine .ofRest_fails rfl rfl ?_ ?_
    · rintro s hs b t ⟨⟩
    · intro c more s hs hmore
      simp only
      cases hexValue? c with
      | none => exact .refused
      | some d => exact Closes.continueBehind (ih _) (Nat.le_of_lt hmore)

theorem closes_bracedHex (hm : n < m) (hm' : n + 1 < m') (value : Option Nat) :
    Closes n n AtEnd (bracedHex m value) (bracedHex m' value) := by
  induction m generalizing n m' value with
  | zero => omega
  | succ m ih =>
    obtain ⟨m', rfl⟩ := Nat.exists_eq_add_of_lt hm'
    refine .ofRest_fails rfl rfl ?_ ?_
    · rintro s hs b t ⟨⟩
    · intro c more s hs hmore
      by_cases hbrace : c = '}'
      · subst hbrace
        refine Closes.continueBehind (j := more.length) ?_ (Nat.le_of_lt hmore)
        cases value with
        | none => exact .fail
        | some v => exact .answer v
      · simp only
        cases hexValue? c with
        | none => exact .refused
        | some d =>
          refine Closes.continueBehind (j := more.length) (ih ?_ ?_ _) ?_ <;> omega

theorem braced_of_nil {s : Reading} (hs : s.rest = []) (m : Nat) : braced m s = none := by
  cases m with
  | zero => rfl
  | succ m =>
    rw [braced, rest_bind_of hs]
    rfl

theorem closes_braced (hm : n < m) (hm' : n + 1 < m') :
    Closes n n AtEnd (braced m) (braced m') := by
  induction m generalizing n m' with
  | zero => omega
  | succ m ih =>
    obtain ⟨m', rfl⟩ := Nat.exists_eq_add_of_lt hm'
    refine .ofRest_fails rfl rfl ?_ ?_
    · intro s hs b t h
      have hspends : Spends (braced (n + 1 + m')) := .of_none fun s hs => braced_of_nil hs _
      exact (hspends.bind fun name => .answer (')' :: name)).continueBehind h
    · intro c more s hs hmore
      by_cases hbrace : c = '}'
      · subst hbrace
        exact Closes.continueWith (.answer _) (Nat.le_of_lt hmore)
      · simp only
        refine Closes.continueBehind (j := more.length)
          ((ih ?_ ?_).bind fun name => .answer _) ?_ <;>
          omega

/-! ### Escapes -/

/-- The next character is the parenthesis. -/
def AtParen (c : Char) (s : Reading) : Prop := c = ')' ∧ s.rest = [')']

theorem peek_of_nil {s : Reading} (hs : s.rest = []) : peek s = none := by
  rw [peek, rest_bind_of hs]
  rfl

theorem peek_of_cons {s : Reading} {c : Char} {more : List Char} (hs : s.rest = c :: more) :
    peek s = some (c, s) := by
  rw [peek, rest_bind_of hs]
  rfl

theorem closes_peek : Closes n n AtParen peek peek := by
  refine .ofRest_fails rfl rfl ?_ ?_
  · rintro s hs b t ⟨⟩
    exact ⟨rfl, Reading.closed_of_nil hs⟩
  · intro c more s hs hmore
    exact .untouched (by rw [hs]; exact hmore)

/-- A brace is next, and behind it the parenthesis. -/
def Stuck (s : Reading) : Prop :=
  ∃ more, s.rest = '{' :: more ∧
    ∃ t, skipIgnored { s with rest := more } = some ((), t) ∧ t.rest = [')']

/-- Nothing is left, or the braces behind a word condition that are left for a repetition are not
closed. -/
def AtBrace (_ : α) (s : Reading) : Prop := s.rest = [] ∨ Stuck s

/-- What a word condition in braces is, by its name. -/
def wordName (unicode : Bool) (most : Nat) : Read Look := do
  let name ← wordLookName most
  match ← rest with
  | '}' :: more =>
    continueWith more
    match wordLook? name unicode with
    | some l => return l
    | none => failure
  | _ => failure

theorem wordEdge_of_brace {unicode : Bool} {more : List Char} {s : Reading}
    (hs : s.rest = '{' :: more) :
    wordEdge unicode s = (skipIgnored { s with rest := more }).bind fun p => (do
      let c ← peek
      if c.isAlpha || c == '-' then wordName unicode more.length
      else
        set s
        return .wordEdge unicode) p.2 := by
  rw [wordEdge, rest_bind_of hs]
  rfl

theorem closes_wordName (unicode : Bool) (hm : n ≤ m) (hm' : n < m') :
    Closes n n AtEnd (wordName unicode m) (wordName unicode m') := by
  refine (closes_wordLookName hm hm').bind fun name => .ofRest_fails rfl rfl ?_ ?_
  · rintro s hs b t ⟨⟩
  · intro c more s hs hmore
    by_cases hbrace : c = '}'
    · subst hbrace
      refine Closes.continueWith (j := more.length) ?_ (Nat.le_of_lt hmore)
      cases wordLook? name unicode with
      | none => exact .fail
      | some l => exact .answer l
    · simp only [List.cons.injEq, hbrace, false_and, imp_self, implies_true]
      exact .refused

theorem wordEdge_of_nil {unicode : Bool} {s : Reading} (hs : s.rest = []) :
    wordEdge unicode s = some (.wordEdge unicode, s) := by
  rw [wordEdge, rest_bind_of hs]
  rfl

theorem wordEdge_of_ne {unicode : Bool} {c : Char} {more : List Char} {s : Reading}
    (hs : s.rest = c :: more) (hc : c ≠ '{') : wordEdge unicode s = some (.wordEdge unicode, s) := by
  rw [wordEdge, rest_bind_of hs]
  simp only [List.cons.injEq, hc, false_and, imp_self, implies_true]
  rfl

theorem closes_wordEdge (unicode : Bool) :
    Closes n n AtBrace (wordEdge unicode) (wordEdge unicode) where
  closed s hs := by
    have hplain : Agrees n AtBrace (some (Look.wordEdge unicode, s))
        (some (Look.wordEdge unicode, s.closed)) := .untouched hs
    cases hrest : s.rest with
    | nil =>
      rw [wordEdge_of_nil hrest, wordEdge_of_ne (Reading.closed_of_nil hrest) (by decide)]
      exact hplain
    | cons c more =>
      have hclosed := Reading.closed_of_cons hrest
      by_cases hbrace : c = '{'
      · subst hbrace
        rw [wordEdge_of_brace hrest, wordEdge_of_brace hclosed]
        have hskip : Agrees more.length (fun _ _ => False)
            (skipIgnored { s with rest := more })
            (skipIgnored { s.closed with rest := more ++ [')'] }) :=
          closes_skipIgnored.closed { s with rest := more } (Nat.le_refl _)
        generalize skipIgnored { s with rest := more } = x at hskip
        generalize hy : skipIgnored { s.closed with rest := more ++ [')'] } = y at hskip
        cases hskip with
        | beyond ends => exact ends.elim
        | refused => exact .refused
        | @passedOver _ v ended =>
          simp only [Option.bind_some]
          rw [bind_apply, peek_of_nil ended, bind_apply, peek_of_nil ended]
          exact .refused
        | @untouched _ v short =>
          simp only [Option.bind_some]
          cases hv : v.rest with
          | nil =>
            have hparen := Reading.closed_of_nil hv
            rw [bind_apply, peek_of_nil hv, bind_apply, peek_of_cons hparen]
            exact .beyond (.inr ⟨_, hclosed, v.closed, hy, hparen⟩)
          | cons d behind =>
            rw [bind_apply, peek_of_cons hv, bind_apply,
              peek_of_cons (Reading.closed_of_cons hv)]
            simp only [Option.bind_some]
            split
            · have hlength : v.rest.length ≤ n := by
                rw [hrest] at hs
                exact Nat.le_trans short (Nat.le_of_succ_le hs)
              exact ((closes_wordName unicode short
                (Nat.lt_of_le_of_lt short (by simp))).closed v (Nat.le_refl _)).mono
                hlength fun _ _ => .inl
            · exact hplain
      · rw [wordEdge_of_ne hrest hbrace, wordEdge_of_ne hclosed hbrace]
        exact hplain
  same _ _ := rfl
  spends s b t hs h := by
    cases wordEdge_of_nil hs ▸ h
    exact hs

theorem closes_hexEscape (width : Nat) : Closes n n AtEnd (hexEscape width) (hexEscape width) := by
  have hfixed : ∀ {n}, Closes n n AtEnd
      (fixedHex width 0 >>= fun code => char code >>= fun c => pure (Atom.literal c (width == 2)))
      (fixedHex width 0 >>= fun code => char code >>= fun c => pure (Atom.literal c (width == 2))) :=
    (closes_fixedHex width 0).bind fun code => (closes_char code).bind fun c => .answer _
  refine closes_skipIgnored.bind fun _ => .ofRest (fun _ _ => rfl) (hfixed (n := 0)).spends ?_ ?_
  · intro s hs
    exact hfixed.closed s (by simp [hs])
  · intro c more s hs hmore
    by_cases hbrace : c = '{'
    · subst hbrace
      exact Closes.continueBehind (j := more.length)
        ((closes_bracedHex (Nat.lt_succ_self _) (by simp) none).bind fun code =>
          (closes_char code).bind fun c => .answer _) (Nat.le_of_lt hmore)
    · simp only [List.cons.injEq, hbrace, false_and, imp_self, implies_true]
      exact hfixed.closed s (by rw [hs]; exact hmore)

theorem closes_letterClass (letter : Char) :
    Closes n n AtEnd (letterClass letter) (letterClass letter) :=
  (closes_switches.bind fun _ => .answer _).bind fun _ =>
    .ite (.answer _) (closes_switches.bind fun _ => .ite (.answer _) .fail)

theorem closes_finish (negated : Bool) (set : CharSet) :
    Closes n n AtEnd (finish negated set) (finish negated set) :=
  closes_switches.bind fun _ => .ite (.answer _) (.ite (.answer _) .fail)

theorem closes_namedSet (name : List Char) :
    Closes n n AtEnd (namedSet name) (namedSet name) := by
  unfold namedSet
  split
  split
  · exact .answer _
  · exact .fail

/-- A set by name as the class of an escape. -/
def namedUnicodeClass (negated : Bool) (name : List Char) : Read CharSet := do
  let found ← namedSet name
  if (← switches).unicode then finish (negated != found.2) found.1 else failure

theorem closes_namedUnicodeClass (negated : Bool) (name : List Char) :
    Closes n n AtEnd (namedUnicodeClass negated name) (namedUnicodeClass negated name) :=
  (closes_namedSet name).bind fun _ => closes_switches.bind fun _ => .ite (closes_finish _ _) .fail

theorem closes_unicodeClass (negated : Bool) :
    Closes n n AtEnd (unicodeClass negated) (unicodeClass negated) := by
  refine closes_skipIgnored.bind fun _ => .ofRest_fails rfl rfl ?_ ?_
  · intro s hs b t h
    have hspends := (closes_namedUnicodeClass (n := 0) negated [')']).spends
    exact (spends_skipIgnored.bind fun _ => hspends).continueWith h
  · intro c more s hs hmore
    by_cases hbrace : c = '{'
    · subst hbrace
      exact Closes.continueBehind (j := more.length)
        ((closes_braced (Nat.lt_succ_self _) (by simp)).bind (closes_namedUnicodeClass negated))
        (Nat.le_of_lt hmore)
    · by_cases hslash : c = '\\'
      · subst hslash
        exact .refused
      · simp only
        exact Closes.continueBehind (closes_namedUnicodeClass negated [c]) (Nat.le_of_lt hmore)

/-- A word condition was read, and braces behind it are not closed. -/
def AtEdge (a : Atom) (s : Reading) : Prop := s.rest = [] ∨ (∃ l, a = .look l) ∧ Stuck s

theorem closes_escape : Closes n n AtEdge escape escape := by
  refine closes_switches.bind_beyond (D := AtEnd) (fun sw => .ofRest_fails rfl rfl ?_ ?_) ?_
  · rintro s hs b t ⟨⟩
    exact .inl rfl
  · intro c more s hs hmore
    refine Closes.continueWith (j := more.length) ?_ (Nat.le_of_lt hmore)
    have hend : ∀ (a : Atom) t, AtEnd a t → AtEdge a t := fun _ _ => .inl
    have hset : ∀ {f : Read CharSet}, (∀ n, Closes n n AtEnd f f) →
        Closes more.length more.length AtEdge (f >>= fun set => pure (Atom.set set))
          (f >>= fun set => pure (Atom.set set)) := fun hf =>
      ((hf _).bind fun set => .answer _).mono hend
    split
    · exact (closes_hexEscape 2).mono hend
    · exact (closes_hexEscape 4).mono hend
    · exact (closes_hexEscape 8).mono hend
    · exact hset fun _ => closes_unicodeClass false
    · exact hset fun _ => closes_unicodeClass true
    iterate 6 exact hset fun _ => closes_letterClass _
    iterate 8 exact .answer _
    · refine (closes_wordEdge sw.unicode).bind_beyond (fun l => .answer _) ?_
      rintro l t c u hl ⟨⟩
      exact hl.imp_right fun hstuck => ⟨⟨l, rfl⟩, hstuck⟩
    iterate 3 exact .answer _
    · exact .ite (.answer _) .fail
  · intro sw t a u ht hrun
    rw [rest_bind_of ht] at hrun
    cases hrun

end Read

end Pattern

end WellLog
