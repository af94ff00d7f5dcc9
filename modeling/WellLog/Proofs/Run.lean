import Mathlib.Data.List.Forall2
import WellLog.Journal
import WellLog.Medium
/-!
# Runs of computations

Every step of reading is a computation with a state, which ends with a value or with a failure.
This file has the two ways of speaking about such an end.

* `Ends Q E r` : the run `r` ends with a value and a state of `Q`, or with a failure and a state of
  `E`.  Nothing is left open, so `E := fun _ _ => False` says that the run succeeds.
* `Agree A E r r'` : two runs end in the same way, with values and states that `A` relates or with
  failures and states that `E` relates.

For every way to put computations together there is one rule on each side, which opens the
composition (`ends_bind`, `agree_bind`); a proof about a computation applies the rules in the order
in which the computation is written.

A computation that only reads goes forward on its medium.  `Proceeds R S P` says that it never goes back,
and that it goes on whenever it has a result of `P`.

What is proved of `gather` holds of everything that can be read from.  `Supplies read P` says that
`read` delivers, in pieces of its own choice, the bytes that `P` announces; then `gather` delivers
what was asked for (`gather_of_le`), or all that is left (`gather_of_lt`).
-/

namespace WellLog

variable {ε ε' σ σ' τ τ' α α' β β' : Type}

/-! ### One run -/

/-- The run ends with a value and a state of `Q`, or with a failure and a state of `E`. -/
def Ends (Q : α → σ → Prop) (E : ε → σ → Prop) : EStateM.Result ε σ α → Prop
  | .ok a s => Q a s
  | .error e s => E e s

instance {Q : α → σ → Prop} {E : ε → σ → Prop} [∀ a s, Decidable (Q a s)]
    [∀ e s, Decidable (E e s)] (r : EStateM.Result ε σ α) : Decidable (Ends Q E r) :=
  match r with
  | .ok a s => inferInstanceAs (Decidable (Q a s))
  | .error e s => inferInstanceAs (Decidable (E e s))

section Ends

variable {Q : α → σ → Prop} {E : ε → σ → Prop} {s : σ}

theorem Ends.mono {Q' : α → σ → Prop} {E' : ε → σ → Prop} {r : EStateM.Result ε σ α}
    (h : Ends Q E r) (hQ : ∀ a s, Q a s → Q' a s) (hE : ∀ e s, E e s → E' e s) : Ends Q' E' r := by
  cases r with
  | ok a s => exact hQ a s h
  | error e s => exact hE e s h

theorem Ends.and {Q' : α → σ → Prop} {E' : ε → σ → Prop} {r : EStateM.Result ε σ α}
    (h : Ends Q E r) (h' : Ends Q' E' r) :
    Ends (fun a s => Q a s ∧ Q' a s) (fun e s => E e s ∧ E' e s) r := by
  cases r with
  | ok a s => exact ⟨h, h'⟩
  | error e s => exact ⟨h, h'⟩

theorem Ends.trivial (r : EStateM.Result ε σ α) : Ends (fun _ _ => True) (fun _ _ => True) r := by
  cases r <;> exact True.intro

/-- A run that cannot fail has a value. -/
theorem Ends.exists_ok {r : EStateM.Result ε σ α} (h : Ends Q (fun _ _ => False) r) :
    ∃ a s, r = .ok a s ∧ Q a s := by
  cases r with
  | ok a s => exact ⟨a, s, rfl, h⟩
  | error e s => exact h.elim

/-- A run that cannot succeed has a failure. -/
theorem Ends.exists_error {r : EStateM.Result ε σ α} (h : Ends (fun _ _ => False) E r) :
    ∃ e s, r = .error e s ∧ E e s := by
  cases r with
  | ok a s => exact h.elim
  | error e s => exact ⟨e, s, rfl, h⟩

theorem ends_ok {a : α} : Ends Q E (.ok a s) ↔ Q a s := Iff.rfl

theorem ends_error {e : ε} : Ends Q E (.error e s) ↔ E e s := Iff.rfl

theorem ends_pure {a : α} : Ends Q E ((pure a : EStateM ε σ α) s) ↔ Q a s := Iff.rfl

theorem ends_throw {e : ε} : Ends Q E ((throw e : EStateM ε σ α) s) ↔ E e s := Iff.rfl

theorem ends_bind {x : EStateM ε σ β} {f : β → EStateM ε σ α} :
    Ends Q E ((x >>= f) s) ↔ Ends (fun b s => Ends Q E (f b s)) E (x s) := by
  simp only [bind, EStateM.bind]
  cases x s <;> rfl

/-- Two computations with the same first step, which go on in the same way where it ends. -/
theorem bind_eq_of_ends {x : EStateM ε σ β} {f f' : β → EStateM ε σ α}
    (h : Ends (fun b s' => f b s' = f' b s') (fun _ _ => True) (x s)) :
    (x >>= f) s = (x >>= f') s := by
  simp only [bind, EStateM.bind]
  cases hx : x s with
  | ok b s' => rwa [hx, ends_ok] at h
  | error e s' => rfl

theorem bind_get {f : σ → EStateM ε σ α} : (get >>= f) s = f s s := rfl

theorem bind_modify {f : σ → σ} {g : PUnit → EStateM ε σ α} : (modify f >>= g) s = g ⟨⟩ (f s) := rfl

theorem ends_get {Q : σ → σ → Prop} : Ends Q E ((get : EStateM ε σ σ) s) ↔ Q s s := Iff.rfl

theorem ends_modify {Q : PUnit → σ → Prop} {f : σ → σ} :
    Ends Q E ((modify f : EStateM ε σ PUnit) s) ↔ Q ⟨⟩ (f s) := Iff.rfl

theorem ends_attempt {Q : Except ε α → σ → Prop} {E : ε' → σ → Prop} {x : EStateM ε σ α} :
    Ends Q E (attempt x s) ↔ Ends (fun a => Q (.ok a)) (fun e => Q (.error e)) (x s) := by
  simp only [attempt]
  cases x s <;> rfl

theorem ends_adaptExcept {f : ε' → ε} {x : EStateM ε' σ α} :
    Ends Q E (EStateM.adaptExcept f x s) ↔ Ends Q (fun e => E (f e)) (x s) := by
  simp only [EStateM.adaptExcept]
  cases x s <;> rfl

/-- One step after the other, each of which keeps `I` and gives what `g` says. -/
theorem ends_filterMapM {γ : Type} {f : α → EStateM ε σ (Option β)} {key : γ → α}
    {g : γ → Option β} {I : σ → Prop} {Q : List β → σ → Prop} {l : List γ}
    (hf : ∀ c ∈ l, ∀ s, I s → Ends (fun b s' => b = g c ∧ I s') E (f (key c) s)) (hs : I s)
    (hQ : ∀ s', I s' → Q (l.filterMap g) s') : Ends Q E ((l.map key).filterMapM f s) := by
  -- `Q` takes up what the first step gave, so it is another one for the rest of the list
  induction l generalizing s Q with
  | nil => exact hQ s hs
  | cons c l ih =>
    rw [List.map_cons, List.filterMapM_cons, ends_bind]
    refine (hf c List.mem_cons_self s hs).mono ?_ fun _ _ => id
    rintro b s' ⟨rfl, hs'⟩
    have hl := fun c' h => hf c' (List.mem_cons_of_mem c h)
    cases hg : g c with
    | none =>
      refine ih hl hs' fun s'' h => ?_
      rw [← List.filterMap_cons_none hg]
      exact hQ s'' h
    | some b =>
      simp only
      rw [ends_bind]
      refine ih hl hs' fun s'' h => ?_
      rw [ends_pure, ← List.filterMap_cons_some hg]
      exact hQ s'' h

/-- One step after the other, each of which keeps `I`. -/
theorem ends_filterMapM_keeps {f : α → EStateM ε σ (Option β)} {I : σ → Prop} {l : List α}
    (hf : ∀ a ∈ l, ∀ s, I s → Ends (fun _ s' => I s') E (f a s)) (hs : I s) :
    Ends (fun _ s' => I s') E (l.filterMapM f s) := by
  induction l generalizing s with
  | nil => exact hs
  | cons a l ih =>
    rw [List.filterMapM_cons, ends_bind]
    refine (hf a List.mem_cons_self s hs).mono ?_ fun _ _ => id
    intro b s' hs'
    have hl := ih (fun a' h => hf a' (List.mem_cons_of_mem a h)) hs'
    cases b with
    | none => exact hl
    | some b =>
      simp only
      rw [ends_bind]
      exact hl.mono (fun _ _ => id) fun _ _ => id

/-- One step after the other, each of which keeps `I` and what `R` says of the results before it. -/
theorem ends_mapM {f : α → EStateM ε σ β} {I : σ → Prop} {R : α → β → σ → Prop} {l : List α}
    (hf : ∀ a ∈ l, ∀ s, I s →
      Ends (fun b s' => I s' ∧ R a b s' ∧ ∀ a' b', R a' b' s → R a' b' s') E (f a s)) (hs : I s) :
    Ends (fun bs s' => I s' ∧ List.Forall₂ (fun a b => R a b s') l bs ∧
      ∀ a' b', R a' b' s → R a' b' s') E (l.mapM f s) := by
  induction l generalizing s with
  | nil =>
    rw [List.mapM_nil, ends_pure]
    exact ⟨hs, .nil, fun _ _ => id⟩
  | cons a l ih =>
    rw [List.mapM_cons, ends_bind]
    refine (hf a List.mem_cons_self s hs).mono ?_ fun _ _ => id
    rintro b s' ⟨hs', hb, hkeep⟩
    rw [ends_bind]
    refine (ih (fun c hc => hf c (List.mem_cons_of_mem a hc)) hs').mono ?_ fun _ _ => id
    rintro bs s'' ⟨hs'', hbs, hkeep'⟩
    rw [ends_pure]
    exact ⟨hs'', .cons (hkeep' a b hb) hbs, fun a' b' h => hkeep' a' b' (hkeep a' b' h)⟩

/-- One step after the other, each of which takes up what the ones before it led to. -/
theorem ends_foldlM {f : β → α → EStateM ε σ β} {I : List α → β → σ → Prop} {l : List α} {b : β}
    (hf : ∀ done, ∀ a ∈ l, ∀ b s, I done b s → Ends (I (done ++ [a])) E (f b a s))
    (hs : I [] b s) : Ends (I l) E (l.foldlM f b s) := by
  -- what was done before the rest of the list
  suffices h : ∀ done rest, (∀ a ∈ rest, a ∈ l) → ∀ b s, I done b s →
      Ends (I (done ++ rest)) E (rest.foldlM f b s) from h [] l (fun _ => id) b s hs
  intro done rest hrest
  induction rest generalizing done with
  | nil =>
    intro b s hs
    rw [List.foldlM_nil, ends_pure, List.append_nil]
    exact hs
  | cons a rest ih =>
    intro b s hs
    rw [List.foldlM_cons, ends_bind]
    refine (hf done a (hrest a List.mem_cons_self) b s hs).mono ?_ fun _ _ => id
    intro b' s' hs'
    have hend := ih (done ++ [a]) (fun c hc => hrest c (List.mem_cons_of_mem a hc)) b' s' hs'
    rwa [← List.append_cons] at hend

/-- A failed read, taken as a failure of either kind. -/
theorem ends_liftIo {Q : α → σ → Prop} {E : FormatError → σ → Prop} {x : EStateM IoError σ α} :
    Ends Q E ((liftM x : EStateM FormatError σ α) s) ↔ Ends Q (fun e => E (.io e)) (x s) :=
  ends_adaptExcept

end Ends

/-! ### One run with a journal -/

section Logged

variable {Q : α → Journalled σ → Prop} {E : ε → Journalled σ → Prop} {j : Journalled σ}

theorem ends_note {Q : Unit → Journalled σ → Prop} {l : Level} {m : String} :
    Ends Q E (Logged.note l m j) ↔ Q () ⟨j.state, j.notes.push ⟨l, m⟩⟩ := Iff.rfl

/-- What follows a note, whatever the note is. -/
theorem ends_noted {l : Level} {m : String} {x : Logged ε σ α}
    (h : ∀ noted : Journalled σ, noted.state = j.state → Ends Q E (x noted)) :
    Ends Q E ((Logged.note l m >>= fun _ => x) j) := h _ rfl

/-- Notes leave the state as it is. -/
theorem ends_forM_note {l : Level} (message : α → String) (as : List α) (j : Journalled σ) :
    Ends (fun _ j' => j'.state = j.state) (fun _ _ => False)
      ((as.forM fun a => Logged.note l (message a) : Logged ε σ PUnit) j) := by
  induction as generalizing j with
  | nil => exact rfl
  | cons a as ih =>
    have hcons : ((a :: as).forM fun a => Logged.note l (message a) : Logged ε σ PUnit) =
        Logged.note l (message a) >>= fun _ => as.forM fun a => Logged.note l (message a) :=
      List.forM_cons
    rw [hcons]
    exact ends_noted fun noted hnoted => hnoted ▸ ih noted

theorem ends_state {Q : σ → Journalled σ → Prop} :
    Ends Q E ((Logged.state : Logged ε σ σ) j) ↔ Q j.state j := Iff.rfl

theorem bind_state {f : σ → Logged ε σ α} : (Logged.state >>= f) j = f j.state j := rfl

theorem ends_quiet {x : EStateM ε σ α} :
    Ends Q E (Logged.quiet x j) ↔
      Ends (fun a s => Q a ⟨s, j.notes⟩) (fun e s => E e ⟨s, j.notes⟩) (x j.state) := by
  simp only [Logged.quiet]
  cases x j.state <;> rfl

theorem ends_lift {x : EStateM ε σ α} :
    Ends Q E ((liftM x : Logged ε σ α) j) ↔
      Ends (fun a s => Q a ⟨s, j.notes⟩) (fun e s => E e ⟨s, j.notes⟩) (x j.state) :=
  ends_quiet

theorem ends_liftRead {Q : α → Journalled σ → Prop} {E : FormatError → Journalled σ → Prop}
    {x : EStateM IoError σ α} :
    Ends Q E ((liftM x : Logged FormatError σ α) j) ↔
      Ends (fun a s => Q a ⟨s, j.notes⟩) (fun e s => E (.io e) ⟨s, j.notes⟩) (x j.state) :=
  ends_quiet.trans ends_adaptExcept

theorem ends_within {Q : α → Journalled σ → Prop} {E : ε → Journalled σ → Prop} {get : σ → τ}
    {set : σ → τ → σ} {x : Logged ε τ α} :
    Ends Q E (x.within get set j) ↔
      Ends (fun a p => Q a ⟨set j.state p.state, p.notes⟩)
        (fun e p => E e ⟨set j.state p.state, p.notes⟩) (x ⟨get j.state, j.notes⟩) := by
  simp only [Logged.within]
  cases x ⟨get j.state, j.notes⟩ <;> rfl

theorem ends_apart {Q : α × τ → Journalled σ → Prop} {t : τ} {x : Logged ε τ α} :
    Ends Q E (Logged.apart t x j) ↔
      Ends (fun a p => Q (a, p.state) ⟨j.state, p.notes⟩) (fun e p => E e ⟨j.state, p.notes⟩)
        (x ⟨t, j.notes⟩) := by
  simp only [Logged.apart]
  cases x ⟨t, j.notes⟩ <;> rfl

end Logged

/-! ### Two runs -/

/-- Two runs end in the same way: with values and states that `A` relates, or with failures and
states that `E` relates. -/
def Agree (A : α → σ → α' → σ' → Prop) (E : ε → σ → ε' → σ' → Prop) :
    EStateM.Result ε σ α → EStateM.Result ε' σ' α' → Prop
  | .ok a s, .ok a' s' => A a s a' s'
  | .error e s, .error e' s' => E e s e' s'
  | _, _ => False

section Agree

variable {A : α → σ → α' → σ' → Prop} {E : ε → σ → ε' → σ' → Prop} {s : σ} {s' : σ'}

theorem Agree.mono {A' : α → σ → α' → σ' → Prop} {E' : ε → σ → ε' → σ' → Prop}
    {r : EStateM.Result ε σ α} {r' : EStateM.Result ε' σ' α'} (h : Agree A E r r')
    (hA : ∀ a s a' s', A a s a' s' → A' a s a' s') (hE : ∀ e s e' s', E e s e' s' → E' e s e' s') :
    Agree A' E' r r' := by
  match r, r', h with
  | .ok _ _, .ok _ _, h => exact hA _ _ _ _ h
  | .error _ _, .error _ _, h => exact hE _ _ _ _ h

/-- What is known of either run, where it tells that they end in the same way. -/
theorem agree_of_ends {r : EStateM.Result ε σ α} {r' : EStateM.Result ε' σ' α'}
    {Q : α → σ → Prop} {F : ε → σ → Prop} {Q' : α' → σ' → Prop} {F' : ε' → σ' → Prop}
    (h : Ends Q F r) (h' : Ends Q' F' r') (hA : ∀ a s a' s', Q a s → Q' a' s' → A a s a' s')
    (hE : ∀ e s e' s', F e s → F' e' s' → E e s e' s')
    (hl : ∀ a s e' s', Q a s → F' e' s' → False) (hr : ∀ e s a' s', F e s → Q' a' s' → False) :
    Agree A E r r' := by
  match r, r', h, h' with
  | .ok _ _, .ok _ _, h, h' => exact hA _ _ _ _ h h'
  | .error _ _, .error _ _, h, h' => exact hE _ _ _ _ h h'
  | .ok _ _, .error _ _, h, h' => exact hl _ _ _ _ h h'
  | .error _ _, .ok _ _, h, h' => exact hr _ _ _ _ h h'

/-- What relates a run to itself is known of it. -/
theorem Agree.ends_self {A : α → σ → α → σ → Prop} {E : ε → σ → ε → σ → Prop}
    {r : EStateM.Result ε σ α} (h : Agree A E r r) :
    Ends (fun a s => A a s a s) (fun e s => E e s e s) r := by
  cases r <;> exact h

/-- What relates two runs is known of the one on the right. -/
theorem Agree.ends_right {r : EStateM.Result ε σ α} {r' : EStateM.Result ε' σ' α'}
    (h : Agree A E r r') :
    Ends (fun a' s' => ∃ a s, r = .ok a s ∧ A a s a' s')
      (fun e' s' => ∃ e s, r = .error e s ∧ E e s e' s') r' := by
  match r, r', h with
  | .ok a s, .ok _ _, h => exact ⟨a, s, rfl, h⟩
  | .error e s, .error _ _, h => exact ⟨e, s, rfl, h⟩

theorem Agree.and_ends {r : EStateM.Result ε σ α} {r' : EStateM.Result ε' σ' α'}
    {Q : α → σ → Prop} {F : ε → σ → Prop} {Q' : α' → σ' → Prop} {F' : ε' → σ' → Prop}
    (h : Agree A E r r') (hl : Ends Q F r) (hr : Ends Q' F' r') :
    Agree (fun a s a' s' => A a s a' s' ∧ Q a s ∧ Q' a' s')
      (fun e s e' s' => E e s e' s' ∧ F e s ∧ F' e' s') r r' := by
  match r, r', h, hl, hr with
  | .ok _ _, .ok _ _, h, hl, hr => exact ⟨h, hl, hr⟩
  | .error _ _, .error _ _, h, hl, hr => exact ⟨h, hl, hr⟩

theorem agree_throw {e : ε} {e' : ε'} :
    Agree A E ((throw e : EStateM ε σ α) s) ((throw e' : EStateM ε' σ' α') s') ↔ E e s e' s' :=
  Iff.rfl

/-- First steps that agree, and what comes behind them. -/
theorem agree_bind {x : EStateM ε σ β} {x' : EStateM ε' σ' β'} {f : β → EStateM ε σ α}
    {f' : β' → EStateM ε' σ' α'}
    (h : Agree (fun b t b' t' => Agree A E (f b t) (f' b' t')) E (x s) (x' s')) :
    Agree A E ((x >>= f) s) ((x' >>= f') s') := by
  simp only [bind, EStateM.bind]
  match x s, x' s', h with
  | .ok _ _, .ok _ _, h => exact h
  | .error _ _, .error _ _, h => exact h

theorem agree_attempt {A : Except ε α → σ → Except ε' α' → σ' → Prop} {ε₀ ε₀' : Type}
    {E : ε₀ → σ → ε₀' → σ' → Prop} {x : EStateM ε σ α} {x' : EStateM ε' σ' α'}
    (h : Agree (fun a t a' t' => A (.ok a) t (.ok a') t')
      (fun e t e' t' => A (.error e) t (.error e') t') (x s) (x' s')) :
    Agree A E (attempt x s) (attempt x' s') := by
  simp only [attempt]
  match x s, x' s', h with
  | .ok _ _, .ok _ _, h => exact h
  | .error _ _, .error _ _, h => exact h

theorem agree_adaptExcept {ε₀ ε₀' : Type} {E : ε₀ → σ → ε₀' → σ' → Prop} {f : ε → ε₀} {f' : ε' → ε₀'}
    {x : EStateM ε σ α} {x' : EStateM ε' σ' α'}
    (h : Agree A (fun e t e' t' => E (f e) t (f' e') t') (x s) (x' s')) :
    Agree A E (EStateM.adaptExcept f x s) (EStateM.adaptExcept f' x' s') := by
  simp only [EStateM.adaptExcept]
  match x s, x' s', h with
  | .ok _ _, .ok _ _, h => exact h
  | .error _ _, .error _ _, h => exact h

/-- One step after the other, with related states between them. -/
theorem agree_filterMapM {γ : Type} {I : σ → σ' → Prop} {f : γ → EStateM ε σ (Option α)}
    {f' : γ → EStateM ε' σ' (Option α)} {l : List γ} (hs : I s s')
    (hf : ∀ c ∈ l, ∀ t t', I t t' →
      Agree (fun a t a' t' => a' = a ∧ I t t') E (f c t) (f' c t')) :
    Agree (fun as t as' t' => as' = as ∧ I t t') E (l.filterMapM f s) (l.filterMapM f' s') := by
  induction l generalizing s s' with
  | nil => exact ⟨rfl, hs⟩
  | cons c l ih =>
    rw [List.filterMapM_cons, List.filterMapM_cons]
    refine agree_bind ((hf c List.mem_cons_self s s' hs).mono ?_ fun _ _ _ _ => id)
    rintro a t a' t' ⟨rfl, ht⟩
    have hl := ih ht fun c' h => hf c' (List.mem_cons_of_mem c h)
    cases a' with
    | none => exact hl
    | some a =>
      refine agree_bind (hl.mono ?_ fun _ _ _ _ => id)
      rintro as u as' u' ⟨rfl, hu⟩
      exact ⟨rfl, hu⟩

/-- One step after the other, where the relation of the states tells which steps are to come. -/
theorem agree_mapM {γ : Type} {I : List γ → σ → σ' → Prop} {f : γ → EStateM ε σ α}
    {f' : γ → EStateM ε' σ' α} {l : List γ} (hs : I l s s')
    (hf : ∀ c rest t t', I (c :: rest) t t' →
      Agree (fun a u a' u' => a' = a ∧ I rest u u') E (f c t) (f' c t')) :
    Agree (fun as t as' t' => as' = as ∧ I [] t t') E (l.mapM f s) (l.mapM f' s') := by
  induction l generalizing s s' with
  | nil => exact ⟨rfl, hs⟩
  | cons c l ih =>
    rw [List.mapM_cons, List.mapM_cons]
    refine agree_bind ((hf c l s s' hs).mono ?_ fun _ _ _ _ => id)
    rintro a t a' t' ⟨rfl, ht⟩
    refine agree_bind ((ih ht).mono ?_ fun _ _ _ _ => id)
    rintro as u as' u' ⟨rfl, hu⟩
    exact ⟨rfl, hu⟩

end Agree

section AgreeLogged

variable {A : α → Journalled σ → α' → Journalled σ' → Prop}
  {E : ε → Journalled σ → ε' → Journalled σ' → Prop} {j : Journalled σ} {j' : Journalled σ'}

theorem agree_note {A : Unit → Journalled σ → Unit → Journalled σ' → Prop} {l l' : Level}
    {m m' : String} : Agree A E (Logged.note l m j) (Logged.note l' m' j') ↔
      A () ⟨j.state, j.notes.push ⟨l, m⟩⟩ () ⟨j'.state, j'.notes.push ⟨l', m'⟩⟩ := Iff.rfl

theorem agree_state {A : σ → Journalled σ → σ' → Journalled σ' → Prop} :
    Agree A E ((Logged.state : Logged ε σ σ) j) ((Logged.state : Logged ε' σ' σ') j') ↔
      A j.state j j'.state j' := Iff.rfl

theorem agree_lift {x : EStateM ε σ α} {x' : EStateM ε' σ' α'}
    (h : Agree (fun a s a' s' => A a ⟨s, j.notes⟩ a' ⟨s', j'.notes⟩)
      (fun e s e' s' => E e ⟨s, j.notes⟩ e' ⟨s', j'.notes⟩) (x j.state) (x' j'.state)) :
    Agree A E ((liftM x : Logged ε σ α) j) ((liftM x' : Logged ε' σ' α') j') := by
  change Agree A E (Logged.quiet x j) (Logged.quiet x' j')
  simp only [Logged.quiet]
  match x j.state, x' j'.state, h with
  | .ok _ _, .ok _ _, h => exact h
  | .error _ _, .error _ _, h => exact h

theorem agree_liftRead {E : FormatError → Journalled σ → FormatError → Journalled σ' → Prop}
    {x : EStateM IoError σ α} {x' : EStateM IoError σ' α'}
    (h : Agree (fun a s a' s' => A a ⟨s, j.notes⟩ a' ⟨s', j'.notes⟩)
      (fun e s e' s' => E (.io e) ⟨s, j.notes⟩ (.io e') ⟨s', j'.notes⟩) (x j.state) (x' j'.state)) :
    Agree A E ((liftM x : Logged FormatError σ α) j) ((liftM x' : Logged FormatError σ' α') j') :=
  agree_lift (agree_adaptExcept h)

theorem agree_within {τ τ' : Type} {get : σ → τ} {get' : σ' → τ'} {set : σ → τ → σ}
    {set' : σ' → τ' → σ'} {x : Logged ε τ α} {x' : Logged ε' τ' α'}
    (h : Agree
      (fun a p a' p' => A a ⟨set j.state p.state, p.notes⟩ a' ⟨set' j'.state p'.state, p'.notes⟩)
      (fun e p e' p' => E e ⟨set j.state p.state, p.notes⟩ e' ⟨set' j'.state p'.state, p'.notes⟩)
      (x ⟨get j.state, j.notes⟩) (x' ⟨get' j'.state, j'.notes⟩)) :
    Agree A E (x.within get set j) (x'.within get' set' j') := by
  simp only [Logged.within]
  match x ⟨get j.state, j.notes⟩, x' ⟨get' j'.state, j'.notes⟩, h with
  | .ok _ _, .ok _ _, h => exact h
  | .error _ _, .error _ _, h => exact h

theorem agree_apart {τ τ' : Type} {A : α × τ → Journalled σ → α' × τ' → Journalled σ' → Prop} {t : τ}
    {t' : τ'} {x : Logged ε τ α} {x' : Logged ε' τ' α'}
    (h : Agree (fun a p a' p' => A (a, p.state) ⟨j.state, p.notes⟩ (a', p'.state) ⟨j'.state, p'.notes⟩)
      (fun e p e' p' => E e ⟨j.state, p.notes⟩ e' ⟨j'.state, p'.notes⟩)
      (x ⟨t, j.notes⟩) (x' ⟨t', j'.notes⟩)) :
    Agree A E (Logged.apart t x j) (Logged.apart t' x' j') := by
  simp only [Logged.apart]
  match x ⟨t, j.notes⟩, x' ⟨t', j'.notes⟩, h with
  | .ok _ _, .ok _ _, h => exact h
  | .error _ _, .error _ _, h => exact h

end AgreeLogged

/-! ### Going on -/

/-- Two ways to get from one state to another: `R` never goes back, and `S` goes on. -/
structure Advance (R S : σ → σ → Prop) : Prop where
  /-- Staying is never going back. -/
  refl : ∀ a, R a a
  /-- Neither are two steps after each other. -/
  trans : ∀ {a b c}, R a b → R b c → R a c
  /-- Who goes on does not go back. -/
  weaken : ∀ {a b}, S a b → R a b
  /-- Going on first is going on. -/
  left : ∀ {a b c}, S a b → R b c → S a c
  /-- Going on last is going on. -/
  right : ∀ {a b c}, R a b → S b c → S a c

/-- The computation never goes back, and with a result of `P` it goes on. -/
def Proceeds (R S : σ → σ → Prop) (P : α → Prop) (x : EStateM ε σ α) : Prop :=
  ∀ s, Ends (fun a s' => R s s' ∧ (P a → S s s')) (fun _ s' => R s s') (x s)

namespace Proceeds

variable {R S : σ → σ → Prop} {P : α → Prop} {P' : β → Prop}

theorem pure (hR : Advance R S) {a : α} (ha : ¬ P a) :
    Proceeds R S P (Pure.pure a : EStateM ε σ α) := fun s => ⟨hR.refl s, fun h => absurd h ha⟩

theorem throw (hR : Advance R S) {e : ε} : Proceeds R S P (throw e : EStateM ε σ α) := hR.refl

/-- A first step that never goes back. -/
theorem bind (hR : Advance R S) {x : EStateM ε σ β} {f : β → EStateM ε σ α}
    (hx : Proceeds R S P' x) (hf : ∀ b, Proceeds R S P (f b)) : Proceeds R S P (x >>= f) := by
  intro s
  rw [ends_bind]
  refine (hx s).mono ?_ fun _ _ => id
  rintro b s' ⟨hR', -⟩
  exact (hf b s').mono (fun _ _ h => ⟨hR.trans hR' h.1, fun hp => hR.right hR' (h.2 hp)⟩)
    fun _ _ h => hR.trans hR' h

/-- A first step that goes on with the results of `P'`, where the others lead to no result of
`P`. -/
theorem bind_left (hR : Advance R S) {x : EStateM ε σ β} {f : β → EStateM ε σ α}
    (hx : Proceeds R S P' x) (hf : ∀ b, P' b → Proceeds R S (fun _ => False) (f b))
    (hf' : ∀ b, ¬ P' b → Proceeds R S P (f b)) : Proceeds R S P (x >>= f) := by
  intro s
  rw [ends_bind]
  refine (hx s).mono ?_ fun _ _ => id
  rintro b s' ⟨hR', hS'⟩
  -- either the first step went on, or what follows it may still do so
  by_cases hb : P' b
  · exact (hf b hb s').mono (fun _ _ h => ⟨hR.trans hR' h.1, fun _ => hR.left (hS' hb) h.1⟩)
      fun _ _ h => hR.trans hR' h
  · exact (hf' b hb s').mono (fun _ _ h => ⟨hR.trans hR' h.1, fun hp => hR.right hR' (h.2 hp)⟩)
      fun _ _ h => hR.trans hR' h

theorem attempt {x : EStateM ε σ β} (hx : Proceeds R S P' x) :
    Proceeds R S (fun r => ∃ b, r = .ok b ∧ P' b) (attempt x : EStateM ε' σ (Except ε β)) := by
  intro s
  rw [ends_attempt]
  refine (hx s).mono ?_ fun e s' h => ⟨h, nofun⟩
  rintro b s' ⟨h, hS⟩
  refine ⟨h, ?_⟩
  rintro ⟨b', hb, hP⟩
  cases hb
  exact hS hP

/-- Who never goes back in one sense may never go back in another. -/
theorem weaken {R' S' : σ → σ → Prop} {x : EStateM ε σ α} (h : Proceeds R S P x)
    (hR : ∀ {a b}, R a b → R' a b) : Proceeds R' S' (fun _ => False) x := fun s =>
  (h s).mono (fun _ _ h => ⟨hR h.1, False.elim⟩) fun _ _ h => hR h

theorem filterMapM (hR : Advance R S) {f : β → EStateM ε σ (Option α)}
    (hf : ∀ b, Proceeds R S (fun _ => False) (f b)) (l : List β) :
    Proceeds R S (fun _ => False) (l.filterMapM f) := by
  induction l with
  | nil => exact .pure hR id
  | cons b l ih =>
    rw [List.filterMapM_cons]
    refine .bind hR (hf b) fun found => ?_
    cases found with
    | none => exact ih
    | some a => exact .bind hR ih fun _ => .pure hR id

/-- Gathering goes on if it delivers something. -/
theorem gather (hR : Advance R S) {read : Nat → EStateM IoError σ (List UInt8)}
    (hread : ∀ n, 0 < n → Proceeds R S (· ≠ []) (read n)) (n : Nat) :
    Proceeds R S (· ≠ []) (gather read n) := by
  induction n using Nat.strongRecOn with
  | ind n ih =>
    rw [WellLog.gather]
    split
    · exact .pure hR (by simp)
    · refine .bind_left hR (hread n (by omega)) ?_ ?_
      · intro got hgot
        rw [dif_neg (by simpa using hgot)]
        have hpos := List.length_pos_iff.2 hgot
        refine .bind hR (ih (n - got.length) (by omega)) fun more => ?_
        exact .pure hR (by simp)
      · intro got hgot
        rw [dif_pos (by simpa using hgot)]
        exact .pure hR (by simp)

end Proceeds

section Journalled

variable {R S : σ → σ → Prop} {P : α → Prop}

/-- The journal plays no part in whether a computation goes on. -/
theorem Advance.journalled (hR : Advance R S) :
    Advance (InvImage R Journalled.state) (InvImage S Journalled.state) where
  refl j := hR.refl j.state
  trans := hR.trans
  weaken := hR.weaken
  left := hR.left
  right := hR.right

theorem Proceeds.lift {x : EStateM ε σ α} (hx : Proceeds R S P x) :
    Proceeds (InvImage R Journalled.state) (InvImage S Journalled.state) P
      (liftM x : Logged ε σ α) := by
  intro j
  rw [ends_lift]
  exact hx j.state

theorem Proceeds.liftRead {x : EStateM IoError σ α} (hx : Proceeds R S P x) :
    Proceeds (InvImage R Journalled.state) (InvImage S Journalled.state) P
      (liftM x : Logged FormatError σ α) := by
  intro j
  rw [ends_liftRead]
  exact hx j.state

theorem Proceeds.note (hR : Advance R S) {l : Level} {t : String} :
    Proceeds (InvImage R Journalled.state) (InvImage S Journalled.state) (fun _ => False)
      (Logged.note l t : Logged ε σ Unit) := fun j => ⟨hR.refl j.state, False.elim⟩

theorem Proceeds.state (hR : Advance R S) :
    Proceeds (InvImage R Journalled.state) (InvImage S Journalled.state) (fun _ => False)
      (Logged.state : Logged ε σ σ) := fun j => ⟨hR.refl j.state, False.elim⟩

end Journalled

/-! ### Reading on until enough is there -/

section Gather

variable {read : Nat → EStateM IoError σ (List UInt8)} {P : List UInt8 → σ → Prop}

/-- As long as `P` announces bytes, every read delivers some of them, in order, and `P` announces
the others afterwards. -/
def Supplies (read : Nat → EStateM IoError σ (List UInt8)) (P : List UInt8 → σ → Prop) : Prop :=
  ∀ n s bytes, P bytes s → bytes ≠ [] → 0 < n →
    ∃ got rest s', read n s = .ok got s' ∧ got ≠ [] ∧ got.length ≤ n ∧ bytes = got ++ rest ∧
      P rest s'

theorem gather_zero (s : σ) : gather read 0 s = .ok [] s := by
  rw [gather]; rfl

/-- What every read keeps is kept by gathering, which fails only where a read does. -/
theorem ends_gather_keeps {I : σ → Prop} {E : IoError → σ → Prop}
    (hread : ∀ n s, 0 < n → I s → Ends (fun _ s' => I s') E (read n s)) (n : Nat) {s : σ}
    (hs : I s) : Ends (fun _ s' => I s') E (gather read n s) := by
  induction n using Nat.strongRecOn generalizing s with
  | ind n ih =>
    rw [gather]
    split
    · exact hs
    · rw [ends_bind]
      refine (hread n s (by omega) hs).mono ?_ fun _ _ => id
      intro got s' hs'
      split
      · exact hs'
      · rw [ends_bind]
        exact (ih (n - got.length) (by omega) hs').mono (fun _ _ => id) fun _ _ => id

/-- One read that delivers something, and the rest of the gathering. -/
theorem ends_gather_of_read {Q : List UInt8 → σ → Prop} {E : IoError → σ → Prop} {n : Nat}
    {s s' : σ} {got : List UInt8} (hn : 0 < n) (hr : read n s = .ok got s') (hg : got ≠ []) :
    Ends Q E (gather read n s) ↔
      Ends (fun more => Q (got ++ more)) E (gather read (n - got.length) s') := by
  have hl : ¬ got.length = 0 := by simpa using hg
  rw [gather, dif_neg (by omega), ends_bind, hr]
  rw [ends_ok, dif_neg hl, ends_bind]
  rfl

theorem gather_of_le (h : Supplies read P) (n : Nat) (s : σ) (bytes : List UInt8)
    (hP : P bytes s) (hn : n ≤ bytes.length) :
    Ends (fun got s' => got = bytes.take n ∧ P (bytes.drop n) s') (fun _ _ => False)
      (gather read n s) := by
  -- a read may deliver any part of what it is asked for, so `n` gets smaller by any number
  induction n using Nat.strongRecOn generalizing s bytes with
  | ind n ih =>
    by_cases hz : n = 0
    · subst hz
      rw [gather_zero]
      exact ⟨rfl, hP⟩
    · have hne : bytes ≠ [] := by
        rintro rfl
        exact hz (Nat.le_zero.1 hn)
      obtain ⟨got, rest, s', hr, hg, hl, rfl, hP'⟩ := h n s bytes hP hne (by omega)
      have hpos := List.length_pos_iff.2 hg
      rw [ends_gather_of_read (by omega) hr hg]
      refine (ih (n - got.length) (by omega) s' rest hP' ?_).mono ?_ (fun _ _ => id)
      · rw [List.length_append] at hn
        omega
      · rintro more s'' ⟨rfl, hd⟩
        rw [List.take_append, List.take_of_length_le hl, List.drop_append,
          List.drop_of_length_le hl]
        exact ⟨rfl, hd⟩

/-- Gathering more than there is ends as the first read behind the last byte does. -/
theorem gather_of_lt (h : Supplies read P) {Q : σ → Prop} {E : IoError → σ → Prop}
    (hend : ∀ m s, 0 < m → P [] s → Ends (fun got s' => got = [] ∧ Q s') E (read m s))
    (n : Nat) (s : σ) (bytes : List UInt8) (hP : P bytes s) (hn : bytes.length < n) :
    Ends (fun got s' => got = bytes ∧ Q s') E (gather read n s) := by
  induction n using Nat.strongRecOn generalizing s bytes with
  | ind n ih =>
    by_cases hne : bytes = []
    · subst hne
      rw [gather, dif_neg (by omega), ends_bind]
      refine (hend n s (by omega) hP).mono ?_ (fun _ _ => id)
      rintro got s' ⟨rfl, hQ⟩
      exact ⟨rfl, hQ⟩
    · obtain ⟨got, rest, s', hr, hg, hl, rfl, hP'⟩ := h n s bytes hP hne (by omega)
      have hpos := List.length_pos_iff.2 hg
      rw [List.length_append] at hn
      rw [ends_gather_of_read (by omega) hr hg]
      refine (ih (n - got.length) (by omega) s' rest hP' (by omega)).mono ?_ (fun _ _ => id)
      rintro more s'' ⟨rfl, hQ⟩
      exact ⟨rfl, hQ⟩

end Gather

end WellLog
