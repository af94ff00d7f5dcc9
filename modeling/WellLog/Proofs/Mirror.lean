import Mathlib.Data.Option.Basic
import WellLog.Proofs.Journal
/-!
# Computations that keep step with each other

One image can be read in many ways: in larger or smaller pieces, and by a medium that refuses to go
on at some point.  To show that the way does not matter, the computation `x` on one medium is run
beside the computation `x'` on another one.

* `Refused H r` : the run `r` fails, and `H` says that the medium is to blame.
* `Mirrors H R V x x'` : from states that `R` relates, `x` is refused, or it ends as `x'` does: with
  values that `V` relates or with the same failure, and in states that `R` relates.
* `Matches H V r r'` : the same for results without a state.
* `Noted R`, `Synced R` : states that `R` relates, with journals that say anything, or the same.

For every way to put computations together there is one rule, as in the theory of runs.  A
computation that is refused fails in the middle of whatever it is part of, so a handler of failures
has to pass such a failure on (`Mirrors.attempt_bind`).

The pieces themselves are dealt with once.  The medium on the right delivers single bytes
(`Single`), so it can catch up with any read on the left (`Spelled`); then reading on until enough is
there makes the difference disappear (`Spelled.gather`).
-/

namespace WellLog

variable {ε ε' σ σ' τ τ' α α' β β' : Type}

/-- The run fails, and `H` says that the medium is to blame. -/
def Refused (H : ε → Prop) : EStateM.Result ε σ α → Prop := Ends (fun _ _ => False) fun e _ => H e

/-- The run `r` is refused, or it ends as `r'` does. -/
def Mirror (H : ε → Prop) (R : σ → σ' → Prop) (A : α → σ → α' → σ' → Prop)
    (r : EStateM.Result ε σ α) (r' : EStateM.Result ε σ' α') : Prop :=
  Refused H r ∨ Agree A (fun e t e' t' => e' = e ∧ R t t') r r'

/-- From states that `R` relates, `x` is refused or ends as `x'` does. -/
def Mirrors (H : ε → Prop) (R : σ → σ' → Prop) (V : α → α' → Prop) (x : EStateM ε σ α)
    (x' : EStateM ε σ' α') : Prop :=
  ∀ s s', R s s' → Mirror H R (fun a t a' t' => V a a' ∧ R t t') (x s) (x' s')

/-- The result `r` is a refusal, or it is the same as `r'`. -/
inductive Matches (H : ε → Prop) (V : α → α' → Prop) : Except ε α → Except ε α' → Prop where
  /-- The medium is to blame. -/
  | refused {e : ε} (r' : Except ε α') (blame : H e) : Matches H V (.error e) r'
  /-- The same values. -/
  | ok {a : α} {a' : α'} (values : V a a') : Matches H V (.ok a) (.ok a')
  /-- The same failure. -/
  | error (e : ε) : Matches H V (.error e) (.error e)

/-- States with journals, of which nothing is said. -/
def Noted (R : σ → σ' → Prop) (j : Journalled σ) (j' : Journalled σ') : Prop := R j.state j'.state

/-- The run in a larger state. -/
def embed (give : α → τ → β) (put : τ → σ) : EStateM.Result ε τ α → EStateM.Result ε σ β
  | .ok a t => .ok (give a t) (put t)
  | .error e t => .error e (put t)

/-- A failed read that `H` allows. -/
def FormatError.Of (H : IoError → Prop) : FormatError → Prop
  | .io e => H e
  | .defect _ => False

variable {H : ε → Prop} {R : σ → σ' → Prop} {V : α → α' → Prop}

/-! ### Single runs -/

section Mirror

variable {A : α → σ → α' → σ' → Prop} {s : σ} {s' : σ'}

theorem Mirror.mono {r : EStateM.Result ε σ α} {r' : EStateM.Result ε σ' α'} {R₂ : σ → σ' → Prop}
    {A₂ : α → σ → α' → σ' → Prop} (h : Mirror H R A r r') (hA : ∀ a t a' t', A a t a' t' → A₂ a t a' t')
    (hR : ∀ t t', R t t' → R₂ t t') : Mirror H R₂ A₂ r r' :=
  h.imp id fun hagree => hagree.mono hA fun _ _ _ _ he => ⟨he.1, hR _ _ he.2⟩

/-- The cases of two runs. -/
@[elab_as_elim]
theorem Mirror.elim {motive : EStateM.Result ε σ α → EStateM.Result ε σ' α' → Prop}
    {r : EStateM.Result ε σ α} {r' : EStateM.Result ε σ' α'} (h : Mirror H R A r r')
    (refused : ∀ e t r', H e → motive (.error e t) r')
    (ok : ∀ a t a' t', A a t a' t' → motive (.ok a t) (.ok a' t'))
    (error : ∀ e t t', R t t' → motive (.error e t) (.error e t')) : motive r r' := by
  obtain hrefused | hagree := h
  · cases r with
    | ok a t => exact hrefused.elim
    | error e t => exact refused e t r' hrefused
  · cases r with
    | ok a t =>
      cases r' with
      | ok a' t' => exact ok a t a' t' hagree
      | error e' t' => exact hagree.elim
    | error e t =>
      cases r' with
      | ok a' t' => exact hagree.elim
      | error e' t' =>
        obtain ⟨rfl, ht⟩ := hagree
        exact error _ t t' ht

/-- Without refusals, two runs end in the same way. -/
theorem Mirror.agree {r : EStateM.Result ε σ α} {r' : EStateM.Result ε σ' α'}
    (h : Mirror H R A r r') (hH : ∀ e, ¬ H e) :
    Agree A (fun e t e' t' => e' = e ∧ R t t') r r' := by
  obtain hrefused | hagree := h
  · cases r with
    | ok _ _ => exact hrefused.elim
    | error e _ => exact (hH e hrefused).elim
  · exact hagree

/-- What is known of the run on the left is known beside the other one, too. -/
theorem Mirror.and_ends {r : EStateM.Result ε σ α} {r' : EStateM.Result ε σ' α'} {Q : α → σ → Prop}
    (h : Mirror H R A r r') (hQ : Ends Q (fun _ _ => True) r) :
    Mirror H R (fun a t a' t' => A a t a' t' ∧ Q a t) r r' :=
  h.imp id fun hagree => (hagree.and_ends hQ (.trivial r')).mono (fun _ _ _ _ ha => ⟨ha.1, ha.2.1⟩)
    fun _ _ _ _ he => he.1

/-- What relates a run to itself is known of it, unless it can be refused. -/
theorem Mirror.ends_self {R : σ → σ → Prop} {A : α → σ → α → σ → Prop} {r : EStateM.Result ε σ α}
    (h : Mirror (fun _ => False) R A r r) : Ends (fun a t => A a t a t) (fun _ _ => True) r :=
  (h.agree fun _ => id).ends_self.mono (fun _ _ => id) fun _ _ _ => trivial

theorem mirror_bind {x : EStateM ε σ β} {x' : EStateM ε σ' β'} {f : β → EStateM ε σ α}
    {f' : β' → EStateM ε σ' α'}
    (h : Mirror H R (fun b t b' t' => Mirror H R A (f b t) (f' b' t')) (x s) (x' s')) :
    Mirror H R A ((x >>= f) s) ((x' >>= f') s') := by
  simp only [bind, EStateM.bind]
  refine h.elim ?_ ?_ ?_
  · exact fun _ _ _ => .inl
  · exact fun _ _ _ _ => id
  · exact fun _ _ _ ht => .inr ⟨rfl, ht⟩

/-- A run on a part of a state, as a run on the whole of it. -/
theorem Mirror.embed {S : τ → τ' → Prop} {B : α → τ → α' → τ' → Prop} {C : β → σ → β' → σ' → Prop}
    {r : EStateM.Result ε τ α} {r' : EStateM.Result ε τ' α'} {give : α → τ → β} {give' : α' → τ' → β'}
    {put : τ → σ} {put' : τ' → σ'} (h : Mirror H S B r r')
    (hok : ∀ a t a' t', B a t a' t' → C (give a t) (put t) (give' a' t') (put' t'))
    (herror : ∀ t t', S t t' → R (put t) (put' t')) :
    Mirror H R C (WellLog.embed give put r) (WellLog.embed give' put' r') := by
  refine h.elim ?_ ?_ ?_
  · exact fun _ _ _ => .inl
  · exact fun _ _ _ _ hb => .inr (hok _ _ _ _ hb)
  · exact fun _ _ _ ht => .inr ⟨rfl, herror _ _ ht⟩

end Mirror

/-- A run that ends as one with a value does has a value. -/
theorem Agree.exists_ok {A : α → σ → α' → σ' → Prop} {E : ε → σ → ε → σ' → Prop}
    {r : EStateM.Result ε σ α} {a' : α'} {t' : σ'} (h : Agree A E r (.ok a' t')) :
    ∃ a t, r = .ok a t ∧ A a t a' t' := by
  cases r with
  | ok a t => exact ⟨a, t, rfl, h⟩
  | error e t => exact h.elim

/-- Two runs that both end as a third one does end in the same way. -/
theorem Agree.through {α'' σ'' : Type} {A : α → σ → α' → σ' → Prop} {E : ε → σ → ε → σ' → Prop}
    {A' : α'' → σ'' → α' → σ' → Prop} {E' : ε → σ'' → ε → σ' → Prop} {r : EStateM.Result ε σ α}
    {r' : EStateM.Result ε σ' α'} {r'' : EStateM.Result ε σ'' α''} (h : Agree A E r r')
    (h' : Agree A' E' r'' r') :
    Agree (fun a t a'' t'' => ∃ a' t', A a t a' t' ∧ A' a'' t'' a' t')
      (fun e t e'' t'' => ∃ e' t', E e t e' t' ∧ E' e'' t'' e' t') r r'' := by
  match r, r', r'', h, h' with
  | .ok _ _, .ok _ _, .ok _ _, h, h' => exact ⟨_, _, h, h'⟩
  | .error _ _, .error _ _, .error _ _, h, h' => exact ⟨_, _, h, h'⟩

theorem Matches.mono {K : ε → Prop} {W : α → α' → Prop} {r : Except ε α} {r' : Except ε α'}
    (h : Matches H V r r') (hH : ∀ e, H e → K e) (hV : ∀ a a', V a a' → W a a') :
    Matches K W r r' := by
  cases h with
  | refused _ blame => exact .refused _ (hH _ blame)
  | ok values => exact .ok (hV _ _ values)
  | error e => exact .error e

/-- Two results that both match a third one match each other. -/
theorem Matches.through {α'' : Type} {K : ε → Prop} {V' : α'' → α' → Prop} {r : Except ε α}
    {r' : Except ε α'} {r'' : Except ε α''} (h : Matches H V r r') (h' : Matches K V' r'' r')
    (hK : ∀ e, ¬ K e) : Matches H (fun a a'' => ∃ a', V a a' ∧ V' a'' a') r r'' := by
  cases h with
  | refused _ blame => exact .refused _ blame
  | ok values =>
    cases h' with
    | refused _ blame => exact (hK _ blame).elim
    | ok values' => exact .ok ⟨_, values, values'⟩
  | error e =>
    cases h' with
    | refused _ blame => exact (hK _ blame).elim
    | error _ => exact .error e

/-! ### Computations -/

namespace Mirrors

theorem pure {a : α} {a' : α'} (h : V a a') :
    Mirrors H R V (Pure.pure a : EStateM ε σ α) (Pure.pure a' : EStateM ε σ' α') :=
  fun _ _ hs => .inr ⟨h, hs⟩

theorem throw (e : ε) :
    Mirrors H R V (throw e : EStateM ε σ α) (MonadExcept.throw e : EStateM ε σ' α') :=
  fun _ _ hs => .inr ⟨rfl, hs⟩

theorem modify {f : σ → σ} {f' : σ' → σ'} (h : ∀ s s', R s s' → R (f s) (f' s')) :
    Mirrors H R Eq (modify f : EStateM ε σ PUnit) (modify f' : EStateM ε σ' PUnit) :=
  fun _ _ hs => .inr ⟨rfl, h _ _ hs⟩

theorem set {s : σ} {s' : σ'} (h : R s s') :
    Mirrors H R Eq (MonadStateOf.set s : EStateM ε σ PUnit) (MonadStateOf.set s' : EStateM ε σ' PUnit) :=
  fun _ _ _ => .inr ⟨rfl, h⟩

/-- What is refused everywhere may stand beside anything. -/
theorem of_refused {x : EStateM ε σ α} {x' : EStateM ε σ' α'} (h : ∀ s, Refused H (x s)) :
    Mirrors H R V x x' := fun s _ _ => .inl (h s)

theorem bind {x : EStateM ε σ β} {x' : EStateM ε σ' β'} {W : β → β' → Prop}
    {f : β → EStateM ε σ α} {f' : β' → EStateM ε σ' α'} (hx : Mirrors H R W x x')
    (hf : ∀ b b', W b b' → Mirrors H R V (f b) (f' b')) : Mirrors H R V (x >>= f) (x' >>= f') :=
  fun s s' hs => mirror_bind ((hx s s' hs).mono (fun b t b' t' h => hf b b' h.1 t t' h.2)
    fun _ _ => id)

theorem mono {x : EStateM ε σ α} {x' : EStateM ε σ' α'} {W : α → α' → Prop}
    (h : Mirrors H R V x x') (hV : ∀ a a', V a a' → W a a') : Mirrors H R W x x' :=
  fun s s' hs => (h s s' hs).mono (fun a _ a' _ ha => ⟨hV a a' ha.1, ha.2⟩) fun _ _ => id

/-- A first step with the same value. -/
theorem bind_eq {x : EStateM ε σ β} {x' : EStateM ε σ' β} {f : β → EStateM ε σ α}
    {f' : β → EStateM ε σ' α'} (hx : Mirrors H R Eq x x') (hf : ∀ b, Mirrors H R V (f b) (f' b)) :
    Mirrors H R V (x >>= f) (x' >>= f') := by
  refine .bind hx ?_
  rintro b _ rfl
  exact hf b

/-- Where the left one ends with a value, so does the right one. -/
theorem of_ok {x : EStateM ε σ α} {x' : EStateM ε σ' α'} {s t : σ} {s' : σ'} {a : α}
    (h : Mirrors H R V x x') (hs : R s s') (hx : x s = .ok a t) :
    ∃ a' t', x' s' = .ok a' t' ∧ V a a' ∧ R t t' := by
  have hrun := h s s' hs
  rw [hx] at hrun
  match x' s', hrun with
  | .ok a' t', .inr hagree => exact ⟨a', t', rfl, hagree⟩

/-- Where the left one fails, it is refused, or the right one fails as well. -/
theorem of_error {x : EStateM ε σ α} {x' : EStateM ε σ' α'} {s t : σ} {s' : σ'} {e : ε}
    (h : Mirrors H R V x x') (hs : R s s') (hx : x s = .error e t) :
    H e ∨ ∃ t', x' s' = .error e t' ∧ R t t' := by
  have hrun := h s s' hs
  rw [hx] at hrun
  match x' s', hrun with
  | _, .inl hrefused => exact .inl hrefused
  | .error e' t', .inr hagree =>
    obtain ⟨rfl, ht⟩ := hagree
    exact .inr ⟨t', rfl, ht⟩

/-- Nothing follows a failure. -/
theorem throw_bind (e : ε) {f : β → EStateM ε σ α} {f' : β' → EStateM ε σ' α'} :
    Mirrors H R V (MonadExcept.throw e >>= f) (MonadExcept.throw e >>= f') :=
  fun _ _ hs => .inr ⟨rfl, hs⟩

/-- A look at the state. -/
theorem bind_get {f : σ → EStateM ε σ α} {f' : σ' → EStateM ε σ' α'}
    (h : ∀ s s', R s s' → Mirrors H R V (f s) (f' s')) : Mirrors H R V (get >>= f) (get >>= f') :=
  fun s s' hs => h s s' hs s s' hs

theorem adaptExcept {ε₀ : Type} {H₀ : ε₀ → Prop} {x : EStateM ε σ α} {x' : EStateM ε σ' α'}
    {wrap : ε → ε₀} (h : Mirrors H R V x x') (hwrap : ∀ e, H e → H₀ (wrap e)) :
    Mirrors H₀ R V (EStateM.adaptExcept wrap x) (EStateM.adaptExcept wrap x') := by
  intro s s' hs
  simp only [EStateM.adaptExcept]
  refine (h s s' hs).elim ?_ ?_ ?_
  · exact fun e _ _ he => .inl (hwrap e he)
  · exact fun _ _ _ _ => .inr
  · exact fun _ _ _ ht => .inr ⟨rfl, ht⟩

/-- A failed read, taken as a failure of either kind. -/
theorem liftIo {H : IoError → Prop} {x : EStateM IoError σ α} {x' : EStateM IoError σ' α'}
    (h : Mirrors H R V x x') :
    Mirrors (FormatError.Of H) R V (liftM x : EStateM FormatError σ α)
      (liftM x' : EStateM FormatError σ' α') := h.adaptExcept fun _ => id

/-- What handles a failure has to pass on the refusals. -/
theorem attempt_bind {ε₀ : Type} {H₀ : ε₀ → Prop} {x : EStateM ε σ β} {x' : EStateM ε σ' β'}
    {W : β → β' → Prop} {f : Except ε β → EStateM ε₀ σ α} {f' : Except ε β' → EStateM ε₀ σ' α'}
    (hx : Mirrors H R W x x') (hok : ∀ b b', W b b' → Mirrors H₀ R V (f (.ok b)) (f' (.ok b')))
    (herror : ∀ e, Mirrors H₀ R V (f (.error e)) (f' (.error e)))
    (hrefused : ∀ e s, H e → Refused H₀ (f (.error e) s)) :
    Mirrors H₀ R V (attempt x >>= f) (attempt x' >>= f') := by
  intro s s' hs
  simp only [Bind.bind, EStateM.bind, attempt]
  refine (hx s s' hs).elim ?_ ?_ ?_
  · exact fun e t _ he => .inl (hrefused e t he)
  · exact fun b t b' t' hb => hok b b' hb.1 t t' hb.2
  · exact herror

/-- Without refusals, a failure may be a result like any other. -/
theorem attempt {ε₀ : Type} {H₀ : ε₀ → Prop} {x : EStateM ε σ α} {x' : EStateM ε σ' α}
    (h : Mirrors H R Eq x x') (hH : ∀ e, ¬ H e) :
    Mirrors H₀ R Eq (WellLog.attempt x) (WellLog.attempt x') := by
  intro s s' hs
  simp only [WellLog.attempt]
  refine (h s s' hs).elim ?_ ?_ ?_
  · exact fun e _ _ he => (hH e he).elim
  · exact fun _ _ _ _ ha => .inr ⟨congrArg _ ha.1, ha.2⟩
  · exact fun _ _ _ ht => .inr ⟨rfl, ht⟩

theorem mapM {f : β → EStateM ε σ α} {f' : β → EStateM ε σ' α}
    (hf : ∀ b, Mirrors H R Eq (f b) (f' b)) (l : List β) :
    Mirrors H R Eq (l.mapM f) (l.mapM f') := by
  induction l with
  | nil => exact .pure rfl
  | cons b l ih =>
    rw [List.mapM_cons, List.mapM_cons]
    exact .bind_eq (hf b) fun _ => .bind_eq ih fun _ => .pure rfl

theorem foldlM {f : α → β → EStateM ε σ α} {f' : α → β → EStateM ε σ' α}
    (hf : ∀ a b, Mirrors H R Eq (f a b) (f' a b)) (a : α) (l : List β) :
    Mirrors H R Eq (l.foldlM f a) (l.foldlM f' a) := by
  induction l generalizing a with
  | nil => exact .pure rfl
  | cons b l ih =>
    rw [List.foldlM_cons, List.foldlM_cons]
    exact .bind_eq (hf a b) ih

theorem forM {f : β → EStateM ε σ PUnit} {f' : β → EStateM ε σ' PUnit}
    (hf : ∀ b, Mirrors H R Eq (f b) (f' b)) (l : List β) :
    Mirrors H R Eq (l.forM f) (l.forM f') := by
  induction l with
  | nil => exact .pure rfl
  | cons b l ih => exact .bind_eq (hf b) fun _ => ih

theorem filterMapM {f : β → EStateM ε σ (Option α)} {f' : β → EStateM ε σ' (Option α)}
    (hf : ∀ b, Mirrors H R Eq (f b) (f' b)) (l : List β) :
    Mirrors H R Eq (l.filterMapM f) (l.filterMapM f') := by
  induction l with
  | nil => exact .pure rfl
  | cons b l ih =>
    rw [List.filterMapM_cons, List.filterMapM_cons]
    refine .bind_eq (hf b) fun found => ?_
    cases found with
    | none => exact ih
    | some a => exact .bind_eq ih fun _ => .pure rfl

end Mirrors

/-! ### Computations with a journal -/

section Embed

variable {j : Journalled σ}

theorem quiet_eq {x : EStateM ε σ α} :
    Logged.quiet x j = embed (fun a _ => a) (fun s => ⟨s, j.notes⟩) (x j.state) := by
  simp only [Logged.quiet]
  cases x j.state <;> rfl

theorem within_eq {x : Logged ε τ α} {get : σ → τ} {set : σ → τ → σ} :
    x.within get set j =
      embed (fun a _ => a) (fun p => ⟨set j.state p.state, p.notes⟩) (x ⟨get j.state, j.notes⟩) := by
  simp only [Logged.within]
  cases x ⟨get j.state, j.notes⟩ <;> rfl

theorem apart_eq {x : Logged ε τ α} {t : τ} :
    Logged.apart t x j =
      embed (fun a p => (a, p.state)) (fun p => ⟨j.state, p.notes⟩) (x ⟨t, j.notes⟩) := by
  simp only [Logged.apart]
  cases x ⟨t, j.notes⟩ <;> rfl

end Embed

namespace Mirrors

variable {S : τ → τ' → Prop}

theorem note (l l' : Level) (m m' : String) :
    Mirrors H (Noted R) Eq (Logged.note l m : Logged ε σ Unit) (Logged.note l' m' : Logged ε σ' Unit) :=
  fun _ _ hs => .inr ⟨rfl, hs⟩

theorem bind_note {l l' : Level} {m m' : String} {x : Logged ε σ α} {x' : Logged ε σ' α'}
    (h : Mirrors H (Noted R) V x x') :
    Mirrors H (Noted R) V (Logged.note l m >>= fun _ => x) (Logged.note l' m' >>= fun _ => x') :=
  .bind (.note l l' m m') fun _ _ _ => h

/-- A look at the state. -/
theorem bind_state {f : σ → Logged ε σ α} {f' : σ' → Logged ε σ' α'}
    (h : ∀ s s', R s s' → Mirrors H (Noted R) V (f s) (f' s')) :
    Mirrors H (Noted R) V (Logged.state >>= f) (Logged.state >>= f') :=
  fun j j' hs => h j.state j'.state hs j j' hs

/-- What takes no notice of the journal, and cannot fail. -/
theorem of_concur {x : Logged ε σ α} {x' : Logged ε σ' α} (h : Concur R x x') :
    Mirrors H (Noted R) Eq x x' :=
  fun j j' hs => .inr ((h j j' hs).mono (fun _ _ _ _ ha => ⟨ha.1.symm, ha.2⟩) fun _ _ _ _ => False.elim)

theorem lift {x : EStateM ε σ α} {x' : EStateM ε σ' α'} (h : Mirrors H R V x x') :
    Mirrors H (Noted R) V (liftM x : Logged ε σ α) (liftM x' : Logged ε σ' α') := by
  intro j j' hs
  change Mirror H _ _ (Logged.quiet x j) (Logged.quiet x' j')
  rw [quiet_eq, quiet_eq]
  exact (h j.state j'.state hs).embed (fun _ _ _ _ => id) fun _ _ => id

theorem liftRead {H : IoError → Prop} {x : EStateM IoError σ α} {x' : EStateM IoError σ' α'}
    (h : Mirrors H R V x x') :
    Mirrors (FormatError.Of H) (Noted R) V (liftM x : Logged FormatError σ α)
      (liftM x' : Logged FormatError σ' α') := .lift h.liftIo

theorem within {x : Logged ε τ α} {x' : Logged ε τ' α'} {get : σ → τ} {get' : σ' → τ'}
    {set : σ → τ → σ} {set' : σ' → τ' → σ'} (h : Mirrors H (Noted S) V x x')
    (hget : ∀ s s', R s s' → S (get s) (get' s'))
    (hset : ∀ s s' t t', R s s' → S t t' → R (set s t) (set' s' t')) :
    Mirrors H (Noted R) V (x.within get set) (x'.within get' set') := by
  intro j j' hs
  rw [within_eq, within_eq]
  exact (h ⟨get j.state, j.notes⟩ ⟨get' j'.state, j'.notes⟩ (hget _ _ hs)).embed
    (fun _ _ _ _ ha => ⟨ha.1, hset _ _ _ _ hs ha.2⟩) fun _ _ ht => hset _ _ _ _ hs ht

theorem apart {x : Logged ε τ α} {x' : Logged ε τ' α'} {t : τ} {t' : τ'}
    (h : Mirrors H (Noted S) V x x') (ht : S t t') :
    Mirrors H (Noted R) (fun p p' => V p.1 p'.1 ∧ S p.2 p'.2) (Logged.apart t x : Logged ε σ (α × τ))
      (Logged.apart t' x' : Logged ε σ' (α' × τ')) := by
  intro j j' hs
  rw [apart_eq, apart_eq]
  exact (h ⟨t, j.notes⟩ ⟨t', j'.notes⟩ ht).embed (fun _ _ _ _ ha => ⟨ha, hs⟩) fun _ _ _ => hs

end Mirrors

/-! ### Computations with the same notes -/

/-- States that `R` relates, with journals that say the same. -/
def Synced (R : σ → σ' → Prop) (j : Journalled σ) (j' : Journalled σ') : Prop :=
  j'.notes = j.notes ∧ R j.state j'.state

/-- The same failure, with journals that say the same. -/
def SameFailure (e : ε) (j : Journalled σ) (e' : ε) (j' : Journalled σ') : Prop :=
  e' = e ∧ j'.notes = j.notes

namespace Mirrors

variable {S : τ → τ' → Prop}

theorem note_synced (l : Level) (m : String) :
    Mirrors H (Synced R) Eq (Logged.note l m : Logged ε σ Unit) (Logged.note l m : Logged ε σ' Unit) :=
  .modify fun _ _ hs => ⟨congrArg (Array.push · _) hs.1, hs.2⟩

theorem bind_note_synced {l : Level} {m : String} {x : Logged ε σ α} {x' : Logged ε σ' α'}
    (h : Mirrors H (Synced R) V x x') :
    Mirrors H (Synced R) V (Logged.note l m >>= fun _ => x) (Logged.note l m >>= fun _ => x') :=
  .bind (.note_synced l m) fun _ _ _ => h

/-- A look at the state. -/
theorem bind_state_synced {f : σ → Logged ε σ α} {f' : σ' → Logged ε σ' α'}
    (h : ∀ s s', R s s' → Mirrors H (Synced R) V (f s) (f' s')) :
    Mirrors H (Synced R) V (Logged.state >>= f) (Logged.state >>= f') :=
  fun j j' hs => h j.state j'.state hs.2 j j' hs

/-- From the same state and with the same notes, a computation does the same. -/
theorem refl_synced (x : Logged ε σ α) : Mirrors H (Synced Eq) Eq x x := by
  rintro ⟨s, notes⟩ ⟨s', notes'⟩ ⟨hnotes, hs⟩
  obtain rfl : notes' = notes := hnotes
  obtain rfl : s = s' := hs
  cases x ⟨s, notes'⟩ with
  | ok a t => exact .inr ⟨rfl, rfl, rfl⟩
  | error e t => exact .inr ⟨rfl, rfl, rfl⟩

/-- What ends in the same way, from the same state and with the same notes, is the same up to the value
that it ends with. -/
theorem eq_map {x : Logged ε σ α} {x' : Logged ε σ α'} {g : α → α'}
    (h : Mirrors (fun _ => False) (Synced Eq) (fun a a' => a' = g a) x x') : x' = g <$> x := by
  funext j
  have hagree := (h j j ⟨rfl, rfl⟩).agree fun _ => id
  simp only [Functor.map, EStateM.map]
  match x j, x' j, hagree with
  | .ok a ⟨s, notes⟩, .ok _ ⟨_, _⟩, ⟨rfl, rfl, rfl⟩ => rfl
  | .error e ⟨s, notes⟩, .error _ ⟨_, _⟩, ⟨rfl, rfl, rfl⟩ => rfl

/-- A computation with a state of its own does the same on both sides. -/
theorem apart_self {x : Logged ε τ α} {t : τ} {Q : α → τ → Prop}
    (hQ : ∀ notes, Ends (fun a p => Q a p.state) (fun _ _ => True) (x ⟨t, notes⟩)) :
    Mirrors H (Synced R) (fun p p' => p = p' ∧ Q p.1 p.2) (Logged.apart t x : Logged ε σ (α × τ))
      (Logged.apart t x : Logged ε σ' (α × τ)) := by
  intro j j' hs
  have hend := hQ j.notes
  rw [apart_eq, apart_eq, hs.1]
  cases hx : x ⟨t, j.notes⟩ with
  | ok a p =>
    rw [hx] at hend
    exact .inr ⟨⟨rfl, hend⟩, rfl, hs.2⟩
  | error e p => exact .inr ⟨rfl, rfl, hs.2⟩

theorem within_synced {x : Logged ε τ α} {x' : Logged ε τ' α'} {get : σ → τ} {get' : σ' → τ'}
    {set : σ → τ → σ} {set' : σ' → τ' → σ'} (h : Mirrors H (Synced S) V x x')
    (hget : ∀ s s', R s s' → S (get s) (get' s'))
    (hset : ∀ s s' t t', R s s' → S t t' → R (set s t) (set' s' t')) :
    Mirrors H (Synced R) V (x.within get set) (x'.within get' set') := by
  intro j j' hs
  rw [within_eq, within_eq]
  exact (h ⟨get j.state, j.notes⟩ ⟨get' j'.state, j'.notes⟩ ⟨hs.1, hget _ _ hs.2⟩).embed
    (fun _ _ _ _ ha => ⟨ha.1, ha.2.1, hset _ _ _ _ hs.2 ha.2.2⟩)
    fun _ _ ht => ⟨ht.1, hset _ _ _ _ hs.2 ht.2⟩

/-- A computation apart, with what is known of the one on the left. -/
theorem apart_synced {x : Logged ε τ α} {x' : Logged ε τ' α'} {t : τ} {t' : τ'} {Q : α → τ → Prop}
    (h : Mirrors H (Synced S) V x x') (ht : S t t')
    (hQ : ∀ notes, Ends (fun a p => Q a p.state) (fun _ _ => True) (x ⟨t, notes⟩)) :
    Mirrors H (Synced R) (fun p p' => V p.1 p'.1 ∧ S p.2 p'.2 ∧ Q p.1 p.2)
      (Logged.apart t x : Logged ε σ (α × τ)) (Logged.apart t' x' : Logged ε σ' (α' × τ')) := by
  intro j j' hs
  rw [apart_eq, apart_eq]
  exact ((h ⟨t, j.notes⟩ ⟨t', j'.notes⟩ ⟨hs.1, ht⟩).and_ends (hQ j.notes)).embed
    (fun _ _ _ _ ha => ⟨⟨ha.1.1, ha.1.2.2, ha.2⟩, ha.1.2.1, hs.2⟩) fun _ _ ht => ⟨ht.1, hs.2⟩

end Mirrors

/-! ### Reading on until enough is there -/

section Gather

variable {read : Nat → EStateM IoError σ (List UInt8)} {s s' : σ} {n : Nat}

/-- What is read first comes first. -/
def before (got : List UInt8) : EStateM.Result IoError σ (List UInt8) →
    EStateM.Result IoError σ (List UInt8) := embed (fun more _ => got ++ more) id

theorem before_nil (r : EStateM.Result IoError σ (List UInt8)) : before [] r = r := by
  cases r <;> rfl

theorem before_before (got more : List UInt8) (r : EStateM.Result IoError σ (List UInt8)) :
    before got (before more r) = before (got ++ more) r := by
  cases r with
  | ok others t => exact congrArg (fun all => EStateM.Result.ok all t) (List.append_assoc ..).symm
  | error e t => rfl

theorem before_eq_ok {got all : List UInt8} {r : EStateM.Result IoError σ (List UInt8)} {t : σ}
    (h : before got r = .ok all t) : ∃ more, r = .ok more t ∧ all = got ++ more := by
  cases r with
  | ok more u =>
    cases h
    exact ⟨more, rfl, rfl⟩
  | error e u => cases h

theorem gather_of_pos (hn : 0 < n) : gather read n s =
    match read n s with
    | .error e t => .error e t
    | .ok got t => if got = [] then .ok [] t else before got (gather read (n - got.length) t) := by
  rw [gather, dif_neg (Nat.pos_iff_ne_zero.1 hn)]
  simp only [bind, EStateM.bind]
  cases read n s with
  | error e t => rfl
  | ok got t =>
    cases got with
    | nil => rfl
    | cons b got =>
      simp only [List.length_cons, Nat.succ_ne_zero, dite_false, List.cons_ne_nil, if_false,
        EStateM.bind]
      cases gather read (n - (got.length + 1)) t <;> rfl

/-- Where reading does the same, so does gathering. -/
theorem gather_congr (h : ∀ n, 0 < n → read n s = read n s') (hn : 0 < n) :
    gather read n s = gather read n s' := by
  rw [gather_of_pos hn, gather_of_pos hn, h n hn]

/-- At most one byte comes at a time, however many are asked for. -/
structure Single (P : σ → Prop) (read : Nat → EStateM IoError σ (List UInt8)) : Prop where
  /-- The number of bytes that are asked for plays no part. -/
  read_eq : ∀ n s, P s → 0 < n → read n s = read 1 s
  /-- A read delivers at most one byte. -/
  ends_read : ∀ s, P s → Ends (fun got s' => got.length ≤ 1 ∧ P s') (fun _ _ => True) (read 1 s)

namespace Single

variable {P : σ → Prop} (hS : Single P read)
include hS

theorem gather_of_nil (hs : P s) {t : σ} (h : read 1 s = .ok [] t) (hn : 0 < n) :
    gather read n s = .ok [] t := by
  rw [gather_of_pos hn, hS.read_eq n s hs hn, h]
  rfl

theorem gather_of_error (hs : P s) {e : IoError} {t : σ} (h : read 1 s = .error e t) (hn : 0 < n) :
    gather read n s = .error e t := by
  rw [gather_of_pos hn, hS.read_eq n s hs hn, h]

/-- A gathering that is complete begins with a byte. -/
theorem gather_succ (hs : P s) {a : Nat} {got : List UInt8} {t : σ}
    (h : gather read (a + 1) s = .ok got t) (ha : got.length = a + 1) :
    ∃ b more u, P u ∧ read 1 s = .ok [b] u ∧ gather read a u = .ok more t ∧ got = b :: more ∧
      more.length = a := by
  have hone := hS.ends_read s hs
  cases hread : read 1 s with
  | error e u =>
    rw [hS.gather_of_error hs hread (Nat.succ_pos a)] at h
    cases h
  | ok one u =>
    rw [hread, ends_ok] at hone
    match one, hone with
    | [], _ =>
      rw [hS.gather_of_nil hs hread (Nat.succ_pos a)] at h
      cases h
      cases ha
    | [b], hone =>
      rw [gather_of_pos (Nat.succ_pos a), hS.read_eq (a + 1) s hs (Nat.succ_pos a), hread] at h
      obtain ⟨more, hmore, rfl⟩ := before_eq_ok h
      exact ⟨b, more, u, hone.2, rfl, hmore, rfl, Nat.succ.inj ha⟩

/-- Gathering may be done in two steps. -/
theorem gather_add {a b : Nat} {got : List UInt8} {t : σ} (hs : P s)
    (h : gather read a s = .ok got t) (ha : got.length = a) :
    gather read (a + b) s = before got (gather read b t) := by
  -- byte by byte, since the steps of the right hand side are single bytes
  induction a generalizing s got with
  | zero =>
    rw [gather_zero] at h
    cases h
    rw [Nat.zero_add, before_nil]
  | succ a ih =>
    obtain ⟨x, more, u, hu, hread, hmore, rfl, hlen⟩ := hS.gather_succ hs h ha
    rw [Nat.succ_add, gather_of_pos (Nat.succ_pos _), hS.read_eq _ s hs (Nat.succ_pos _), hread]
    simp only [List.cons_ne_nil, if_false, List.length_singleton, Nat.succ_sub_one]
    rw [ih hu hmore hlen, before_before, List.singleton_append]

/-- Gathering of what is wrapped up in another state, up to `limit` bytes of it. -/
theorem gather_wrapped {outer : Nat → EStateM IoError τ (List UInt8)} {wrap : Nat → σ → τ}
    {limit : Nat}
    (hwrap : ∀ n k s b t, 0 < n → k < limit → P s → read 1 s = .ok [b] t →
      outer n (wrap k s) = .ok [b] (wrap (k + 1) t))
    {a k : Nat} {got : List UInt8} {t : σ} (hs : P s) (hk : k + a ≤ limit)
    (h : gather read a s = .ok got t) (ha : got.length = a) :
    gather outer a (wrap k s) = .ok got (wrap (k + a) t) := by
  -- `k` bytes have been read, and the others fit in front of the limit
  induction a generalizing s k got with
  | zero =>
    rw [gather_zero] at h ⊢
    cases h
    rfl
  | succ a ih =>
    obtain ⟨x, more, u, hu, hread, hmore, rfl, hlen⟩ := hS.gather_succ hs h ha
    have houter := ih hu (k := k + 1) (by omega) hmore hlen
    rw [gather_of_pos (Nat.succ_pos a), hwrap (a + 1) k s x u (Nat.succ_pos a) (by omega) hs hread]
    simp only [List.cons_ne_nil, if_false, List.length_singleton, Nat.succ_sub_one]
    rw [houter, show k + 1 + a = k + (a + 1) by omega]
    rfl

end Single

variable {H : IoError → Prop} {R : σ → σ' → Prop} {read' : Nat → EStateM IoError σ' (List UInt8)}

/-- Whatever bytes a read on the left delivers, gathering so many of them on the right catches up with
it.  Where the left one finds the end or a failure, so does the right one. -/
def Spelled (H : IoError → Prop) (R : σ → σ' → Prop) (read : Nat → EStateM IoError σ (List UInt8))
    (read' : Nat → EStateM IoError σ' (List UInt8)) : Prop :=
  ∀ n s s', R s s' → 0 < n →
    Ends
      (fun got t => ∃ t', R t t' ∧
        (got = [] ∧ read' 1 s' = .ok [] t' ∨
          got ≠ [] ∧ got.length ≤ n ∧ gather read' got.length s' = .ok got t'))
      (fun e t => H e ∨ ∃ t', R t t' ∧ read' 1 s' = .error e t') (read n s)

namespace Spelled

variable {P : σ' → Prop} (h : Spelled H R read read') (hS : Single P read')
  (hP : ∀ s s', R s s' → P s')
include h hS hP

/-- **The pieces do not show once enough is there.** -/
theorem gather (n : Nat) : Mirrors H R Eq (gather read n) (WellLog.gather read' n) := by
  -- the left read takes any part of what is asked for, so `n` gets smaller by any number
  induction n using Nat.strongRecOn with
  | ind n ih =>
    intro s s' hs
    rcases Nat.eq_zero_or_pos n with rfl | hn
    · rw [gather_zero, gather_zero]
      exact .inr ⟨rfl, hs⟩
    have hread := h n s s' hs hn
    rw [gather_of_pos hn]
    cases hleft : read n s with
    | error e t =>
      rw [hleft] at hread
      obtain hrefused | ⟨t', ht, hright⟩ := hread
      · exact .inl hrefused
      · rw [hS.gather_of_error (hP s s' hs) hright hn]
        exact .inr ⟨rfl, ht⟩
    | ok got t =>
      rw [hleft, ends_ok] at hread
      obtain ⟨t', ht, ⟨rfl, hright⟩ | ⟨hgot, hle, hright⟩⟩ := hread
      · rw [hS.gather_of_nil (hP s s' hs) hright hn]
        exact .inr ⟨rfl, ht⟩
      · -- the right one catches up, and from there on both gather what is left
        have hpos := List.length_pos_iff.2 hgot
        have hadd := hS.gather_add (b := n - got.length) (hP s s' hs) hright rfl
        rw [Nat.add_sub_cancel' hle] at hadd
        simp only [if_neg hgot]
        rw [hadd]
        exact (ih (n - got.length) (by omega) t t' ht).embed
          (fun _ _ _ _ ha => ⟨congrArg (got ++ ·) ha.1, ha.2⟩) fun _ _ => id

/-- Reading a single byte. -/
theorem read_one : Mirrors H R Eq (read 1) (read' 1) := by
  intro s s' hs
  have hread := h 1 s s' hs Nat.one_pos
  cases hleft : read 1 s with
  | error e t =>
    rw [hleft] at hread
    obtain hrefused | ⟨t', ht, hright⟩ := hread
    · exact .inl hrefused
    · rw [hright]
      exact .inr ⟨rfl, ht⟩
  | ok got t =>
    rw [hleft, ends_ok] at hread
    obtain ⟨t', ht, ⟨rfl, hright⟩ | ⟨hgot, hle, hright⟩⟩ := hread
    · rw [hright]
      exact .inr ⟨rfl, ht⟩
    · have hlen : got.length = 0 + 1 := by
        have hpos := List.length_pos_iff.2 hgot
        omega
      rw [hlen] at hright
      obtain ⟨b, more, u, -, hone, hmore, rfl, -⟩ := hS.gather_succ (hP s s' hs) hright hlen
      rw [gather_zero] at hmore
      cases hmore
      rw [hone]
      exact .inr ⟨rfl, ht⟩

end Spelled

end Gather

end WellLog
