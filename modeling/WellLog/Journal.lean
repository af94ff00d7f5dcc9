import WellLog.Error
/-!
# The journal

Reading a damaged file goes on where it can, and says in a journal what it passed over.  A `Logged`
computation has a state and a journal; a failure keeps both.
-/

namespace WellLog

/-- How much a note matters. -/
inductive Level where
  /-- A detail of the work. -/
  | debug
  /-- Something worth knowing. -/
  | info
  /-- Something that may make the result incomplete. -/
  | warning
  /-- Something that should not be. -/
  | error
  deriving DecidableEq, Repr

/-- One entry of a journal. -/
structure Note where
  /-- How much it matters. -/
  level : Level
  /-- What it says. -/
  message : String
  deriving DecidableEq, Repr

/-- A state together with the notes made so far. -/
structure Journalled (σ : Type) where
  /-- The state. -/
  state : σ
  /-- The notes in the order they were made. -/
  notes : Array Note

/-- A computation that changes a state, makes notes and may fail. -/
abbrev Logged (ε σ : Type) := EStateM ε (Journalled σ)

namespace Logged

variable {ε σ τ α : Type}

/-- Makes a note. -/
def note (level : Level) (message : String) : Logged ε σ Unit :=
  modify fun j => { j with notes := j.notes.push ⟨level, message⟩ }

/-- A computation without notes. -/
def quiet (x : EStateM ε σ α) : Logged ε σ α := fun j =>
  match x j.state with
  | .ok a s => .ok a { j with state := s }
  | .error e s => .error e { j with state := s }

/-- A computation on a part of the state. -/
def within (get : σ → τ) (set : σ → τ → σ) (x : Logged ε τ α) : Logged ε σ α := fun j =>
  match x ⟨get j.state, j.notes⟩ with
  | .ok a p => .ok a ⟨set j.state p.state, p.notes⟩
  | .error e p => .error e ⟨set j.state p.state, p.notes⟩

/-- A computation on a state of its own, which shares the journal. -/
def apart (s : τ) (x : Logged ε τ α) : Logged ε σ (α × τ) := fun j =>
  match x ⟨s, j.notes⟩ with
  | .ok a p => .ok (a, p.state) { j with notes := p.notes }
  | .error e p => .error e { j with notes := p.notes }

/-- The state without the journal. -/
def state : Logged ε σ σ := return (← get).state

end Logged

instance {ε σ : Type} : MonadLift (EStateM ε σ) (Logged ε σ) where
  monadLift := Logged.quiet

instance {σ : Type} : MonadLift (EStateM IoError σ) (Logged FormatError σ) where
  monadLift x := Logged.quiet (EStateM.adaptExcept .io x)

end WellLog
