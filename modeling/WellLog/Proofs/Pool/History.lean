import Mathlib.Data.List.Induction
import WellLog.Proofs.Pool.Linking
/-!
# Histories of pools

A pool is made from sets, queried, linked, given more sets, and so on.  Whatever the order, the pool is
sound for the sets that were added: what it answers does not depend on what it was asked before.

* `Pool.Call` : the calls.
* `Pool.sound_after` : **behind every history the pool is sound** for the sets that were added.
* `Pool.find_after` : every query finds what the sets say.
* `Pool.link_after` : linking reports what the sets say, and a second time changes nothing.
-/

namespace WellLog.Pool

variable {ε : Type} {registry : Registry} {sets : List ObjectSet} {j : Journalled Pool}

/-- A call of a pool. -/
inductive Call where
  /-- Sets are added. -/
  | addSets (sets : List ObjectSet)
  /-- A query. -/
  | find (type : String) (name : Option String) (matcher : Matcher)
  /-- A query for one object. -/
  | object (type name : String) (origin : Option Nat) (copy : Option UInt8)
  /-- The objects are linked. -/
  | link
  /-- Caching is turned on or off. -/
  | setCaching (on : Bool)
  /-- An instance is held. -/
  | hold (id : InstanceId)
  /-- A hold is given up. -/
  | release (n : Nat)

namespace Call

/-- What a call does. -/
def run : Call → Logged QueryError Pool Unit
  | addSets sets => Pool.addSets sets
  | find type name matcher => do let _ ← Pool.find type name matcher
  | object type name origin copy => do let _ ← Pool.object type name origin copy
  | link => do let _ ← Pool.link
  | setCaching on => modify fun j => { j with state := j.state.setCaching on }
  | hold id => modify fun j => { j with state := (j.state.hold id).2 }
  | release n => modify fun j => { j with state := j.state.release n }

/-- The pool behind a call, whether it was answered or failed. -/
def after (c : Call) (j : Journalled Pool) : Journalled Pool :=
  match c.run j with
  | .ok _ j' => j'
  | .error _ j' => j'

/-- The sets that a call adds. -/
def adds : Call → List ObjectSet
  | addSets sets => sets
  | find _ _ _ | object _ _ _ _ | link | setCaching _ | hold _ | release _ => []

/-- **A call leaves the pool sound.** -/
theorem ends_run (h : Sound registry sets j.state) (c : Call) :
    Ends (fun _ j' => Sound registry (sets ++ c.adds) j'.state)
      (fun _ j' => Sound registry (sets ++ c.adds) j'.state) (c.run j) := by
  cases c with
  | addSets more => exact (ends_addSets h more).mono (fun _ _ => id) fun _ _ => False.elim
  | find type name matcher =>
    rw [run, Call.adds, List.append_nil, ends_bind]
    refine (ends_find h type name matcher).mono (fun _ _ h => h.1) ?_
    rintro e j' ⟨rfl, -⟩
    exact h
  | object type name origin copy =>
    rw [run, Call.adds, List.append_nil, ends_bind]
    exact (ends_object h type name origin copy).mono (fun _ _ h => h.1) fun _ _ h => h.1
  | link =>
    rw [run, Call.adds, List.append_nil, ends_bind]
    exact (ends_link h).mono (fun _ _ h => h.2.sound) fun _ _ => False.elim
  | setCaching on =>
    rw [Call.adds, List.append_nil]
    exact h.setCaching on
  | hold id =>
    rw [Call.adds, List.append_nil]
    exact h.hold id
  | release n =>
    rw [Call.adds, List.append_nil]
    exact h.release n

/-- What holds behind a call however it ends. -/
theorem after_of_ends {P : Journalled Pool → Prop} {c : Call}
    (h : Ends (fun _ j' => P j') (fun _ j' => P j') (c.run j)) : P (c.after j) := by
  rw [after]
  cases hrun : c.run j with
  | ok _ j' => rwa [hrun] at h
  | error _ j' => rwa [hrun] at h

end Call

/-- The pool behind a history, which begins with no objects and with the notes of what was before. -/
def after (registry : Registry) (notes : Array Note) (history : List Call) : Journalled Pool :=
  history.foldl (fun j c => c.after j) ⟨empty registry, notes⟩

theorem after_concat (registry : Registry) (notes : Array Note) (history : List Call) (c : Call) :
    after registry notes (history ++ [c]) = c.after (after registry notes history) := by
  rw [after, List.foldl_append]
  rfl

/-- The sets that were added in a history. -/
def added (history : List Call) : List ObjectSet := history.flatMap Call.adds

/-- **Behind every history the pool is sound** for the sets that were added. -/
theorem sound_after (registry : Registry) (notes : Array Note) (history : List Call) :
    Sound registry (added history) (after registry notes history).state := by
  induction history using List.reverseRecOn with
  | nil => exact sound_empty registry
  | append_singleton history c ih =>
    rw [added, List.flatMap_append, List.flatMap_singleton, after_concat]
    exact Call.after_of_ends (Call.ends_run ih c)

/-- Behind linking the pool is linked. -/
theorem linked_after_link (registry : Registry) (notes : Array Note) (history : List Call) :
    Linked registry (added history) (after registry notes (history ++ [.link])).state := by
  rw [after_concat]
  refine Call.after_of_ends (P := fun j => Linked registry (added history) j.state) ?_
  rw [Call.run, ends_bind]
  exact (ends_link (sound_after registry notes history)).mono (fun _ _ h => h.2)
    fun _ _ => False.elim

/-- **What a query finds only depends on the sets that were added.**  It is what the list of these sets
says; and a query for one name goes by an index that agrees with the instances in order. -/
theorem find_after (registry : Registry) (notes : Array Note) (history : List Call) (type : String)
    (name : Option String) (matcher : Matcher) :
    Ends (fun ids j' => ∃ objects,
        ObjectSet.answer (added history) type name matcher = .ok objects ∧
          ids.map j'.state.content = objects.map some)
      (fun e _ => ObjectSet.answer (added history) type name matcher = .error e)
      (find type name matcher (after registry notes history)) ∧
    ∀ t b, (after registry notes history).state.cache.lookup t = some b → ∀ text,
      b.select (some (.exact text)) = b.instances.filter fun id =>
        ((after registry notes history).state.content id).any (·.fingerprint.name == text) := by
  have hsound := sound_after registry notes history
  constructor
  · exact (ends_find hsound type name matcher).mono (fun _ _ h => h.2.2) fun _ _ h => h.2
  · intro t b hb text
    have hholds := hsound.holds t b hb
    rw [hholds.select_eq, Bucket.instances, List.filter_map]
    congr 1
    refine List.filter_congr fun m hm => ?_
    obtain ⟨o, -, hcontent, hfingerprint⟩ := hholds.content_eq hm
    rw [Function.comp_apply, hcontent, hfingerprint]
    exact BEq.comm

/-- **What linking reports only depends on the sets that were added.**  Linking a second time reports
the same and changes nothing, so every slot leads to the instance that it led to before. -/
theorem link_after (registry : Registry) (notes : Array Note) (history : List Call) :
    (ObjectSet.linkReport registry (added history)).Describes registry
        (ObjectSet.contents (added history)) ∧
      Ends (fun report j' => report = ObjectSet.linkReport registry (added history) ∧
          Ends (fun report' j'' => report' = report ∧ j''.state = j'.state) (fun _ _ => False)
            (link j' : EStateM.Result ε _ _))
        (fun _ _ => False) (link (after registry notes history) : EStateM.Result ε _ _) := by
  refine ⟨ObjectSet.describes_linkReport registry (added history), ?_⟩
  refine (ends_link (sound_after registry notes history)).mono ?_ fun _ _ => id
  rintro report j' ⟨rfl, hlinked⟩
  refine ⟨rfl, ?_⟩
  refine ((ends_link hlinked.sound).and (ends_link_of_linked hlinked)).mono ?_ fun _ _ h => h.1
  rintro report' j'' ⟨⟨hreport, -⟩, hstate⟩
  exact ⟨hreport, hstate⟩

end WellLog.Pool
