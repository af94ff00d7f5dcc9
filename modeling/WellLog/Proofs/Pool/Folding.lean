import WellLog.Proofs.Pattern.Literal
import WellLog.Proofs.Pool.History
/-!
# Queries by text and by pattern

A query for a type and a name compares texts as they are and goes by the index of names.  A query
by pattern looks at every object of every type.  For the pattern of a text the two differ in letter
case and in nothing else.

* `ObjectSet.entries` : the objects that count, each with the type that it is pooled under.
* `ObjectSet.answer_of_compiled` : a query filters them, whichever way it compares.
* `ObjectSet.answer_exact_eq`, `ObjectSet.answer_escapedText` : what the two queries find.
* `Pool.find_escapedText` : **what a query by text finds is a part of what the query by pattern
  finds**, which is what has the same type and name up to case.
-/

namespace WellLog

open Unicode (SameUpToCase)

namespace ObjectSet

variable {sets : List ObjectSet} {matcher : Matcher}

/-- The objects that count, each with the type that it is pooled under. -/
def entries (sets : List ObjectSet) : List (String × RawObject) :=
  (typesOf sets).flatMap fun type => (RawObject.collapse (objectsOf sets type)).map fun o => (type, o)

/-- The objects whose type and name are as asked. -/
def having (sets : List ObjectSet) (type name : String → Bool) : List RawObject :=
  ((entries sets).filter fun e => type e.1 && name e.2.fingerprint.name).map (·.2)

/-- **A query filters the objects that count.** -/
theorem answer_of_compiled {type name : String} {t n : Needle}
    (ht : matcher.compile? type = some t) (hn : matcher.compile? name = some n) :
    answer sets type (some name) matcher = .ok (having sets t.accepts n.accepts) := by
  rw [answer, Option.mapM_some, hn, ht]
  refine congrArg Except.ok ?_
  rw [having, entries, List.filter_flatMap, List.map_flatMap]
  have htype : ∀ type, (((RawObject.collapse (objectsOf sets type)).map fun o => (type, o)).filter
      fun e => t.accepts e.1 && n.accepts e.2.fingerprint.name).map (·.2) =
        if t.accepts type = true then
          (RawObject.collapse (objectsOf sets type)).filter fun o => n.accepts o.fingerprint.name
        else [] := by
    intro type
    rw [List.filter_map, List.map_map]
    by_cases haccepts : t.accepts type = true
    · simp [Function.comp_def, haccepts]
    · simp [Function.comp_def, haccepts]
  simp only [htype, Option.all_some]
  generalize typesOf sets = types
  induction types with
  | nil => rfl
  | cons type types ih =>
    by_cases haccepts : t.accepts type = true
    · simp [haccepts, ih]
    · simp [haccepts, ih]

/-- A query text that is no pattern is refused. -/
theorem answer_of_not_compiled {type name : String}
    (h : matcher.compile? type = none ∨ matcher.compile? name = none) :
    answer sets type (some name) matcher = .error .badPattern := by
  rw [answer, Option.mapM_some]
  obtain h | h := h
  · rw [h]
    cases matcher.compile? name <;> rfl
  · rw [h]
    rfl

theorem having_congr {type type' name name' : String → Bool}
    (h : ∀ e ∈ entries sets, type e.1 = type' e.1 ∧
      name e.2.fingerprint.name = name' e.2.fingerprint.name) :
    having sets type name = having sets type' name' := by
  refine congrArg (List.map Prod.snd) (List.filter_congr fun e he => ?_)
  rw [(h e he).1, (h e he).2]

theorem having_sublist {type type' name name' : String → Bool}
    (htype : ∀ t, type t = true → type' t = true) (hname : ∀ n, name n = true → name' n = true) :
    (having sets type name).Sublist (having sets type' name') := by
  refine List.Sublist.map _ (List.monotone_filter_right _ fun e he => ?_)
  rw [Bool.and_eq_true] at he ⊢
  exact ⟨htype _ he.1, hname _ he.2⟩

/-! ### The two queries -/

/-- What has the type `t` and the name `n`. -/
def named (sets : List ObjectSet) (t n : String) : List RawObject := having sets (t == ·) (n == ·)

/-- What has the type `t` and the name `n` up to case. -/
def namedUpToCase (sets : List ObjectSet) (t n : String) : List RawObject :=
  having sets (SameUpToCase t ·) (SameUpToCase n ·)

theorem answer_exact_eq (sets : List ObjectSet) (t n : String) :
    answer sets t (some n) .exact = .ok (named sets t n) :=
  answer_of_compiled (t := .exact t) (n := .exact n) rfl rfl

/-- The patterns of two texts ask for what has them up to case, unless an automaton becomes too
large. -/
theorem answer_escapedText (sets : List ObjectSet) (t n : String) :
    answer sets (Pattern.escapedText t ++ "$") (some (Pattern.escapedText n ++ "$")) .pattern =
      if Pattern.fits t && Pattern.fits n then .ok (namedUpToCase sets t n)
      else .error .badPattern := by
  have hcompile := Pattern.Read.compile?_escapedText
  have haccepts : ∀ text, (Needle.pattern (Regex.textUpToCase text.toList).anchored).accepts =
      fun candidate => decide (SameUpToCase text candidate) := by
    intro text
    funext candidate
    rw [Bool.eq_iff_iff, decide_eq_true_eq]
    exact Pattern.Read.accepts_textUpToCase text candidate
  cases ht : Pattern.fits t with
  | false => exact answer_of_not_compiled (.inl (by rw [hcompile, ht]; rfl))
  | true =>
    cases hn : Pattern.fits n with
    | false => exact answer_of_not_compiled (.inr (by rw [hcompile, hn]; rfl))
    | true =>
      rw [answer_of_compiled ((hcompile t).trans (if_pos ht)) ((hcompile n).trans (if_pos hn)),
        haccepts, haccepts]
      rfl

theorem named_sublist (sets : List ObjectSet) (t n : String) :
    (named sets t n).Sublist (namedUpToCase sets t n) := by
  refine having_sublist (fun c hc => ?_) fun c hc => ?_
  · rw [← beq_iff_eq.1 hc]
    exact decide_eq_true (.refl t)
  · rw [← beq_iff_eq.1 hc]
    exact decide_eq_true (.refl n)

/-- Where nothing else has the type or the name up to case, letter case makes no difference. -/
theorem namedUpToCase_eq_named {t n : String} (honly : ∀ e ∈ entries sets,
    (SameUpToCase t e.1 → e.1 = t) ∧ (SameUpToCase n e.2.fingerprint.name →
      e.2.fingerprint.name = n)) : namedUpToCase sets t n = named sets t n := by
  refine having_congr fun e he => ⟨?_, ?_⟩
  · rw [Bool.eq_iff_iff, decide_eq_true_eq, beq_iff_eq]
    exact ⟨fun h => ((honly e he).1 h).symm, fun h => h ▸ .refl t⟩
  · rw [Bool.eq_iff_iff, decide_eq_true_eq, beq_iff_eq]
    exact ⟨fun h => ((honly e he).2 h).symm, fun h => h ▸ .refl n⟩

end ObjectSet

namespace Pool

/-- **Queries by text and by pattern.**  Behind every history, a query for a type and a name as they
are finds what the sets say.  The query for the patterns of these texts finds everything that has the
same type and name up to case, and so what the first query found, in the same order.  If nothing else
in the pool has one of them up to case, it finds just that.  It is only refused where an automaton
becomes too large. -/
theorem find_escapedText (registry : Registry) (notes : Array Note) (history : List Call)
    (t n : String) :
    ∃ found : List RawObject,
      Ends (fun ids j' => ids.map j'.state.content = found.map some) (fun _ _ => False)
        (find t (some n) .exact (after registry notes history)) ∧
      Ends
        (fun ids j' => ∃ matched : List RawObject, ids.map j'.state.content = matched.map some ∧
          matched = ((ObjectSet.entries (added history)).filter fun e =>
            SameUpToCase t e.1 && SameUpToCase n e.2.fingerprint.name).map (·.2) ∧
          found.Sublist matched ∧
          ((∀ e ∈ ObjectSet.entries (added history), (SameUpToCase t e.1 → e.1 = t) ∧
            (SameUpToCase n e.2.fingerprint.name → e.2.fingerprint.name = n)) → matched = found))
        (fun e _ => e = .badPattern ∧ (Pattern.fits t && Pattern.fits n) = false)
        (find (Pattern.escapedText t ++ "$") (some (Pattern.escapedText n ++ "$")) .pattern
          (after registry notes history)) := by
  have hsound := sound_after registry notes history
  have hexact := ObjectSet.answer_exact_eq (added history) t n
  have hpattern := ObjectSet.answer_escapedText (added history) t n
  refine ⟨ObjectSet.named (added history) t n, ?_, ?_⟩
  · refine (ends_find hsound t (some n) .exact).mono ?_ ?_
    · rintro ids j' ⟨-, -, objects, hobjects, hids⟩
      cases hobjects.symm.trans hexact
      exact hids
    · rintro e j' ⟨-, he⟩
      cases he.symm.trans hexact
  · refine (ends_find hsound _ _ .pattern).mono ?_ ?_
    · rintro ids j' ⟨-, -, objects, hobjects, hids⟩
      rw [hpattern] at hobjects
      split at hobjects
      · cases hobjects
        exact ⟨_, hids, rfl, ObjectSet.named_sublist _ t n, ObjectSet.namedUpToCase_eq_named⟩
      · cases hobjects
    · rintro e j' ⟨-, he⟩
      rw [hpattern] at he
      split at he
      · cases he
      · next hlarge =>
        cases he
        exact ⟨rfl, Bool.eq_false_iff.2 hlarge⟩

end Pool

end WellLog
