import WellLog.Pattern.Regex
/-!
# Simplified expressions

An expression is simplified before an automaton is made of it: sequences and choices are made flat,
choices between single characters or between sets become one set, what all branches of a choice
begin with is taken out of it, and repetitions of what is always empty are made short.  Groups that
remember nothing leave no trace.

A simplified sequence is kept as the list of its parts, none of which is a sequence or empty.
-/

namespace WellLog

namespace Regex

/-- The parts of a sequence. -/
def parts : Regex → List Regex
  | empty => []
  | seq a b => parts a ++ parts b
  | r => [r]

/-- The sequence of some parts. -/
def sequence : List Regex → Regex
  | [] => empty
  | [r] => r
  | r :: rs => seq r (sequence rs)

/-- The branches of a choice. -/
def alternatives : Regex → List Regex
  | alt a b => alternatives a ++ alternatives b
  | r => [r]

/-- A choice between some branches. -/
def oneOf : List Regex → Regex
  | [] => one .none
  | [r] => r
  | r :: rs => alt r (oneOf rs)

/-- Whether all matches are empty. -/
def isZeroWidth : Regex → Bool
  | empty => true
  | one _ => false
  | look _ => true
  | seq a b => a.isZeroWidth && b.isZeroWidth
  | alt a b => a.isZeroWidth && b.isZeroWidth
  | rep a _ most _ => most.isSome && a.isZeroWidth
  | group _ a => a.isZeroWidth

/-- One certain character. -/
def isChar : Regex → Bool
  | one s => s.single?.isSome
  | _ => false

/-! ### Repetitions -/

/-- The parts of a repetition. -/
def repetition (parts : List Regex) (least : Nat) (most : Option Nat) (few : Bool) : List Regex :=
  let body := sequence parts
  let (least, most) :=
    if body.isZeroWidth then (min least 1, some (min (most.getD 1) 1)) else (least, most)
  if most = some 0 then []
  else if least = 1 ∧ most = some 1 then parts
  else [rep body least most few]

/-! ### Choices -/

/-- The set of a branch that is a set of characters, and whether it is one certain character. -/
def set? : List Regex → Option (CharSet × Bool)
  | [one s] => some (s, s.single?.isSome)
  | _ => none

/-- The branches, with those of a choice in place of the choice. -/
def flatten (branches : List (List Regex)) : List (List Regex) :=
  branches.flatMap fun branch =>
    match branch with
    | [r] => (alternatives r).map parts
    | parts => [parts]

/-- The parts of a choice between branches.  Certain characters make one set, and sets make one set,
but not both of them. -/
def choose (branches : List (List Regex)) : List Regex :=
  match flatten branches with
  | [branch] => branch
  | branches =>
    let sets := branches.filterMap set?
    if sets.length = branches.length && (sets.all (·.2) || sets.all (!·.2)) then
      [one (.unions (sets.map (·.1)))]
    else [oneOf (branches.map sequence)]

/-- The parts of a sequence, with characters side by side together. -/
def elements (parts : List Regex) : List (List Regex) :=
  parts.splitBy fun a b => a.isChar && b.isChar

/-- What two lists begin with. -/
def shared : List (List Regex) → List (List Regex) → List (List Regex)
  | a :: as, b :: bs => if a = b then a :: shared as bs else []
  | _, _ => []

/-- The parts of a choice between branches.  If each of them is a sequence of several elements,
those at the front that all have in common stand in front of the choice. -/
def choice (branches : List (List Regex)) : List Regex :=
  let branches := flatten branches
  match branches.map elements with
  | first :: second :: others =>
    if (first :: second :: others).all (2 ≤ ·.length) then
      let front := (second :: others).foldl shared first
      if front.isEmpty then choose branches
      else front.flatten ++
        choose ((first :: second :: others).map fun e => (e.drop front.length).flatten)
    else choose branches
  | _ => choose branches

/-! ### Expressions -/

/-- The branches of an expression, simplified; all but choices have just one. -/
def branches : Regex → List (List Regex)
  | empty => [[]]
  | one s => [[one s]]
  | look l => [[look l]]
  | seq a b => [choice (branches a) ++ choice (branches b)]
  | alt a b => branches a ++ branches b
  | rep a least most few => [repetition (choice (branches a)) least most few]
  | group none a => [choice (branches a)]
  | group (some number) a => [[group number (sequence (choice (branches a)))]]

/-- A simpler expression with the same matches. -/
def simplify (r : Regex) : Regex := sequence (choice (branches r))

end Regex

end WellLog
