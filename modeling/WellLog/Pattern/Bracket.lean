import WellLog.Pattern.Escape
/-!
# Bracketed classes

A class between brackets has characters, ranges, escapes and other classes, and the operations `&&`,
`--` and `~~` on what stands at either side.
-/

namespace WellLog

namespace Pattern

namespace Read

/-- A set with the depth of its nesting. -/
structure SetPiece where
  /-- The set. -/
  set : CharSet
  /-- How deeply it nests. -/
  depth : Nat
  deriving DecidableEq, Repr

/-- An operation between sets. -/
inductive SetOp where
  /-- In both. -/
  | inter
  /-- In the first only. -/
  | diff
  /-- In one only. -/
  | symmDiff
  deriving DecidableEq, Repr

/-- The items of a class together. -/
def unionOf : List SetPiece → SetPiece
  | [] => ⟨.none, 0⟩
  | [p] => p
  | ps => ⟨.unions (ps.map (·.set)), 1 + (ps.map (·.depth)).foldl max 0⟩

/-- The operation that was begun, with the set that ends it. -/
def combine (s : Switches) : Option (SetOp × SetPiece) → SetPiece → SetPiece
  | none, p => p
  | some (op, left), right =>
    let l := cased s left.set
    let r := cased s right.set
    let set := match op with
      | .inter => CharSet.inter l r
      | .diff => .diff l r
      | .symmDiff => .symmDiff l r
    ⟨set, 1 + max left.depth right.depth⟩

/-- The same for the items of the set that ends the operation, the last first. -/
def together (s : Switches) (pending : Option (SetOp × SetPiece)) (items : List SetPiece) :
    SetPiece :=
  combine s pending (unionOf items.reverse)

/-- The set of a character in a class; without all scripts it has to be one of ASCII. -/
def literalSet (c : Char) : Read Char := do
  if (← switches).unicode || c.toNat < 128 then return c else failure

/-- What comes next in a class, outside of operations and brackets. -/
def classUnit : Read Atom := do
  match ← rest with
  | '\\' :: more =>
    continueWith more
    escape
  | c :: more =>
    continueWith more
    return .literal c false
  | [] => failure

/-- The next character behind the one at hand; in verbose patterns blanks and one comment mark are
passed over. -/
def peekBehind (verbose : Bool) (rest : List Char) : Option Char :=
  if !verbose then rest.head?
  else
    match rest.dropWhile Text.isBlank with
    | '#' :: more => (more.dropWhile Text.isBlank).head?
    | other => other.head?

/-- A character, a range of characters or a set in a class. -/
def classItem : Read SetPiece := do
  let first ← classUnit
  skipIgnored
  let verbose := (← switches).verbose
  let rest ← rest
  let alone : Read SetPiece :=
    match first with
    | .literal c _ => return ⟨.single (← literalSet c), 0⟩
    | .set s => return ⟨s, 0⟩
    | .look _ => failure
  match rest with
  | [] => failure
  | '-' :: more =>
    if peekBehind verbose more == some ']' || peekBehind verbose more == some '-' then alone
    else
      continueBehind more
      let last ← classUnit
      match first, last with
      | .literal a _, .literal b _ =>
        if a ≤ b then return ⟨.range (← literalSet a) (← literalSet b), 0⟩ else failure
      | _, _ => failure
  | _ => alone

/-- Hyphens at the front of a class. -/
def leadingHyphens : (most : Nat) → Read (List SetPiece)
  | 0 => return []
  | most + 1 => do
    match ← rest with
    | '-' :: more =>
      continueBehind more
      let _ ← peek
      return ⟨.single '-', 0⟩ :: (← leadingHyphens most)
    | _ => return []

/-- The beginning of a class behind its bracket: whether it is negated, and the hyphens or the
closing bracket that stand for themselves there. -/
def classOpening : Read (Bool × List SetPiece) := do
  skipIgnored
  let negated := (← peek) == '^'
  if negated then
    continueBehind ((← rest).drop 1)
  let _ ← peek
  let hyphens ← leadingHyphens (← rest).length
  match hyphens, ← rest with
  | [], ']' :: more =>
    continueBehind more
    let _ ← peek
    return (negated, [⟨.single ']', 0⟩])
  | _, _ => return (negated, hyphens)

/-- The rest of a class up to its closing bracket.  `pending` is an operation that was begun and
`items` what was read since, the last first. -/
def classRest : (most : Nat) → (pending : Option (SetOp × SetPiece)) → (items : List SetPiece) →
    Read SetPiece
  | 0, _, _ => failure
  | most + 1, pending, items => do
    skipIgnored
    let s ← switches
    match ← rest with
    | [] => failure
    | '[' :: more =>
      match namedClass? more with
      | some (negated, set, more) =>
        continueWith more
        classRest most pending (⟨← finish negated set, 0⟩ :: items)
      | none =>
        continueWith more
        let (negated, first) ← classOpening
        let inner ← classRest most none first
        classRest most pending (⟨← finish negated inner.set, 1 + inner.depth⟩ :: items)
    | ']' :: more =>
      continueWith more
      return together s pending items
    | '&' :: '&' :: more =>
      continueWith more
      classRest most (some (.inter, together s pending items)) []
    | '-' :: '-' :: more =>
      continueWith more
      classRest most (some (.diff, together s pending items)) []
    | '~' :: '~' :: more =>
      continueWith more
      classRest most (some (.symmDiff, together s pending items)) []
    | _ => classRest most pending ((← classItem) :: items)

/-- A class behind its bracket. -/
def bracketed : Read SetPiece := do
  let (negated, first) ← classOpening
  let inner ← classRest ((← rest).length + 1) none first
  return ⟨← finish negated inner.set, 1 + inner.depth⟩

end Read

end Pattern

end WellLog
