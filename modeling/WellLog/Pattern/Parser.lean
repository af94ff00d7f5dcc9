import WellLog.Pattern.Automaton
import WellLog.Pattern.Bracket
import WellLog.Pattern.Group
/-!
# Whole patterns

A pattern is a choice of sequences of single characters, classes and groups, each of which may be
repeated.

`Regex.parse?` reads a whole pattern.  Patterns that nest too deeply or grow too large are refused.
-/

namespace WellLog

namespace Pattern

namespace Read

/-- A part of a sequence: an expression with the depth of its nesting, or, with no expression, the
place where switches were set. -/
structure Piece where
  /-- The expression. -/
  regex : Option Regex
  /-- How deeply it nests. -/
  depth : Nat
  deriving DecidableEq, Repr

namespace Piece

/-- The expression of a part; switches match nothing but the empty text. -/
def body (p : Piece) : Regex := p.regex.getD .empty

/-- The depth of an expression over parts. -/
def depthOver (parts : List Piece) : Nat := 1 + (parts.map (·.depth)).foldl max 0

/-- The parts one after the other. -/
def sequence : List Piece → Piece
  | [] => ⟨none, 0⟩
  | [p] => p
  | p :: ps => ⟨some (joined p.body (ps.map body)), depthOver (p :: ps)⟩
where
  /-- Expressions one after the other. -/
  joined : Regex → List Regex → Regex
    | r, [] => r
    | r, q :: qs => .seq r (joined q qs)

/-- One of the parts. -/
def choice : List Piece → Piece
  | [] => ⟨none, 0⟩
  | [p] => p
  | p :: ps => ⟨some (ps.foldl (fun r q => .alt r q.body) p.body), depthOver (p :: ps)⟩

end Piece

/-- A single character, escape or condition outside of classes. -/
def single : Read Piece := do
  let s ← switches
  let unit ← match ← rest with
    | '\\' :: more =>
      continueWith more
      escape
    | '.' :: more =>
      continueWith more
      if !s.unicode then failure
      else if s.dotAll then pure (.set .any)
      else if s.crlf then pure (.set (.compl (.union (.single '\r') (.single '\n'))))
      else pure (.set (.compl (.single '\n')))
    | '^' :: more =>
      continueWith more
      pure (.look (if s.multiLine then .lineStart s.crlf else .textStart))
    | '$' :: more =>
      continueWith more
      pure (.look (if s.multiLine then .lineEnd s.crlf else .textEnd))
    | c :: more =>
      continueWith more
      pure (.literal c false)
    | [] => failure
  match unit with
  | .literal c byte =>
    if byte && !s.unicode && 128 ≤ c.toNat then failure
    else return ⟨some (.one (casedChar s c)), 0⟩
  | .set set => return ⟨some (.one set), 0⟩
  | .look l => return ⟨some (.look l), 0⟩

/-- Whether a repetition prefers few turns, as a question mark behind it says. -/
def fewTurns : Read Bool := do
  let few := (← switches).few
  match ← rest with
  | '?' :: more =>
    continueWith more
    return !few
  | _ => return few

/-- The bounds of a counted repetition behind its brace, up to the closing one. -/
def counts : Read (Nat × Option Nat) := do
  let _ ← peek
  let least ← decimal
  let bounds ← match ← peek with
    | ',' => do
      continueBehind ((← rest).drop 1)
      match ← peek, least with
      | '}', some least => pure (least, none)
      | _, some least =>
        match ← decimal with
        | some most => if least ≤ most then pure (least, some most) else failure
        | none => failure
      | _, none => failure
    | _ =>
      match least with
      | some n => pure (n, some n)
      | none => failure
  match ← rest with
  | '}' :: more =>
    continueBehind more
    return bounds
  | _ => failure

/-- A part repeated.  Switches and an empty place cannot be. -/
def repeated (bounds : Nat × Option Nat) : List Piece → Read (List Piece)
  | ⟨some r, depth⟩ :: others => do
    let few ← fewTurns
    return ⟨some (.rep r bounds.1 bounds.2 few), 1 + depth⟩ :: others
  | _ => failure

/-- The rest of a group or of the pattern, up to a closing parenthesis or the end.  `choices` are
the alternatives before, and `parts` what was read of this one, the last first. -/
def group : (most : Nat) → (choices parts : List Piece) → Read Piece
  | 0, _, _ => failure
  | most + 1, choices, parts => do
    skipIgnored
    match ← rest with
    | [] => return Piece.choice (choices ++ [Piece.sequence parts.reverse])
    | ')' :: _ => return Piece.choice (choices ++ [Piece.sequence parts.reverse])
    | '|' :: more =>
      continueWith more
      group most (choices ++ [Piece.sequence parts.reverse]) []
    | '(' :: more =>
      continueWith more
      match ← groupOpening with
      | .switches s =>
        modify ({ · with switches := s })
        group most choices (⟨none, 0⟩ :: parts)
      | .group number s =>
        let outer ← switches
        modify ({ · with switches := s })
        let inner ← group most [] []
        match ← rest with
        | ')' :: more =>
          modify ({ · with switches := outer, rest := more })
          group most choices (⟨some (.group number inner.body), 1 + inner.depth⟩ :: parts)
        | _ => failure
    | '[' :: more =>
      continueWith more
      let class_ ← bracketed
      group most choices (⟨some (.one class_.set), class_.depth⟩ :: parts)
    | '?' :: more =>
      continueWith more
      group most choices (← repeated (0, some 1) parts)
    | '*' :: more =>
      continueWith more
      group most choices (← repeated (0, none) parts)
    | '+' :: more =>
      continueWith more
      group most choices (← repeated (1, none) parts)
    | '{' :: more =>
      if parts.isEmpty then failure
      continueBehind more
      let bounds ← counts
      group most choices (← repeated bounds parts)
    | _ => group most choices ((← single) :: parts)

end Read

/-- How deeply a pattern may nest. -/
def depthLimit : Nat := 250

end Pattern

/-- The expression that a text writes, if it is a pattern.  Case does not matter unless the pattern
says so. -/
def Regex.parse? (text : String) : Option Regex :=
  let start : Pattern.Reading :=
    ⟨⟨true, false, false, true, false, false, false⟩, [], 0, text.toList⟩
  match Pattern.Read.group (text.length + 1) [] [] start with
  | some (piece, ⟨_, _, _, []⟩) =>
    if piece.depth ≤ Pattern.depthLimit && piece.body.isCompilable then
      some piece.body
    else none
  | _ => none

end WellLog
