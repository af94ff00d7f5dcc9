import WellLog.Pattern.Reading
import WellLog.Unicode.Property
/-!
# The beginning of a group

Behind an opening parenthesis a group may have switches or a name.  Switches without a group hold
for the rest of the group that they stand in.
-/

namespace WellLog

namespace Pattern

namespace Read

/-- The switches after the letters of a group.  Each letter, and the minus sign, stands there once
at most, and no minus sign stands at the end. -/
def switchLetters : (most : Nat) → (seen : List Char) → (on : Bool) → Switches → Read Switches
  | 0, _, _, _ => failure
  | most + 1, seen, on, s => do
    match ← rest with
    | [] => failure
    | c :: more =>
      if c == ':' || c == ')' then
        if seen.head? == some '-' then failure else return s
      else if seen.contains c then failure
      else
        continueWith more
        let next ← match c with
          | '-' => pure s
          | 'i' => pure { s with caseless := on }
          | 'm' => pure { s with multiLine := on }
          | 's' => pure { s with dotAll := on }
          | 'u' => pure { s with unicode := on }
          | 'R' => pure { s with crlf := on }
          | 'x' => pure { s with verbose := on }
          | 'U' => pure { s with few := on }
          | _ => failure
        switchLetters most (c :: seen) (on && c != '-') next

/-- The alphabetic characters of edition 17 of the Unicode standard. -/
def nameLetters : CharSet :=
  .union Unicode.Property.alphabetic.set (.ofLengths (Unicode.Table.numbers later))
where
  /-- Those that edition 16 does not have. -/
  later : String := String.join [
    "88f 1 3cc 1 7f 1 9af1 2 2 1 1 1 1c 1 614e 1a 56b 3 32 2 c64 8 248 2c 50c4 19 2 19 11e 5 1",
    "801 8 509 16 61 73 58cd 1f 1 16 8 2 d03a 6 1762 c 5502 10ca"]

/-- The numbers of edition 17 of the Unicode standard. -/
def nameNumbers : CharSet :=
  .union (Unicode.Category.set [.decimalNumber, .letterNumber, .otherNumber])
    (.ofLengths (Unicode.Table.numbers "11de0 a 520a 3"))

/-- Whether a character can stand in the name of a group. -/
def isNameChar (first : Bool) (c : Char) : Bool :=
  if first then c == '_' || nameLetters.mem c
  else c == '_' || c == '.' || c == '[' || c == ']' || nameLetters.mem c || nameNumbers.mem c

/-- The name of a group up to `>`, which no other group has. -/
def groupName : Read Unit := do
  let text ← rest
  let name := text.takeWhile (· != '>')
  match name, text.drop name.length with
  | first :: others, '>' :: more =>
    if !isNameChar true first || !others.all (isNameChar false) then failure
    else if (← get).names.contains name then failure
    else modify fun s => { s with names := name :: s.names, rest := more }
  | _, _ => failure

/-- What an opening parenthesis begins. -/
inductive Opening where
  /-- Nothing but other switches for the rest of the group it stands in. -/
  | switches (s : Switches)
  /-- A group with switches of its own, and its number if what it matches is remembered. -/
  | group (number : Option Nat) (s : Switches)
  deriving DecidableEq, Repr

/-- A group that remembers what it matches. -/
def numbered (s : Switches) : Read Opening := do
  let number := (← get).groups + 1
  modify ({ · with groups := number })
  return .group (some number) s

/-- What stands behind an opening parenthesis. -/
def groupOpening : Read Opening := do
  skipIgnored
  let s ← switches
  match ← rest with
  | '?' :: 'P' :: '<' :: more =>
    continueWith more
    groupName
    numbered s
  | '?' :: '<' :: more =>
    continueWith more
    groupName
    numbered s
  | '?' :: more =>
    continueWith more
    let next ← switchLetters (more.length + 1) [] true s
    match ← rest with
    | ')' :: behind =>
      if behind.length + 1 == more.length then failure
      else
        continueWith behind
        return .switches next
    | _ :: behind =>
      continueWith behind
      return .group none next
    | [] => failure
  | _ => numbered s

end Read

end Pattern

end WellLog
