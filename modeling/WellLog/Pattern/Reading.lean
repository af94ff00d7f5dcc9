import WellLog.Pattern.Regex
import WellLog.Text.Blank
/-!
# Reading the text of a pattern

The text of a pattern is read from left to right.  Letters such as `i` between `(?` and `)` switch
how the rest of the group is read, so the reader keeps the `Switches` in force.

This module holds the steps that read single characters and numbers.
-/

namespace WellLog

namespace Pattern

/-- How a pattern is read. -/
structure Switches where
  /-- Characters match in either case (`i`). -/
  caseless : Bool
  /-- `^` and `$` match at every line (`m`). -/
  multiLine : Bool
  /-- `.` matches a line feed too (`s`). -/
  dotAll : Bool
  /-- Characters are those of all scripts (`u`). -/
  unicode : Bool
  /-- A carriage return ends a line too (`R`). -/
  crlf : Bool
  /-- White space and comments are left out (`x`). -/
  verbose : Bool
  /-- Repetitions prefer few turns, unless a question mark follows them (`U`). -/
  few : Bool
  deriving DecidableEq, Repr

/-- The place of the reader. -/
structure Reading where
  /-- The switches in force. -/
  switches : Switches
  /-- The names of groups so far. -/
  names : List (List Char)
  /-- The number of groups so far that remember what they match. -/
  groups : Nat
  /-- The text that is left. -/
  rest : List Char
  deriving DecidableEq, Repr

/-- A step of reading, or nothing where the text is no pattern. -/
abbrev Read := StateT Reading Option

namespace Read

/-- Passes over white space and comments. -/
def dropIgnored : (inComment : Bool) → List Char → List Char
  | _, [] => []
  | true, c :: rest => dropIgnored (c != '\n') rest
  | false, c :: rest =>
    if Text.isBlank c then dropIgnored false rest
    else if c == '#' then dropIgnored true rest
    else c :: rest

/-- Passes over what the switches say to leave out. -/
def skipIgnored : Read Unit :=
  modify fun s => if s.switches.verbose then { s with rest := dropIgnored false s.rest } else s

/-- The text that is left. -/
def rest : Read (List Char) := return (← get).rest

/-- Goes on with another text. -/
def continueWith (rest : List Char) : Read Unit := modify ({ · with rest })

/-- Goes on behind a character, and behind what is left out there. -/
def continueBehind (rest : List Char) : Read Unit := do
  continueWith rest
  skipIgnored

/-- The next character, which has to be there; it stays. -/
def peek : Read Char := do
  match ← rest with
  | c :: _ => return c
  | [] => failure

/-- The switches in force. -/
def switches : Read Switches := return (← get).switches

/-! ### Numbers -/

/-- The digits at the front of the text. -/
def digits : (most : Nat) → Read (List Char)
  | 0 => return []
  | most + 1 => do
    match ← rest with
    | c :: more =>
      if c.isDigit then
        continueBehind more
        return c :: (← digits most)
      else return []
    | [] => return []

/-- Passes over white space. -/
def skipBlanks : Read Unit := modify fun s => { s with rest := s.rest.dropWhile Text.isBlank }

/-- A decimal number below `2 ^ 32`, or nothing if there are no digits.  There may be white space on
both sides. -/
def decimal : Read (Option Nat) := do
  skipBlanks
  let ds ← digits (← rest).length
  skipBlanks
  skipIgnored
  if ds.isEmpty then return none
  else
    let n := ds.foldl (fun n c => n * 10 + (c.toNat - 48)) 0
    if n < UInt32.size then return some n else failure

/-- The value of a hexadecimal digit. -/
def hexValue? (c : Char) : Option Nat :=
  if '0' ≤ c && c ≤ '9' then some (c.toNat - 48)
  else if 'a' ≤ c && c ≤ 'f' then some (c.toNat - 87)
  else if 'A' ≤ c && c ≤ 'F' then some (c.toNat - 55)
  else none

/-- The character with a code point. -/
def char (n : Nat) : Read Char := if Nat.isValidChar n then return Char.ofNat n else failure

/-- Exactly `n` hexadecimal digits. -/
def fixedHex : (n value : Nat) → Read Nat
  | 0, value => return value
  | n + 1, value => do
    match ← rest with
    | c :: more =>
      match hexValue? c with
      | some d =>
        continueBehind more
        fixedHex n (value * 16 + d)
      | none => failure
    | [] => failure

/-- Hexadecimal digits up to a closing brace, which is passed too. -/
def bracedHex : (most : Nat) → (value : Option Nat) → Read Nat
  | 0, _ => failure
  | most + 1, value => do
    match ← rest with
    | '}' :: more =>
      continueBehind more
      match value with
      | some n => return n
      | none => failure
    | c :: more =>
      match hexValue? c with
      | some d =>
        continueBehind more
        bracedHex most (some (value.getD 0 * 16 + d))
      | none => failure
    | [] => failure

/-- The characters up to a closing brace, which is passed too. -/
def braced : (most : Nat) → Read (List Char)
  | 0 => failure
  | most + 1 => do
    match ← rest with
    | '}' :: more =>
      continueWith more
      return []
    | c :: more =>
      continueBehind more
      return c :: (← braced most)
    | [] => failure

end Read

end Pattern

end WellLog
