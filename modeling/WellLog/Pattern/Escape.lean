import WellLog.Pattern.Named
/-!
# Escapes

What a backslash and the characters behind it stand for: a character, a character set or a condition
on the place.
-/

namespace WellLog

namespace Pattern

namespace Read

/-- What an escape or a single character stands for. -/
inductive Atom where
  /-- A character; `byte` if it was written as two hexadecimal digits. -/
  | literal (c : Char) (byte : Bool)
  /-- A set in its final form. -/
  | set (s : CharSet)
  /-- A condition on the place. -/
  | look (l : Look)
  deriving DecidableEq, Repr

/-- The word conditions that are written in braces. -/
def wordLook? (name : List Char) (unicode : Bool) : Option Look :=
  match String.ofList name with
  | "start" => some (.wordStart unicode)
  | "end" => some (.wordEnd unicode)
  | "start-half" => some (.wordStartHalf unicode)
  | "end-half" => some (.wordEndHalf unicode)
  | _ => none

/-- Letters and hyphens at the front of the text. -/
def wordLookName : (most : Nat) → Read (List Char)
  | 0 => return []
  | most + 1 => do
    match ← rest with
    | c :: more =>
      if c.isAlpha || c == '-' then
        continueBehind more
        return c :: (← wordLookName most)
      else return []
    | [] => return []

/-- The condition behind `\b`, which may be followed by a name in braces.  Anything else in braces
is left for a repetition. -/
def wordEdge (unicode : Bool) : Read Look := do
  match ← rest with
  | '{' :: more =>
    let before ← get
    continueBehind more
    let c ← peek
    if c.isAlpha || c == '-' then
      let name ← wordLookName more.length
      match ← rest with
      | '}' :: more =>
        continueWith more
        match wordLook? name unicode with
        | some l => return l
        | none => failure
      | _ => failure
    else
      set before
      return .wordEdge unicode
  | _ => return .wordEdge unicode

/-- A character given by hexadecimal digits, two, four or eight of them or any number in braces. -/
def hexEscape (width : Nat) : Read Atom := do
  skipIgnored
  match ← rest with
  | '{' :: more =>
    continueBehind more
    return .literal (← char (← bracedHex (more.length + 1) none)) false
  | _ => return .literal (← char (← fixedHex width 0)) (width == 2)

/-- The characters that stand for themselves behind a backslash: those with a meaning of their own,
and the other marks of ASCII. -/
def isEscapable (c : Char) : Bool :=
  c.toNat < 128 && !c.isAlphanum && c != '<' && c != '>'

/-- What stands behind a backslash. -/
def escape : Read Atom := do
  let unicode := (← switches).unicode
  match ← rest with
  | [] => failure
  | c :: more =>
    continueWith more
    match c with
    | 'x' => hexEscape 2
    | 'u' => hexEscape 4
    | 'U' => hexEscape 8
    | 'p' => return .set (← unicodeClass false)
    | 'P' => return .set (← unicodeClass true)
    | 'd' | 's' | 'w' | 'D' | 'S' | 'W' => return .set (← letterClass c)
    | 'a' => return .literal '\x07' false
    | 'f' => return .literal '\x0C' false
    | 't' => return .literal '\t' false
    | 'n' => return .literal '\n' false
    | 'r' => return .literal '\r' false
    | 'v' => return .literal '\x0B' false
    | 'A' => return .look .textStart
    | 'z' => return .look .textEnd
    | 'b' => return .look (← wordEdge unicode)
    | 'B' => return .look (.noWordEdge unicode)
    | '<' => return .look (.wordStart unicode)
    | '>' => return .look (.wordEnd unicode)
    | c => if isEscapable c then return .literal c false else failure

end Read

end Pattern

end WellLog
