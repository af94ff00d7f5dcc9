import WellLog.Pattern.Reading
import WellLog.Unicode.Case
import WellLog.Unicode.Query
/-!
# Character sets by name

Character sets that have a name in a pattern: the one-letter classes behind a backslash, the Unicode
properties behind `\p`, and the classes between `[:` and `:]`.

A set gets its final form where it is read: up to case, if the switches say so, and then as the
complement, if it is negated.
-/

namespace WellLog

namespace Pattern

namespace Read

/-- A set up to case, if the switches say so. -/
def cased (s : Switches) (set : CharSet) : CharSet :=
  if s.caseless then (if s.unicode then .caseless set else .caselessAscii set) else set

/-- A character up to case, if the switches say so. -/
def casedChar (s : Switches) (c : Char) : CharSet :=
  if s.caseless then
    .ofCodes (if s.unicode then Unicode.caseOrbit c else [c.toNat, (Unicode.otherCase c).toNat])
  else .single c

/-- A set up to case, and then its complement if `negated`.  Without all scripts there are no
complements, because they would hold pieces of characters. -/
def finish (negated : Bool) (set : CharSet) : Read CharSet := do
  let s ← switches
  if !negated then return cased s set
  else if s.unicode then return .compl (cased s set)
  else failure

/-- What `\d`, `\s` or `\w` stands for. -/
def letterSet (letter : Char) : Read CharSet := do
  let s ← switches
  let set : CharSet :=
    if s.unicode then
      if letter == 'd' then Unicode.Property.digit
      else if letter == 's' then Unicode.Property.blank
      else Unicode.Property.word
    else if letter == 'd' then .range '0' '9'
    else if letter == 's' then .union (.range '\t' '\r') (.single ' ')
    else .ofRanges [('0', '9'), ('A', 'Z'), ('_', '_'), ('a', 'z')]
  return set

/-- The set of a one-letter class; capitals are the complements. -/
def letterClass (letter : Char) : Read CharSet := do
  let set ← letterSet (Char.toLower letter)
  if letter.isLower then return set
  else if (← switches).unicode then return .compl set
  else failure

/-- Where the text holds `mark`, the parts before and behind. -/
def splitAtMark (mark : List Char) : List Char → Option (List Char × List Char)
  | [] => none
  | c :: rest =>
    if mark.isPrefixOf (c :: rest) then some ([], (c :: rest).drop mark.length)
    else (splitAtMark mark rest).map fun p => (c :: p.1, p.2)

/-- The set that a class names, alone or as the value of a property, and whether it is the value
that the characters must not have. -/
def namedSet (name : List Char) : Read (CharSet × Bool) := do
  let (set, unequal) :=
    match splitAtMark ['!', '='] name with
    | some (property, value) => (Unicode.valued? property value, true)
    | none =>
      match (splitAtMark [':'] name).or (splitAtMark ['='] name) with
      | some (property, value) => (Unicode.valued? property value, false)
      | none => (Unicode.named? name, false)
  match set with
  | some set => return (set, unequal)
  | none => failure

/-- A Unicode class behind `\p` or `\P`. -/
def unicodeClass (negated : Bool) : Read CharSet := do
  skipIgnored
  let name ← match ← rest with
    | '{' :: more =>
      continueBehind more
      braced (more.length + 1)
    | '\\' :: _ => failure
    | c :: more =>
      continueBehind more
      pure [c]
    | [] => failure
  let (set, unequal) ← namedSet name
  if (← switches).unicode then finish (negated != unequal) set else failure

/-- The sets of a class by name, as written between `[:` and `:]`. -/
def asciiSet? (name : List Char) : Option CharSet :=
  match String.ofList name with
  | "alnum" => some (.ofRanges [('0', '9'), ('A', 'Z'), ('a', 'z')])
  | "alpha" => some (.ofRanges [('A', 'Z'), ('a', 'z')])
  | "ascii" => some (.range '\x00' '\x7F')
  | "blank" => some (.ofRanges [('\t', '\t'), (' ', ' ')])
  | "cntrl" => some (.ofRanges [('\x00', '\x1F'), ('\x7F', '\x7F')])
  | "digit" => some (.range '0' '9')
  | "graph" => some (.range '!' '~')
  | "lower" => some (.range 'a' 'z')
  | "print" => some (.range ' ' '~')
  | "punct" => some (.ofRanges [('!', '/'), (':', '@'), ('[', '\x60'), ('\x7B', '~')])
  | "space" => some (.ofRanges [('\t', '\r'), (' ', ' ')])
  | "upper" => some (.range 'A' 'Z')
  | "word" => some (.ofRanges [('0', '9'), ('A', 'Z'), ('_', '_'), ('a', 'z')])
  | "xdigit" => some (.ofRanges [('0', '9'), ('A', 'F'), ('a', 'f')])
  | _ => none

/-- A class by name at the front of a text that began with `[`: whether it is negated, its set, and
the text behind it. -/
def namedClass? : List Char → Option (Bool × CharSet × List Char)
  | ':' :: rest =>
    let (negated, rest) := match rest with
      | '^' :: more => (true, more)
      | _ => (false, rest)
    let name := rest.takeWhile (· != ':')
    match rest.drop name.length with
    | ':' :: ']' :: more => (asciiSet? name).map fun set => (negated, set, more)
    | _ => none
  | _ => none

end Read

end Pattern

end WellLog
