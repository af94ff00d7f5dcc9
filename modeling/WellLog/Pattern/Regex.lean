import WellLog.CharSet
import WellLog.Unicode.Property
/-!
# Regular expressions

A `Regex` is matched against a text from a set of positions at once: `Regex.advance` takes the
positions where a match may begin to all positions where it may end.  A set of positions is a
number whose bit `i` says that `i` is in it.

The places of the text where a set or a condition of the expression holds are found once, in
`Regex.moves`, and `Moves.advance` only works with numbers.
-/

namespace WellLog

/-- A condition on a place between characters. -/
inductive Look where
  /-- The start of the text. -/
  | textStart
  /-- The end of the text. -/
  | textEnd
  /-- The start of a line; lines end in a line feed, or in either of carriage return and line feed
  and both together. -/
  | lineStart (crlf : Bool)
  /-- The end of a line. -/
  | lineEnd (crlf : Bool)
  /-- A word begins or ends.  Words have letters of any script, or of ASCII only. -/
  | wordEdge (unicode : Bool)
  /-- No word begins or ends. -/
  | noWordEdge (unicode : Bool)
  /-- A word begins. -/
  | wordStart (unicode : Bool)
  /-- A word ends. -/
  | wordEnd (unicode : Bool)
  /-- What is before does not belong to a word. -/
  | wordStartHalf (unicode : Bool)
  /-- What is behind does not belong to a word. -/
  | wordEndHalf (unicode : Bool)
  deriving DecidableEq, Repr

namespace Look

/-- A character of a word. -/
def isWord (unicode : Bool) (c : Char) : Bool :=
  if unicode then Unicode.Property.word.mem c else c.isAlphanum || c == '_'

/-- Whether the condition holds between the character before and the character behind a place, where
there are such. -/
def holds (look : Look) (before behind : Option Char) : Bool :=
  let word (unicode : Bool) (c : Option Char) : Bool := c.any (isWord unicode)
  match look with
  | textStart => before.isNone
  | textEnd => behind.isNone
  | lineStart false => before.isNone || before == some '\n'
  | lineEnd false => behind.isNone || behind == some '\n'
  | lineStart true => before.isNone || before == some '\n'
      || (before == some '\r' && behind != some '\n')
  | lineEnd true => behind.isNone || behind == some '\r'
      || (behind == some '\n' && before != some '\r')
  | wordEdge u => word u before != word u behind
  | noWordEdge u => word u before == word u behind
  | wordStart u => !word u before && word u behind
  | wordEnd u => word u before && !word u behind
  | wordStartHalf u => !word u before
  | wordEndHalf u => !word u behind

end Look

/-- A regular expression. -/
inductive Regex where
  /-- The empty text. -/
  | empty
  /-- One character of a set. -/
  | one (s : CharSet)
  /-- A condition on the place. -/
  | look (l : Look)
  /-- One expression and then another. -/
  | seq (a b : Regex)
  /-- Either of two expressions. -/
  | alt (a b : Regex)
  /-- An expression at least so many times, and at most so many times if there is a limit.  It does
  not matter to the places where matches end whether few turns are preferred to many. -/
  | rep (a : Regex) (least : Nat) (most : Option Nat) (few : Bool)
  /-- A group, with its number if what it matches is remembered. -/
  | group (number : Option Nat) (a : Regex)
  deriving DecidableEq, Repr

namespace Regex

/-- The set of the positions `i` below `n` with `p i`. -/
def positions (n : Nat) (p : Nat → Bool) : Nat :=
  (List.range n).foldl (fun mask i => if p i then mask ||| 1 <<< i else mask) 0

/-- The places of a text where a condition holds. -/
def lookPlaces (text : Array Char) (l : Look) : Nat :=
  positions (text.size + 1) fun i =>
    l.holds (if i = 0 then none else text[i - 1]?) text[i]?

/-- The places of a text in front of a character of a set. -/
def charPlaces (text : Array Char) (s : CharSet) : Nat :=
  positions text.size fun i => (text[i]?).any s.mem

/-- Applies `step` to a set `n` times, or until it changes nothing. -/
def repeated (step : Nat → Nat) : (n : Nat) → Nat → Nat
  | 0, from_ => from_
  | n + 1, from_ =>
    let next := step from_
    if next = from_ then from_ else repeated step n next

/-- What `step` reaches from the positions of `new` in at most `n` steps, together with `old`.  What
was there before is not tried again. -/
def spread (step : Nat → Nat) : (n : Nat) → (old new : Nat) → Nat
  | 0, old, new => old ||| new
  | n + 1, old, new =>
    if new = 0 then old
    else
      let all := old ||| new
      let next := step new
      spread step n all (next ^^^ (next &&& all))

end Regex

/-- How an expression takes positions of one text to others. -/
inductive Moves where
  /-- All positions stay. -/
  | stay
  /-- Positions in some places go one further, and the others are lost. -/
  | forward (places : Nat)
  /-- Positions in some places stay, and the others are lost. -/
  | only (places : Nat)
  /-- One after the other. -/
  | seq (a b : Moves)
  /-- Both ways. -/
  | alt (a b : Moves)
  /-- So many times or more, and at most so many times if there is a limit. -/
  | rep (a : Moves) (least : Nat) (most : Option Nat)
  deriving DecidableEq, Repr

/-- Where some positions are taken to, in a text with `count` positions. -/
def Moves.advance (count : Nat) : Moves → Nat → Nat
  | stay, from_ => from_
  | forward places, from_ => (from_ &&& places) * 2
  | only places, from_ => from_ &&& places
  | seq a b, from_ => b.advance count (a.advance count from_)
  | alt a b, from_ => a.advance count from_ ||| b.advance count from_
  | rep a least most, from_ =>
    let started := Regex.repeated (a.advance count) least from_
    let more := match most with
      | some most => min (most - least) count
      | none => count
    Regex.spread (a.advance count) more 0 started

namespace Regex

/-- How an expression takes positions of a text to others. -/
def moves (text : Array Char) : Regex → Moves
  | empty => .stay
  | one s => .forward (charPlaces text s)
  | look l => .only (lookPlaces text l)
  | seq a b => .seq (a.moves text) (b.moves text)
  | alt a b => .alt (a.moves text) (b.moves text)
  | rep a least most _ => .rep (a.moves text) least most
  | group _ a => a.moves text

/-- Where matches end that begin at one of the positions `from_`. -/
def advance (text : Array Char) (r : Regex) (from_ : Nat) : Nat :=
  (r.moves text).advance (text.size + 1) from_

/-- Whether a match begins anywhere in a text. -/
def isMatch (r : Regex) (text : String) : Bool :=
  let text := text.toList.toArray
  r.advance text (1 <<< (text.size + 1) - 1) != 0

end Regex

end WellLog
