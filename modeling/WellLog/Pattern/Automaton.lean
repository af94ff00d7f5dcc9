import Std.Data.HashMap
import WellLog.CharSet.Bytes
import WellLog.Pattern.Simplify
/-!
# The size of an automaton

An automaton that reads bytes can find the matches of an expression, forward from where they begin
or backward from where they end.  A counted repetition has as many copies of its body as it counts,
so that a short pattern may stand for a very large automaton.  `Regex.isCompilable` says whether
both automata stay within the limit.

Only the size matters here, so nothing is kept but the number of states and the bytes of the lists
that they own.  The number that a state gets decides whether a later state can be shared, since the
tables of states that are shared are addressed by a hash of these numbers.
-/

namespace WellLog

/-- What an automaton has so far. -/
structure Automaton where
  /-- The number of states. -/
  states : Nat
  /-- The bytes of the lists that states own. -/
  listed : Nat
  deriving DecidableEq, Repr

namespace Automaton

/-- The bytes of an automaton. -/
def size (a : Automaton) : Nat := 32 * a.states + a.listed

/-- How large an automaton may become. -/
def limit : Nat := 10 * 1024 * 1024

/-- A step of making an automaton, or nothing where it becomes too large. -/
abbrev Build := StateT Automaton Option

/-- Whether the last state of a part has a list of ways to go on. -/
inductive End where
  /-- It goes on in one way. -/
  | plain
  /-- It has a list of ways. -/
  | choice
  deriving DecidableEq, Repr

/-- Goes on with a larger automaton. -/
def enlarge (a : Automaton) : Build Unit := if a.size ≤ limit then set a else failure

/-- A new state that owns a list of so many bytes.  The answer is its number. -/
def addState (listed : Nat) : Build Nat := do
  let a ← get
  enlarge ⟨a.states + 1, a.listed + listed⟩
  return a.states

/-- Ways to go on from a state with a list of them. -/
def addWays (count : Nat) : Build Unit := do
  let a ← get
  enlarge { a with listed := a.listed + 4 * count }

/-- Goes on from the last state of a part. -/
def connect : End → Build Unit
  | .plain => return ()
  | .choice => addWays 1

/-! ### Sets of characters -/

/-- The states that can be shared, by place in a table: what is true of the state, and its
number. -/
abbrev Known := Std.HashMap Nat (List Nat × Nat)

/-- The place in a table with so many places: numbers mixed into 64 bits, one after the other. -/
def place (key : List Nat) (places : UInt64) : Nat :=
  let mixed := key.foldl (fun h n => (h ^^^ n.toUInt64) * 1099511628211) 14695981039346656037
  (mixed % places).toNat

/-- A state that is shared if the table knows it.  A state takes the place of the one that was there
before. -/
def share (places : UInt64) (key : List Nat) (listed : Nat) : StateT Known Build Nat := do
  let at_ := place key places
  let fresh : StateT Known Build Nat := do
    let state ← addState listed
    modify (·.insert at_ (key, state))
    return state
  match (← get)[at_]? with
  | some (known, state) => if known = key then return state else fresh
  | none => fresh

/-- A state to which byte ranges are still added. -/
structure Open where
  /-- The ranges with the states that they lead to: first byte, last byte and state of each. -/
  arcs : List Nat
  /-- The last range, while it is not known where it leads to. -/
  last : Option ByteRange
  deriving DecidableEq, Repr

/-- The arcs of a state when its last range leads to a state. -/
def Open.close (o : Open) (target : Nat) : List Nat :=
  match o.last with
  | some range => o.arcs ++ [range.first, range.last, target]
  | none => o.arcs

/-- A state with one range. -/
def Open.start (range : ByteRange) : Open := ⟨[], some range⟩

/-- Closes a chain of open states, each of which leads to the next and the last to `target`.  The
answer is the first of them. -/
def closeAll (target : Nat) : List Open → StateT Known Build Nat
  | [] => return target
  | o :: above => do
    let arcs := o.close (← closeAll target above)
    share 10000 arcs (8 * (arcs.length / 3))

/-- Adds a sequence to the chain of states that are open; it shares the front of the sequence
before. -/
def addSequence (target : Nat) : List Open → List ByteRange → StateT Known Build (List Open)
  | o :: above, range :: ranges => do
    if o.last = some range then return o :: (← addSequence target above ranges)
    else
      let arcs := o.close (← closeAll target above)
      return ⟨arcs, some range⟩ :: ranges.map .start
  | _, ranges => return ranges.map .start

/-- The states of a set that is read forward: sequences share their ends, and their beginnings. -/
def forwardSet (s : CharSet) : Build End := do
  let target ← addState 0
  let all : StateT Known Build Nat := do
    closeAll target (← s.sequences.foldlM (addSequence target) [⟨[], none⟩])
  let _ ← all.run' {}
  return .plain

/-- The states of a sequence that is read backward, from the state that it leads to on; sequences
share the states that they end with. -/
def backwardSequence (target : Nat) : List ByteRange → StateT Known Build Unit
  | [] => return ()
  | range :: ranges => do
    let state ← share 1000 [target, range.first, range.last] 0
    backwardSequence state ranges

/-- The states of a set that is read backward. -/
def backwardSet (s : CharSet) : Build End := do
  let _ ← addState 0
  let target ← addState 0
  let all : StateT Known Build Unit :=
    s.sequences.forM fun ranges => do
      backwardSequence target ranges
      addWays 1
  all.run' {}
  return .plain

/-- The states of a set.  One character has a state for each of its bytes, and a set of ASCII
characters has one state. -/
def set (backward : Bool) (s : CharSet) : Build End := do
  match s.single? with
  | some c =>
    (CharSet.bytes c.toNat).forM fun _ => discard (addState 0)
    return .plain
  | none =>
    if s.isAscii then
      let _ ← addState 0
      let _ ← addState (8 * s.ranges.length)
      return .plain
    else if backward then backwardSet s
    else forwardSet s

/-! ### Repetitions -/

/-- Copies of a part behind a part with a given end. -/
def copies (part : Build End) : (n : Nat) → End → Automaton → Option (End × Automaton)
  | 0, before, a => some (before, a)
  | n + 1, before, a =>
    match part a with
    | some (behind, a) =>
      match connect before a with
      | some (_, a) => copies part n behind a
      | none => none
    | none => none

/-- Exactly `n` copies of a part. -/
def exactly (part : Build End) : (n : Nat) → Build End
  | 0 => do
    let _ ← addState 0
    return .plain
  | n + 1 => do
    let first ← part
    copies part n first

/-- A part that may be left out. -/
def optional (part : Build End) : Build End := do
  let _ ← addState 0
  let last ← part
  let _ ← addState 0
  addWays 2
  connect last
  return .plain

/-- A part any number of times.  If it may be empty, two choices keep the order of preference. -/
def anyNumber (part : Build End) (nonempty : Bool) : Build End := do
  if nonempty then
    let _ ← addState 0
    let last ← part
    addWays 1
    connect last
    return .choice
  else
    let last ← part
    let _ ← addState 0
    connect last
    let _ ← addState 0
    let _ ← addState 0
    addWays 4
    return .plain

/-- A part once or more often. -/
def atLeastOnce (part : Build End) : Build End := do
  let last ← part
  let _ ← addState 0
  connect last
  addWays 1
  return .choice

/-- A part at least so many times. -/
def atLeast (part : Build End) (nonempty : Bool) : (least : Nat) → Build End
  | 0 => anyNumber part nonempty
  | 1 => atLeastOnce part
  | n + 2 => do
    let first ← exactly part (n + 1)
    let last ← atLeastOnce part
    connect first
    return last

/-- A part at least so many times and at most so many times. -/
def between (part : Build End) (least most : Nat) : Build End := do
  let first ← exactly part least
  let _ ← addState 0
  let turn : Build End := do
    let _ ← addState 0
    let last ← part
    addWays 2
    return last
  connect (← copies turn (most - least) first)
  return .plain

/-- A part repeated. -/
def repeated (part : Build End) (nonempty : Bool) (least : Nat) : (most : Option Nat) → Build End
  | none => atLeast part nonempty least
  | some most =>
    if least = 0 ∧ most = 1 then optional part
    else if least = most then exactly part least
    else between part least most

/-! ### Choices -/

/-- A choice between parts. -/
def chosen : List (Build End) → Build End
  | first :: second :: others => do
    let a ← first
    let b ← second
    let _ ← addState 0
    let _ ← addState 0
    addWays 2
    connect a
    connect b
    others.forM fun part => do
      connect (← part)
      addWays 1
    return .plain
  | [part] => part
  | [] => exactly (return .plain) 0

/-- The words of a tree of words, which are sorted by their first bytes.  A word that ends begins a
new level, so that earlier words stay in front; the last level is last. -/
def levels (words : List (List Nat)) : List (List (Nat × List (List Nat))) :=
  let done := words.foldl step ([], [])
  (done.2 :: done.1).reverse
where
  /-- A word with what it goes on with. -/
  insert (byte : Nat) (rest : List Nat) :
      List (Nat × List (List Nat)) → List (Nat × List (List Nat))
    | [] => [(byte, [rest])]
    | (b, rests) :: level =>
      if b = byte then (b, rests ++ [rest]) :: level else (b, rests) :: insert byte rest level
  /-- One more word. -/
  step : List (List (Nat × List (List Nat))) × List (Nat × List (List Nat)) → List Nat →
      List (List (Nat × List (List Nat))) × List (Nat × List (List Nat))
    | (done, level), [] =>
      if level.isEmpty && !done.isEmpty && done.all (·.isEmpty) then (done, level)
      else (level :: done, [])
    | (done, level), byte :: rest => (done, insert byte rest level)

/-- The states of a tree of words none of which is longer than `most`. -/
def tree : (most : Nat) → (words : List (List Nat)) → Build Unit
  | 0, _ => return ()
  | most + 1, words => do
    let levels := levels words
    let full := levels.filter (!·.isEmpty)
    full.forM fun level => do
      level.forM fun (_, rests) => if rests.all (·.isEmpty) then return () else tree most rests
      let _ ← addState (if level.length = 1 then 0 else 8 * level.length)
    let _ ← addState (4 * (full.length + levels.length - 1))

/-- The bytes of an expression that is nothing but certain characters. -/
def word? : List Regex → Option (List Nat)
  | [] => some []
  | .one s :: parts => do
    let c ← s.single?
    return CharSet.bytes c.toNat ++ (← word? parts)
  | _ => none

/-- The words that a choice is between, if it is one between words. -/
def words? (r : Regex) : Option (List (List Nat)) :=
  match r.alternatives with
  | [] | [_] => none
  | branches => do
    let words ← branches.mapM fun branch => word? branch.parts
    if words.any (·.isEmpty) then none else return words

/-- The branches of an expression together. -/
def assembled (backward : Bool) (r : Regex) (branches : List (Build End)) : Build End :=
  match words? r with
  | some words => do
    let _ ← addState 0
    tree ((words.map (·.length)).foldl max 0)
      (if backward then words.map (·.reverse) else words)
    return .plain
  | none => chosen branches

end Automaton

namespace Regex

open Automaton

/-! ### Whole expressions -/

/-- The least number of characters of a match, if there can be one. -/
def shortest? : Regex → Option Nat
  | empty => some 0
  | one s => if s = .none then none else some 1
  | look _ => some 0
  | seq a b => do return (← a.shortest?) + (← b.shortest?)
  | alt a b => do return min (← a.shortest?) (← b.shortest?)
  | rep a least _ _ => a.shortest?.map (· * least)
  | group _ a => a.shortest?

/-- Whether matches are known to begin with a condition. -/
def beginsWith (l : Look) : Regex → Bool
  | empty => false
  | one _ => false
  | look m => m = l
  | seq a b => a.beginsWith l || (a.isZeroWidth && b.beginsWith l)
  | alt a b => a.beginsWith l && b.beginsWith l
  | rep a least _ _ => 0 < least && a.beginsWith l
  | group _ a => a.beginsWith l

/-- Whether matches are known to end with a condition. -/
def endsWith (l : Look) : Regex → Bool
  | empty => false
  | one _ => false
  | look m => m = l
  | seq a b => b.endsWith l || (b.isZeroWidth && a.endsWith l)
  | alt a b => a.endsWith l && b.endsWith l
  | rep a least _ _ => 0 < least && a.endsWith l
  | group _ a => a.endsWith l

/-- How the branches of a simplified expression are made; all but choices have just one.  What
groups match is remembered forward only. -/
def builds (backward : Bool) : Regex → List (Build End)
  | empty => [exactly (return .plain) 0]
  | one s => [Automaton.set backward s]
  | look _ => [exactly (return .plain) 0]
  | seq a b =>
    let a := assembled backward a (a.builds backward)
    let b := assembled backward b (b.builds backward)
    [if backward then followed b a else followed a b]
  | alt a b => a.builds backward ++ b.builds backward
  | rep a least most _ =>
    let nonempty := a.shortest?.getD 0 != 0
    [Automaton.repeated (assembled backward a (a.builds backward)) nonempty least most]
  | group _ a =>
    let body := assembled backward a (a.builds backward)
    [if backward then body else remembered body]
where
  /-- One part and then another. -/
  followed (first second : Build End) : Build End := do
    let before ← first
    let behind ← second
    connect before
    return behind
  /-- A part between two states that remember the places. -/
  remembered (part : Build End) : Build End := do
    let _ ← addState 0
    let last ← part
    let _ ← addState 0
    connect last
    return .plain

/-- The whole automaton of a simplified expression.  Unless matches can only begin at one place, it
has a loop in front that passes over any bytes. -/
def build (backward : Bool) (r : Regex) : Build Unit := do
  let fixed := if backward then r.endsWith .textEnd else r.beginsWith .textStart
  let front ←
    if fixed then exactly (return .plain) 0
    else do
      let _ ← addState 0
      let _ ← addState 0
      let _ ← addState 8
      addWays 1
      pure .choice
  let body := assembled backward r (r.builds backward)
  let last ← if backward then body else builds.remembered body
  let _ ← addState 0
  connect last
  connect front

/-- Whether the automata of an expression stay within the limit, forward and backward. -/
def isCompilable (r : Regex) : Bool :=
  let r := r.simplify
  ((r.build false).run ⟨0, 0⟩).isSome && ((r.build true).run ⟨0, 0⟩).isSome

end Regex

end WellLog
