/-!
# Sets of characters

A `CharSet` keeps the code points where membership changes, in order: the code points before the
first of them are outside, those up to the next are inside, and so on.  So every operation on two
sets is one walk along both lists (`CharSet.merge`), and a set has only one form.

No set holds a surrogate, since no character is one: `CharSet.any` leaves them out, and `compl` and
`range` stay inside of it.
-/

namespace WellLog

/-- A set of characters. -/
structure CharSet where
  /-- The code points where membership changes, in order. -/
  changes : List Nat
  deriving DecidableEq, Repr

namespace CharSet

/-- Whether `n` is inside, when membership is `inside` up to the first of the changes. -/
def within : (inside : Bool) → (changes : List Nat) → (n : Nat) → Bool
  | inside, [], _ => inside
  | inside, change :: changes, n => if n < change then inside else within (!inside) changes n

/-- Whether a character is in the set. -/
def mem (s : CharSet) (c : Char) : Bool := within false s.changes c.toNat

/-! ### Operations on two sets -/

/-- A change at `n` from `before` to `after`, if it is one, in front of later changes. -/
def emit (before after : Bool) (n : Nat) (changes : List Nat) : List Nat :=
  if before == after then changes else n :: changes

/-- The changes of `f` of two memberships, which begin as `x` and `y`. -/
def merge (f : Bool → Bool → Bool) (x y : Bool) : (xs ys : List Nat) → List Nat
  | [], [] => []
  | a :: as, [] => emit (f x y) (f (!x) y) a (merge f (!x) y as [])
  | [], b :: bs => emit (f x y) (f x (!y)) b (merge f x (!y) [] bs)
  | a :: as, b :: bs =>
    if a < b then emit (f x y) (f (!x) y) a (merge f (!x) y as (b :: bs))
    else if b < a then emit (f x y) (f x (!y)) b (merge f x (!y) (a :: as) bs)
    else emit (f x y) (f (!x) (!y)) a (merge f (!x) (!y) as bs)
termination_by xs ys => xs.length + ys.length
decreasing_by all_goals simp only [List.length_cons]; omega

/-- The characters whose memberships of `s` and `t` satisfy `f`, which is false outside of both. -/
def combine (f : Bool → Bool → Bool) (s t : CharSet) : CharSet :=
  ⟨merge f false false s.changes t.changes⟩

/-- In either set. -/
def union (s t : CharSet) : CharSet := combine (· || ·) s t

/-- In both sets. -/
def inter (s t : CharSet) : CharSet := combine (· && ·) s t

/-- In the first set but not in the second. -/
def diff (s t : CharSet) : CharSet := combine (fun x y => x && !y) s t

/-- In one of the sets but not in both. -/
def symmDiff (s t : CharSet) : CharSet := combine (· != ·) s t

/-! ### Building sets -/

/-- No character. -/
def none : CharSet := ⟨[]⟩

/-- Every character. -/
def any : CharSet := ⟨[0, 0xD800, 0xE000, 0x110000]⟩

/-- Not in the set. -/
def compl (s : CharSet) : CharSet := diff any s

/-- The characters from one to another. -/
def range (first last : Char) : CharSet :=
  if first ≤ last then inter any ⟨[first.toNat, last.toNat + 1]⟩ else none

/-- One character. -/
def single (c : Char) : CharSet := ⟨[c.toNat, c.toNat + 1]⟩

/-- All of some sets. -/
def unions (sets : List CharSet) : CharSet := sets.foldl union none

/-- The characters of some ranges. -/
def ofRanges (ranges : List (Char × Char)) : CharSet := unions (ranges.map fun p => range p.1 p.2)

/-- The changes around a code point that is in front of all others or first among them. -/
def cover (n : Nat) : (changes : List Nat) → List Nat
  | [] => [n, n + 1]
  | change :: changes =>
    if change = n then change :: changes
    else if change = n + 1 then n :: changes
    else n :: (n + 1) :: change :: changes

/-- The characters with some code points. -/
def ofCodes (codes : List Nat) : CharSet := ⟨(codes.mergeSort (· ≤ ·)).foldr cover []⟩

/-- The code points at which a run ends, for runs of the given lengths from `start` on. -/
def ends : (start : Nat) → (lengths : List Nat) → List Nat
  | _, [] => []
  | start, length :: lengths => (start + length) :: ends (start + length) lengths

/-- The set of the runs with the given lengths: the first is outside, the next is inside, and so
on. -/
def ofLengths (lengths : List Nat) : CharSet := ⟨ends 0 lengths⟩

/-! ### Looking at a set -/

/-- The first and the last code point of every range of the set. -/
def ranges (s : CharSet) : List (Nat × Nat) := go s.changes
where
  /-- The ranges between changes that begin outside. -/
  go : List Nat → List (Nat × Nat)
    | first :: behind :: changes => (first, behind - 1) :: go changes
    | _ => []

/-- The only character of the set, if there is only one. -/
def single? (s : CharSet) : Option Char :=
  match s.changes with
  | [first, behind] => if behind = first + 1 then some (Char.ofNat first) else Option.none
  | _ => Option.none

/-- Whether all characters are of ASCII. -/
def isAscii (s : CharSet) : Bool := s.changes.all (· ≤ 128)

/-- What is listed with the code points of the set, from a list in the order of the code points. -/
def select {α : Type} (s : CharSet) (entries : List (Nat × α)) : List α :=
  go false s.changes entries
where
  /-- What is listed, when membership is `inside` up to the first of the changes. -/
  go : (inside : Bool) → (changes : List Nat) → List (Nat × α) → List α
    | inside, [], entries => if inside then entries.map (·.2) else []
    | inside, change :: changes, entries =>
      let here := if inside then (entries.takeWhile (·.1 < change)).map (·.2) else []
      here ++ go (!inside) changes (entries.dropWhile (·.1 < change))

end CharSet

end WellLog
