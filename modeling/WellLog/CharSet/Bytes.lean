import WellLog.CharSet
/-!
# The bytes of a set

In UTF-8 a range of characters is written by a few sequences of byte ranges: all characters of a
sequence have a first byte in the first range, a second byte in the second, and so on, and every
choice of bytes is one of them.
-/

namespace WellLog

/-- The bytes from one to another. -/
structure ByteRange where
  /-- The first byte. -/
  first : Nat
  /-- The last byte. -/
  last : Nat
  deriving DecidableEq, Repr

namespace CharSet

/-- The bytes of a code point. -/
def bytes (n : Nat) : List Nat :=
  if n < 0x80 then [n]
  else if n < 0x800 then [0xC0 + n / 64, 0x80 + n % 64]
  else if n < 0x10000 then [0xE0 + n / 4096, 0x80 + n / 64 % 64, 0x80 + n % 64]
  else [0xF0 + n / 262144, 0x80 + n / 4096 % 64, 0x80 + n / 64 % 64, 0x80 + n % 64]

/-- The code point at which a range has to be cut, because the characters in front of it have fewer
bytes, or because the range would not take all of the last bytes. -/
def cut? (first last : Nat) : Option Nat :=
  match [0x80, 0x800, 0x10000].find? fun n => first < n && n ≤ last with
  | some n => some n
  | Option.none =>
    if last < 0x80 then Option.none
    else [64, 4096, 262144].findSome? fun block =>
      if first / block == last / block then Option.none
      else if first % block != 0 then some ((first / block + 1) * block)
      else if last % block != block - 1 then some (last / block * block)
      else Option.none

/-- The sequences of a range of code points, in order. -/
def rangeSequences (first last : Nat) : List (List ByteRange) :=
  match cut? first last with
  | some n =>
    if first < n ∧ n ≤ last then rangeSequences first (n - 1) ++ rangeSequences n last else []
  | Option.none => [(bytes first).zipWith ByteRange.mk (bytes last)]
termination_by last - first
decreasing_by all_goals omega

/-- The sequences of a set, in order. -/
def sequences (s : CharSet) : List (List ByteRange) :=
  s.ranges.flatMap fun range => rangeSequences range.1 range.2

end CharSet

end WellLog
