/-!
# Tables in text

The tables of this folder are texts of hexadecimal numbers.  What belongs to single code points is
found in an array in their order.
-/

namespace WellLog.Unicode.Table

/-- The number of a hexadecimal digit in small letters, if it is one. -/
def hexDigit? (c : Char) : Option Nat :=
  if '0' ≤ c && c ≤ '9' then some (c.toNat - 48)
  else if 'a' ≤ c && c ≤ 'f' then some (c.toNat - 87)
  else none

/-- The number that hexadecimal digits write. -/
def hex (digits : List Char) : Nat :=
  digits.foldl (fun n c => n * 16 + (hexDigit? c).getD 0) 0

/-- The numbers of a text, which stand between blanks. -/
def numbers (text : String) : List Nat :=
  if text.isEmpty then [] else (text.splitOn " ").map fun word => hex word.toList

/-- What belongs to `n` between the places `low` and `high` of an array in the order of its
numbers. -/
def search {α : Type} (entries : Array (Nat × α)) (n low high : Nat) : Option α :=
  if low < high then
    let middle := (low + high) / 2
    match entries[middle]? with
    | some (here, value) =>
      if n < here then search entries n low middle
      else if here < n then search entries n (middle + 1) high
      else some value
    | none => none
  else none
termination_by high - low
decreasing_by all_goals omega

/-- What belongs to `n` in an array in the order of its numbers. -/
def find? {α : Type} (entries : Array (Nat × α)) (n : Nat) : Option α :=
  search entries n 0 entries.size

end WellLog.Unicode.Table
