/-!
# Fields of a fixed width

Padding counts characters and never cuts: a text that is wider than its field stays whole.
-/

namespace WellLog.Text

/-- `text` set to the left of a field of `width` characters. -/
def padRight (width : Nat) (text : String) (fill : Char) : String :=
  text ++ String.ofList (List.replicate (width - text.length) fill)

/-- `text` set to the right of a field of `width` characters. -/
def padLeft (width : Nat) (text : String) (fill : Char) : String :=
  String.ofList (List.replicate (width - text.length) fill) ++ text

/-- A number with at least `width` digits. -/
def zeroPadded (width n : Nat) : String := padLeft width (toString n) '0'

/-- The digit of a number below sixteen, in capitals. -/
def hexDigit (n : Nat) : Char := if n < 10 then Char.ofNat (48 + n) else Char.ofNat (55 + n)

/-- A byte as two hexadecimal digits in capitals. -/
def hexByte (b : UInt8) : String := String.ofList [hexDigit (b.toNat / 16), hexDigit (b.toNat % 16)]

end WellLog.Text
