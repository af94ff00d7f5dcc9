import WellLog.Decimal.Shortest
/-!
# Written decimals

Two notations for a decimal given by its significant digits: positional, without any exponent, and
the notation of report data, which turns to an exponent for large and small numbers.
-/

namespace WellLog.Decimal

/-- `n` zeros. -/
def zeros (n : Nat) : String := String.ofList (List.replicate n '0')

/-- The digits with `places` of them after the point, and without a point if there are none. -/
def Scaled.positional (d : Scaled) : String :=
  let digits := toString d.digits
  if 0 ≤ d.exponent then digits ++ zeros d.exponent.toNat
  else
    let places := (-d.exponent).toNat
    if places < digits.length then
      String.ofList (digits.toList.take (digits.length - places)) ++ "."
        ++ String.ofList (digits.toList.drop (digits.length - places))
    else "0." ++ zeros (places - digits.length) ++ digits

/-- Report data: whole numbers keep a `.0`; from `1e16` on and below `1e-5` the number is one digit,
the others after a point, and an exponent with its sign. -/
def Scaled.compact (d : Scaled) : String :=
  let digits := toString d.digits
  let point : Int := Int.ofNat digits.length + d.exponent
  if 0 ≤ d.exponent && point ≤ 16 then d.positional ++ ".0"
  else if -5 < point && point ≤ 16 then d.positional
  else
    let power := point - 1
    let mark := if 0 ≤ power then "e+" else "e-"
    let first := String.ofList (digits.toList.take 1)
    let others := String.ofList (digits.toList.drop 1)
    let mantissa := if others.isEmpty then first else first ++ "." ++ others
    mantissa ++ mark ++ toString power.natAbs

end WellLog.Decimal
