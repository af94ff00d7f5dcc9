/-!
# UTF-8 text in records

Identifiers and strings of a record are bytes that should be UTF-8.  `decode` reads any bytes at
all: a well-formed sequence is its character, and every longest piece that starts like a character
and breaks off is one replacement character.  `encode` is the way back.
-/

namespace WellLog.Utf8

/-- The character that stands for bytes that are no character. -/
def replacement : Char := '\uFFFD'

/-- A continuation byte: `80` to `BF`. -/
def isTail (b : UInt8) : Bool := 0x80 ≤ b && b ≤ 0xBF

/-- What may follow the lead byte of a three or four byte character.  The narrower ranges shut out
overlong forms, surrogates and code points above `10FFFF`. -/
def isSecond (lead b : UInt8) : Bool :=
  if lead == 0xE0 then 0xA0 ≤ b && b ≤ 0xBF
  else if lead == 0xED then 0x80 ≤ b && b ≤ 0x9F
  else if lead == 0xF0 then 0x90 ≤ b && b ≤ 0xBF
  else if lead == 0xF4 then 0x80 ≤ b && b ≤ 0x8F
  else isTail b

/-- The low six bits, which a continuation byte contributes. -/
def payload (b : UInt8) : Nat := b.toNat % 64

/-- The first character of `lead :: rest`, with the number of bytes of `rest` that belong to it.
A malformed piece gives the replacement character and counts the bytes that still fitted. -/
def first (lead : UInt8) (rest : List UInt8) : Char × Nat :=
  if lead < 0x80 then (Char.ofNat lead.toNat, 0)
  else if 0xC2 ≤ lead && lead ≤ 0xDF then
    match rest with
    | b :: _ => if isTail b then (Char.ofNat (lead.toNat % 32 * 64 + payload b), 1)
      else (replacement, 0)
    | [] => (replacement, 0)
  else if 0xE0 ≤ lead && lead ≤ 0xEF then
    match rest with
    | b :: rest =>
      if isSecond lead b then
        match rest with
        | c :: _ =>
          if isTail c then
            (Char.ofNat (lead.toNat % 16 * 4096 + payload b * 64 + payload c), 2)
          else (replacement, 1)
        | [] => (replacement, 1)
      else (replacement, 0)
    | [] => (replacement, 0)
  else if 0xF0 ≤ lead && lead ≤ 0xF4 then
    match rest with
    | b :: rest =>
      if isSecond lead b then
        match rest with
        | c :: rest =>
          if isTail c then
            match rest with
            | d :: _ =>
              if isTail d then
                (Char.ofNat (lead.toNat % 8 * 262144 + payload b * 4096 + payload c * 64
                  + payload d), 3)
              else (replacement, 2)
            | [] => (replacement, 2)
          else (replacement, 1)
        | [] => (replacement, 1)
      else (replacement, 0)
    | [] => (replacement, 0)
  else (replacement, 0)

/-- The characters of any byte sequence. -/
def decodeChars : List UInt8 → List Char
  | [] => []
  | lead :: rest =>
    let unit := first lead rest
    unit.1 :: decodeChars (rest.drop unit.2)
termination_by bytes => bytes.length
decreasing_by simp only [List.length_drop, List.length_cons]; omega

/-- The text of any byte sequence. -/
def decode (bytes : List UInt8) : String := String.ofList (decodeChars bytes)

/-- The bytes of a text. -/
def encode (text : String) : List UInt8 := text.toUTF8.toList

end WellLog.Utf8
