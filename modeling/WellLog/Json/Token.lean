/-!
# JSON tokens

The tokens of a JSON text, and `Token.skipValue`, which passes over one value whatever it is.

A string may have an escape that stands for half a character.  Such a string has no text, but it can
be passed over.  Of a number the tokens only keep whether it is written as a natural number.
-/

namespace WellLog.Json

/-- A token. -/
inductive Token where
  /-- `[` -/
  | openArray
  /-- `]` -/
  | closeArray
  /-- An opening brace. -/
  | openObject
  /-- A closing brace. -/
  | closeObject
  /-- `:` -/
  | colon
  /-- `,` -/
  | comma
  /-- `null` -/
  | null
  /-- `true` or `false` -/
  | bool (b : Bool)
  /-- A number, with its value if it has no sign, no fraction and no exponent. -/
  | number (natural : Option Nat)
  /-- A string, with its text if it has one. -/
  | string (text : Option String)
  deriving DecidableEq, Repr

/-- White space between tokens. -/
def isSpace (c : Char) : Bool := c == ' ' || c == '\t' || c == '\n' || c == '\r'

/-! ### Strings -/

/-- The value of a hexadecimal digit. -/
def hexDigit? (c : Char) : Option Nat :=
  if c.isDigit then some (c.toNat - '0'.toNat)
  else if 'a' ≤ c ∧ c ≤ 'f' then some (c.toNat - 'a'.toNat + 10)
  else if 'A' ≤ c ∧ c ≤ 'F' then some (c.toNat - 'A'.toNat + 10)
  else none

/-- The value of four hexadecimal digits. -/
def hexUnit? (a b c d : Char) : Option Nat := do
  return ((((← hexDigit? a) * 16 + (← hexDigit? b)) * 16 + (← hexDigit? c)) * 16 + (← hexDigit? d))

/-- The character behind a backslash, other than `u`. -/
def escape? : Char → Option Char
  | '"' => some '"'
  | '\\' => some '\\'
  | '/' => some '/'
  | 'b' => some '\x08'
  | 'f' => some '\x0c'
  | 'n' => some '\n'
  | 'r' => some '\r'
  | 't' => some '\t'
  | _ => none

/-- The code points of a string up to its closing quote, behind those in `units`, which has the last
one first.  Escapes may give halves of a character.  The characters behind the quote are returned
too. -/
def string? (units : List Nat) : List Char → Option (List Nat × List Char)
  | '"' :: cs => some (units.reverse, cs)
  | '\\' :: 'u' :: a :: b :: c :: d :: cs =>
    match hexUnit? a b c d with
    | some unit => string? (unit :: units) cs
    | none => none
  | '\\' :: e :: cs =>
    match escape? e with
    | some c => string? (c.toNat :: units) cs
    | none => none
  | c :: cs => if c.toNat < 0x20 ∨ c = '\\' then none else string? (c.toNat :: units) cs
  | [] => none

/-- The first half of a character above `FFFF`. -/
def isHighHalf (unit : Nat) : Bool := 0xD800 ≤ unit && unit < 0xDC00

/-- The second half of a character above `FFFF`. -/
def isLowHalf (unit : Nat) : Bool := 0xDC00 ≤ unit && unit < 0xE000

/-- The characters of code points, whose halves have to come in pairs. -/
def characters? : List Nat → Option (List Char)
  | [] => some []
  | [unit] => if isHighHalf unit || isLowHalf unit then none else some [Char.ofNat unit]
  | unit :: next :: units =>
    if isHighHalf unit then
      if isLowHalf next then
        (characters? units).map
          (Char.ofNat (0x10000 + (unit - 0xD800) * 0x400 + (next - 0xDC00)) :: ·)
      else none
    else if isLowHalf unit then none
    else (characters? (next :: units)).map (Char.ofNat unit :: ·)

/-! ### Numbers -/

/-- At least one digit. -/
def digits? (cs : List Char) : Option (List Char × List Char) :=
  match cs.span Char.isDigit with
  | ([], _) => none
  | found => some found

/-- The whole part of a number, without needless zeros. -/
def whole? : List Char → Option (List Char × List Char)
  | '0' :: cs => some (['0'], cs)
  | cs => digits? cs

/-- What follows a fraction, and whether there is one. -/
def fraction? : List Char → Option (Bool × List Char)
  | '.' :: cs => (digits? cs).map fun found => (true, found.2)
  | cs => some (false, cs)

/-- What follows the letter of an exponent. -/
def afterExponent? : List Char → Option (List Char)
  | '+' :: cs => (digits? cs).map (·.2)
  | '-' :: cs => (digits? cs).map (·.2)
  | cs => (digits? cs).map (·.2)

/-- What follows an exponent, and whether there is one. -/
def exponent? : List Char → Option (Bool × List Char)
  | 'e' :: cs => (afterExponent? cs).map (true, ·)
  | 'E' :: cs => (afterExponent? cs).map (true, ·)
  | cs => some (false, cs)

/-- The value of digits. -/
def natural (digits : List Char) : Nat :=
  digits.foldl (fun n c => 10 * n + (c.toNat - '0'.toNat)) 0

/-- A number without its sign. -/
def number? (negative : Bool) (cs : List Char) : Option (Token × List Char) := do
  let (whole, cs) ← whole? cs
  let (hasFraction, cs) ← fraction? cs
  let (hasExponent, cs) ← exponent? cs
  let value := if negative || hasFraction || hasExponent then none else some (natural whole)
  return (.number value, cs)

/-! ### Texts -/

/-- The token that begins with a character, and what follows. -/
def token? : Char → List Char → Option (Token × List Char)
  | '[', cs => some (.openArray, cs)
  | ']', cs => some (.closeArray, cs)
  | '\x7b', cs => some (.openObject, cs)
  | '\x7d', cs => some (.closeObject, cs)
  | ':', cs => some (.colon, cs)
  | ',', cs => some (.comma, cs)
  | 'n', 'u' :: 'l' :: 'l' :: cs => some (.null, cs)
  | 't', 'r' :: 'u' :: 'e' :: cs => some (.bool true, cs)
  | 'f', 'a' :: 'l' :: 's' :: 'e' :: cs => some (.bool false, cs)
  | '"', cs => (string? [] cs).map fun found =>
    (.string ((characters? found.1).map String.ofList), found.2)
  | '-', cs => number? true cs
  | c, cs => number? false (c :: cs)

/-- The tokens of a text of at most `most` characters, behind those in `found`, which has the last
one first. -/
def tokensFrom? (found : List Token) : (most : Nat) → List Char → Option (List Token)
  | _, [] => some found.reverse
  | 0, _ :: _ => none
  | most + 1, c :: cs =>
    if isSpace c then tokensFrom? found most cs
    else
      match token? c cs with
      | some (t, cs) => tokensFrom? (t :: found) most cs
      | none => none

/-- The tokens of a text. -/
def tokens? (text : String) : Option (List Token) := tokensFrom? [] text.length text.toList

/-! ### Passing over a value -/

/-- An array or an object that is not closed. -/
inductive Nest where
  /-- An array. -/
  | array
  /-- An object. -/
  | object
  deriving DecidableEq, Repr

/-- What has to come next. -/
inductive Expected where
  /-- A value. -/
  | value
  /-- A value or the end of an empty array. -/
  | firstElement
  /-- A key. -/
  | key
  /-- A key or the end of an empty object. -/
  | firstKey
  /-- The colon behind a key. -/
  | colon
  /-- What follows a value: a comma or the end of what it is in. -/
  | separator
  deriving DecidableEq, Repr

/-- What follows when everything in `nests` is closed and `expected` has come. -/
def skip : (nests : List Nest) → (expected : Expected) → List Token → Option (List Token)
  | [], .separator, ts => some ts
  | nests, .value, .openArray :: ts => skip (.array :: nests) .firstElement ts
  | nests, .value, .openObject :: ts => skip (.object :: nests) .firstKey ts
  | nests, .value, .null :: ts => skip nests .separator ts
  | nests, .value, .bool _ :: ts => skip nests .separator ts
  | nests, .value, .number _ :: ts => skip nests .separator ts
  | nests, .value, .string _ :: ts => skip nests .separator ts
  | nests, .firstElement, .openArray :: ts => skip (.array :: nests) .firstElement ts
  | nests, .firstElement, .openObject :: ts => skip (.object :: nests) .firstKey ts
  | nests, .firstElement, .null :: ts => skip nests .separator ts
  | nests, .firstElement, .bool _ :: ts => skip nests .separator ts
  | nests, .firstElement, .number _ :: ts => skip nests .separator ts
  | nests, .firstElement, .string _ :: ts => skip nests .separator ts
  | .array :: nests, .firstElement, .closeArray :: ts => skip nests .separator ts
  | nests, .key, .string _ :: ts => skip nests .colon ts
  | nests, .firstKey, .string _ :: ts => skip nests .colon ts
  | .object :: nests, .firstKey, .closeObject :: ts => skip nests .separator ts
  | nests, .colon, .colon :: ts => skip nests .value ts
  | .array :: nests, .separator, .comma :: ts => skip (.array :: nests) .value ts
  | .object :: nests, .separator, .comma :: ts => skip (.object :: nests) .key ts
  | .array :: nests, .separator, .closeArray :: ts => skip nests .separator ts
  | .object :: nests, .separator, .closeObject :: ts => skip nests .separator ts
  | _, _, _ => none

/-- What follows one value. -/
def skipValue (ts : List Token) : Option (List Token) := skip [] .value ts

end WellLog.Json
