import WellLog.Text.Pad
import WellLog.Unicode.NamedSet
/-!
# Quoted text

A text between quotation marks in which everything can be seen: quotation marks and backslashes get
a backslash in front, and what has no shape of its own is written as its code point.
-/

namespace WellLog.Text

/-- The characters that have no shape of their own, as of edition 17 of the Unicode standard: those
that are no text, blanks other than the space, fillers, and extenders of the character before. -/
def hidden : Unicode.NamedSet :=
  ⟨[],
    [.nonspacingMark, .enclosingMark, .spaceSeparator, .lineSeparator, .paragraphSeparator,
    .control, .format, .privateUse, .unassigned], String.join [
      "20 1 86e 1 12e 1 18 1 166 1 18 1 66 1 18 1 84 1 63 1 1 1 4 2 1 2 9 2 5 1 61 1 18 1 77 1 f",
      " 1 37f 2 5b4 1 1e 1 400 1 5 1 1 1 5 2 65 1 47 2 4cd 1 ad4 1 497 2 134 1 7669 2 2 1 1 1 1c",
      " 1 161 1 6c 1 5202 10 1bd 2 36 7 1d1 1 99f 1a 56b 3 8 9 2e7 1 74 1 108 1 e 1 9 1 60 1 9 1",
      " 2 1 1 3 5 1 e0 1 c 1 f1 1 106 1 279 1 c 1 223 1 3 1 1 1 248 2c 4 a 157 1 4f5e 19 2 19 11",
      "c 7 1801 8 509 16 61 73 3f07 3 1bd 17 f 11 274 2 6 6 154d 1f 1 3 1 2 1 7 2 5 9 2 fd8 1 9e",
      " 4 155 9 17b 4 32 1 3 1 39 1 4 1 1c 1 4 1 10a 1 bb3f 6 1762 c 5502 10ca"]⟩

/-- The set of the hidden characters. -/
def hiddenSet : CharSet := hidden.set

/-- A character by its code point. -/
def codePoint (c : Char) : String :=
  "\\u\x7b" ++ String.ofList (Nat.toDigits 16 c.toNat) ++ "\x7d"

/-- A character as it stands in quoted text. -/
def quotedChar (c : Char) : String :=
  if c == '\x00' then "\\0"
  else if c == '\t' then "\\t"
  else if c == '\r' then "\\r"
  else if c == '\n' then "\\n"
  else if c == '\\' then "\\\\"
  else if c == '"' then "\\\""
  else if hiddenSet.mem c then codePoint c
  else c.toString

/-- A text between quotation marks. -/
def quoted (text : String) : String :=
  "\"" ++ String.join (text.toList.map quotedChar) ++ "\""

end WellLog.Text
