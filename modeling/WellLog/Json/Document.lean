import WellLog.Text.Pad
/-!
# JSON documents

A JSON value to be written.  `Document.toText` writes it over several lines: every element and every
member has a line of its own, two spaces further in than what it is in.
-/

namespace WellLog.Json

/-- A JSON value. -/
inductive Document where
  /-- Nothing. -/
  | null
  /-- True or false. -/
  | bool (b : Bool)
  /-- A number by its digits. -/
  | number (text : String)
  /-- A text. -/
  | string (text : String)
  /-- Values in order. -/
  | array (elements : List Document)
  /-- Values with keys, in order. -/
  | object (members : List (String × Document))
  deriving Repr

namespace Document

/-- A natural number. -/
def ofNat (n : Nat) : Document := number (toString n)

/-- A value that may be missing. -/
def ofOption {α : Type} (f : α → Document) : Option α → Document
  | some a => f a
  | none => null

/-- A character in a string.  Quotation marks, backslashes and control characters are escaped. -/
def escaped (c : Char) : String :=
  if c == '"' then "\\\""
  else if c == '\\' then "\\\\"
  else if c == '\x08' then "\\b"
  else if c == '\x0c' then "\\f"
  else if c == '\n' then "\\n"
  else if c == '\r' then "\\r"
  else if c == '\t' then "\\t"
  else if c.toNat < 0x20 then
    "\\u" ++ Text.padLeft 4 (String.ofList (Nat.toDigits 16 c.toNat)) '0'
  else c.toString

/-- A string between quotation marks. -/
def quoted (text : String) : String := "\"" ++ String.join (text.toList.map escaped) ++ "\""

/-- The start of a line at a depth. -/
def newLine (depth : Nat) : String := "\n" ++ String.join (List.replicate depth "  ")

mutual

/-- A value whose last line is at a depth. -/
def toLines (depth : Nat) : Document → String
  | null => "null"
  | bool b => if b then "true" else "false"
  | number text => text
  | string text => quoted text
  | array [] => "[]"
  | array (d :: ds) =>
    "[" ++ newLine (depth + 1) ++ toLines (depth + 1) d ++ moreElements (depth + 1) ds
      ++ newLine depth ++ "]"
  | object [] => "\x7b\x7d"
  | object ((key, d) :: ds) =>
    "\x7b" ++ newLine (depth + 1) ++ quoted key ++ ": " ++ toLines (depth + 1) d
      ++ moreMembers (depth + 1) ds ++ newLine depth ++ "\x7d"

/-- The elements of an array behind the first one. -/
def moreElements (depth : Nat) : List Document → String
  | [] => ""
  | d :: ds => "," ++ newLine depth ++ toLines depth d ++ moreElements depth ds

/-- The members of an object behind the first one. -/
def moreMembers (depth : Nat) : List (String × Document) → String
  | [] => ""
  | (key, d) :: ds =>
    "," ++ newLine depth ++ quoted key ++ ": " ++ toLines depth d ++ moreMembers depth ds

end

/-- The text of a value, with a line end. -/
def toText (d : Document) : String := toLines 0 d ++ "\n"

end Document

end WellLog.Json
