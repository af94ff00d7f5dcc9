import WellLog.Pattern.Parser
/-!
# Queries by name

A query compares a text with the types or names of objects: exactly, or as a pattern.  A pattern
has to match from the first character on, so the text is put behind a start condition; case does
not matter.
-/

namespace WellLog

/-- How a query text is compared. -/
inductive Matcher where
  /-- As it is. -/
  | exact
  /-- As a pattern. -/
  | pattern
  deriving DecidableEq, Repr

/-- A query text ready to be compared. -/
inductive Needle where
  /-- This text only. -/
  | exact (text : String)
  /-- Every text that matches. -/
  | pattern (regex : Regex)
  deriving DecidableEq, Repr

/-- The text of an anchored pattern. -/
def Pattern.anchored (text : String) : String := "^(?:" ++ text ++ ")"

/-- Prepares a query text; a text that is no pattern cannot be compared as one. -/
def Matcher.compile? : Matcher → String → Option Needle
  | exact, text => some (.exact text)
  | pattern, text => (Regex.parse? (Pattern.anchored text)).map .pattern

/-- Whether a text is one that the query asks for. -/
def Needle.accepts : Needle → String → Bool
  | exact text, candidate => text == candidate
  | pattern regex, candidate => regex.isMatch candidate

end WellLog
