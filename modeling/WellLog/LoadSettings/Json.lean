import WellLog.Json.Token
import WellLog.LoadSettings
/-!
# Load settings in JSON

Settings are written as an object or as an array.  In an object every setting may be missing, none
may come twice, and other members are passed over.  In an array the settings come in order, and the
last ones may be missing.
-/

namespace WellLog.LoadSettings

open Json

/-- The settings that a text gives. -/
structure Given where
  /-- Whether promoted objects are kept. -/
  cacheMetadata : Option Bool := none
  /-- How many bytes are searched. -/
  searchLimit : Option Nat := none
  /-- Whether references are resolved. -/
  linkOnLoad : Option Bool := none
  deriving DecidableEq, Repr

/-- The given settings, with defaults for the others. -/
def Given.complete (g : Given) : LoadSettings :=
  let default : LoadSettings := {}
  ⟨g.cacheMetadata.getD default.cacheMetadata, g.searchLimit.getD default.searchLimit,
    g.linkOnLoad.getD default.linkOnLoad⟩

/-- Limits are numbers of 64 bits. -/
def limitBound : Nat := UInt64.size

/-- Reads the value of a member, which is a setting or passed over. -/
def member? (g : Given) (key : String) (ts : List Token) : Option (Given × List Token) :=
  if key = "cache_metadata" then
    match g.cacheMetadata, ts with
    | none, .bool b :: ts => some ({ g with cacheMetadata := some b }, ts)
    | _, _ => none
  else if key = "visible_record_search_limit" then
    match g.searchLimit, ts with
    | none, .number (some n) :: ts =>
      if n < limitBound then some ({ g with searchLimit := some n }, ts) else none
    | _, _ => none
  else if key = "link_on_load" then
    match g.linkOnLoad, ts with
    | none, .bool b :: ts => some ({ g with linkOnLoad := some b }, ts)
    | _, _ => none
  else (skipValue ts).map (g, ·)

/-- Reads the members up to the end of the text, at most `most` of them. -/
def members? : (most : Nat) → Given → List Token → Option Given
  | most + 1, g, .string (some key) :: .colon :: ts => do
    let (g, ts) ← member? g key ts
    match ts with
    | [.closeObject] => return g
    | .comma :: ts => members? most g ts
    | _ => none
  | _, _, _ => none

/-- Reads a whole text of tokens. -/
def given? : List Token → Option Given
  | [.openObject, .closeObject] => some {}
  | .openObject :: ts => members? ts.length {} ts
  | [.openArray, .closeArray] => some {}
  | [.openArray, .bool cache, .closeArray] => some ⟨cache, none, none⟩
  | [.openArray, .bool cache, .comma, .number (some limit), .closeArray] =>
    if limit < limitBound then some ⟨cache, limit, none⟩ else none
  | [.openArray, .bool cache, .comma, .number (some limit), .comma, .bool link, .closeArray] =>
    if limit < limitBound then some ⟨cache, limit, link⟩ else none
  | _ => none

/-- The settings in a JSON text. -/
def ofJson? (text : String) : Option LoadSettings := do
  return (← given? (← tokens? text)).complete

end WellLog.LoadSettings
