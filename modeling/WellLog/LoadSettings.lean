/-!
# Load settings

How logical files are loaded.
-/

namespace WellLog

/-- The settings of a run. -/
structure LoadSettings where
  /-- Promoted objects are kept between queries. -/
  cacheMetadata : Bool := true
  /-- How many bytes are searched for the first visible record of a logical file. -/
  searchLimit : Nat := 200
  /-- References are resolved as soon as a logical file is loaded. -/
  linkOnLoad : Bool := false
  deriving DecidableEq, Repr

end WellLog
