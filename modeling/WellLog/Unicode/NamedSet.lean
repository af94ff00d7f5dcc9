import WellLog.Unicode.Category
/-!
# Sets with names

Most sets of the Unicode standard are some general categories but for a few characters.  A
`NamedSet` lists the categories and the runs where the set departs from them.
-/

namespace WellLog.Unicode

/-- A set of characters with its names, which are small and without blanks, hyphens and
underscores. -/
structure NamedSet where
  /-- The names. -/
  names : List String
  /-- The categories that the set is close to. -/
  among : List Category
  /-- The lengths of the runs, in turn of code points that are inside because of their category or
  outside because of it, and of code points where it is the other way round. -/
  others : String
  deriving DecidableEq, Repr

namespace NamedSet

/-- The characters of the set. -/
def set (s : NamedSet) : CharSet :=
  .symmDiff (Category.set s.among) (.ofLengths (Table.numbers s.others))

/-- The characters of the set with a name. -/
def find? (sets : List NamedSet) (name : String) : Option CharSet :=
  (sets.find? fun s => s.names.contains name).map set

end NamedSet

end WellLog.Unicode
