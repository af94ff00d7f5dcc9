import WellLog.Pool
/-!
# Linking

Linking resolves the references of all objects of a pool.  It keeps the instances of every type, so
that the links lead to what later queries return, whether caching is on or off.

A reference to an object that the pool does not have is dangling.  It is reported once for each
object and target.
-/

namespace WellLog

/-- A reference to an object that is not there. -/
structure Dangling where
  /-- The object with the reference. -/
  source : Fingerprint
  /-- The label of the attribute with the reference. -/
  label : String
  /-- The object that is not there. -/
  target : Fingerprint
  deriving DecidableEq, Repr

/-- What linking found. -/
structure LinkReport where
  /-- The number of references that were resolved. -/
  resolved : Nat
  /-- The references that were not, each object and target once. -/
  dangling : List Dangling
  deriving DecidableEq, Repr

/-- Every reference was resolved. -/
def LinkReport.isComplete (r : LinkReport) : Bool := r.dangling.isEmpty

namespace Pool

variable {ε : Type}

/-- Slots under a label, in place of those before; the labels stay in order. -/
def setLinks (label : String) (slots : List (Option InstanceId)) :
    List (String × List (Option InstanceId)) → List (String × List (Option InstanceId))
  | [] => [(label, slots)]
  | (l, s) :: others =>
    if l = label then (l, slots) :: others
    else if label < l then (label, slots) :: (l, s) :: others
    else (l, s) :: setLinks label slots others

/-- The instance of a fingerprint among the members of all types; the last one if types share it. -/
def resolve (members : List (Fingerprint × InstanceId)) (f : Fingerprint) : Option InstanceId :=
  members.reverse.lookup f

/-- A dangling reference, unless the same object refers to the same target already. -/
def addDangling (d : Dangling) (report : LinkReport) : LinkReport :=
  if report.dangling.any fun e => e.source == d.source && e.target == d.target then report
  else { report with dangling := report.dangling ++ [d] }

/-- The report with the references under one label of an object. -/
def reportSlots (source : Fingerprint) (label : String) (report : LinkReport)
    (slots : List (Fingerprint × Option InstanceId)) : LinkReport :=
  slots.foldl (fun report slot => match slot.2 with
    | some _ => { report with resolved := report.resolved + 1 }
    | none => addDangling ⟨source, label, slot.1⟩ report) report

/-- Links one instance, and adds its references to the report. -/
def linkInstance (members : List (Fingerprint × InstanceId)) (report : LinkReport)
    (id : InstanceId) : Logged ε Pool LinkReport := do
  let p ← Logged.state
  match p.instance? id with
  | none => return report
  | some i =>
    let resolved := (p.registry.references i.raw).map fun r =>
      (r.1, r.2.map fun target => (target, resolve members target))
    let links := resolved.foldl (fun links r => setLinks r.1 (r.2.map (·.2)) links) i.links
    modify fun j =>
      { j with state.promoted := j.state.promoted.setIfInBounds id { i with links } }
    return resolved.foldl (fun report r => reportSlots i.raw.fingerprint r.1 report r.2) report

/-- Links all objects of the pool to each other. -/
def link : Logged ε Pool LinkReport := do
  let buckets ← (← Logged.state).types.mapM keptBucket
  let members := buckets.flatMap (·.members)
  let report ← members.foldlM (fun report m => linkInstance members report m.2) ⟨0, []⟩
  report.dangling.forM fun d =>
    Logged.note .warning
      s!"{d.source.toText} references missing object {d.target.toText} in {d.label}"
  Logged.note .debug (s!"Linked {members.length} objects: "
    ++ s!"{report.resolved} references resolved, {report.dangling.length} dangling")
  return report

end Pool

end WellLog
