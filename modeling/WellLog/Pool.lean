import WellLog.Journal
import WellLog.Pattern
import WellLog.Schema
/-!
# Object pools

A `Pool` has all objects of a logical file by type, in the order of their declarations.  A query
promotes the objects of a type to instances: one for each fingerprint, at the place of its first
declaration and with the content of its last.

Instances have an identity.  The pool numbers them and never uses a number again.  While caching is
on, the instances of a type are kept, so that every query returns the same ones; without it, each
query promotes anew.  An instance lives while the cache keeps it or someone holds it.
-/

namespace WellLog

/-- The number of an instance. -/
abbrev InstanceId := Nat

/-- A promoted object with its links: for each label, one slot for every reference.  A slot is empty
where the reference could not be resolved. -/
structure Instance where
  /-- The object. -/
  raw : RawObject
  /-- The links, in the order of labels. -/
  links : List (String × List (Option InstanceId))
  deriving Repr

/-- The instances of one type. -/
structure Bucket where
  /-- The instances by fingerprint, in the order of first declaration. -/
  members : List (Fingerprint × InstanceId)
  /-- The positions of the members with a name. -/
  byName : List (String × List Nat)
  deriving Repr

namespace Bucket

/-- No instances. -/
def empty : Bucket := ⟨[], []⟩

/-- The positions of the members with a name. -/
def positions (b : Bucket) (name : String) : List Nat := (b.byName.lookup name).getD []

/-- One more position for a name. -/
def addName (name : String) (position : Nat) : List (String × List Nat) → List (String × List Nat)
  | [] => [(name, [position])]
  | (n, ps) :: others =>
    if n = name then (n, ps ++ [position]) :: others else (n, ps) :: addName name position others

/-- The position of the member with a fingerprint. -/
def position? (b : Bucket) (f : Fingerprint) : Option Nat := b.members.findIdx? (·.1 == f)

/-- An instance in the place of the one with the same fingerprint, or behind all others. -/
def put (b : Bucket) (f : Fingerprint) (id : InstanceId) : Bucket :=
  match b.position? f with
  | some i => { b with members := b.members.set i (f, id) }
  | none => ⟨b.members ++ [(f, id)], addName f.name b.members.length b.byName⟩

/-- The instances in order. -/
def instances (b : Bucket) : List InstanceId := b.members.map (·.2)

/-- The instances with a name that a query asks for, all without a query. -/
def select (b : Bucket) : Option Needle → List InstanceId
  | none => b.instances
  | some (.exact name) => (b.positions name).filterMap fun i => (b.members[i]?).map (·.2)
  | some needle => (b.members.filter fun m => needle.accepts m.1.name).map (·.2)

end Bucket

/-- The objects of a logical file. -/
structure Pool where
  /-- The declared objects by type, in the order of types. -/
  declared : List (String × List RawObject)
  /-- The known schemas. -/
  registry : Registry
  /-- Instances are kept from query to query. -/
  caching : Bool
  /-- The instances that are kept, by type. -/
  cache : List (String × Bucket)
  /-- All instances ever promoted, by number. -/
  promoted : Array Instance
  /-- The instances that someone holds, by the number of the hold.  A hold that was given up stays
  empty. -/
  holds : Array (Option InstanceId)

/-- Why a query has no answer. -/
inductive QueryError where
  /-- The query text is no pattern. -/
  | badPattern
  /-- No object has this type and name. -/
  | notFound (type name : String)
  /-- Several objects that differ have this type and name. -/
  | ambiguous (type name : String) (candidates : List (Nat × UInt8))
  deriving DecidableEq, Repr

/-- The wording of a query's failure. -/
def QueryError.message : QueryError → String
  | badPattern => "invalid pattern"
  | notFound type name => s!"no {type} object named {name}"
  | ambiguous type name candidates =>
    s!"{candidates.length} {type} objects named {name}, disambiguate by origin and copy: "
      ++ ", ".intercalate (candidates.map fun c =>
        s!"(origin={c.1}, copy=" ++ toString c.2.toNat ++ ")")

namespace Pool

variable {ε : Type}

/-- A pool without objects. -/
def empty (registry : Registry) : Pool := ⟨[], registry, true, [], #[], #[]⟩

/-- The types in order. -/
def types (p : Pool) : List String := p.declared.map (·.1)

/-- The declared objects of a type. -/
def objectsOf (p : Pool) (type : String) : List RawObject := (p.declared.lookup type).getD []

/-- The number of declared objects. -/
def size (p : Pool) : Nat := p.declared.foldl (fun n d => n + d.2.length) 0

/-- The instance with a number. -/
def instance? (p : Pool) (id : InstanceId) : Option Instance := p.promoted[id]?

/-- More objects of a type, behind those it has.  The types stay in order. -/
def declare (type : String) (objects : List RawObject) :
    List (String × List RawObject) → List (String × List RawObject)
  | [] => [(type, objects)]
  | (t, os) :: others =>
    if t = type then (t, os ++ objects) :: others
    else if type < t then (type, objects) :: (t, os) :: others
    else (t, os) :: declare type objects others

/-- The bucket of a type in place of the one before. -/
def store (type : String) (b : Bucket) : List (String × Bucket) → List (String × Bucket)
  | [] => [(type, b)]
  | (t, c) :: others => if t = type then (t, b) :: others else (t, c) :: store type b others

/-- Promotes an object and puts the instance into a bucket.  Another content of an object that is
there already is noted. -/
def promote (b : Bucket) (raw : RawObject) : Logged ε Pool Bucket := do
  let p ← Logged.state
  let old := (b.position? raw.fingerprint).bind fun i =>
    (b.members[i]?).bind fun m => p.instance? m.2
  if let some old := old then
    if !old.raw.sameContent raw then
      Logged.note .warning
        s!"Duplicate object {raw.fingerprint.toText} with different content, keeping the last one"
  let id := p.promoted.size
  modify fun j => { j with state.promoted := j.state.promoted.push ⟨raw, []⟩ }
  return b.put raw.fingerprint id

/-- Promotes objects into a bucket, one after the other. -/
def promoteAll (b : Bucket) (objects : List RawObject) : Logged ε Pool Bucket :=
  objects.foldlM promote b

/-- Keeps the instances of a type. -/
def keep (type : String) (b : Bucket) : Logged ε Pool Unit :=
  modify fun j => { j with state.cache := store type b j.state.cache }

/-- Adds the objects of a set.  If the instances of their type are kept, the new objects are
promoted at once, so that all other instances stay the same. -/
def addSet (s : ObjectSet) : Logged ε Pool Unit := do
  Logged.note .debug s!"Pooling {s.objects.length} objects of type {s.type}"
  if let some b := (← Logged.state).cache.lookup s.type then
    keep s.type (← promoteAll b s.objects)
  modify fun j => { j with state.declared := declare s.type s.objects j.state.declared }

/-- Adds the objects of sets. -/
def addSets (sets : List ObjectSet) : Logged ε Pool Unit := sets.forM addSet

/-- Turns caching on or off.  Turning it off gives up all instances that are kept. -/
def setCaching (p : Pool) (on : Bool) : Pool :=
  if on then { p with caching := true } else { p with caching := false, cache := [] }

/-- The instances of a type, for a query.  They are kept if caching is on. -/
def bucket (type : String) : Logged ε Pool Bucket := do
  let p ← Logged.state
  match p.cache.lookup type with
  | some b => return b
  | none =>
    let b ← promoteAll .empty (p.objectsOf type)
    Logged.note .debug s!"Promoted {b.members.length} objects of type {type}"
    if p.caching then keep type b
    return b

/-- The instances of a type, which are kept from now on. -/
def keptBucket (type : String) : Logged ε Pool Bucket := do
  let p ← Logged.state
  match p.cache.lookup type with
  | some b => return b
  | none =>
    let b ← promoteAll .empty (p.objectsOf type)
    keep type b
    return b

/-- A query text, ready to be compared. -/
def needle (matcher : Matcher) (text : String) : Logged QueryError Pool Needle :=
  match matcher.compile? text with
  | some n => return n
  | none => throw .badPattern

/-- The instances whose type and, if it is given, name the query asks for, by type and in the order
of declaration. -/
def find (type : String) (name : Option String) (matcher : Matcher) :
    Logged QueryError Pool (List InstanceId) := do
  let name ← name.mapM (needle matcher)
  let type ← needle matcher type
  let types := (← Logged.state).types.filter type.accepts
  return (← types.mapM fun t => return (← bucket t).select name).flatten

/-- The one instance of a type with a name, and of an origin and a copy if they are given.  Several
that do not differ count as one. -/
def object (type name : String) (origin : Option Nat) (copy : Option UInt8) :
    Logged QueryError Pool InstanceId := do
  let found ← find type (some name) .exact
  let p ← Logged.state
  let candidates := (found.filterMap fun id => (p.instance? id).map fun i => (id, i.raw)).filter
    fun c => origin.all (· == c.2.fingerprint.origin) && copy.all (· == c.2.fingerprint.copy)
  match candidates with
  | [] => throw (.notFound type name)
  | [only] => return only.1
  | first :: others =>
    if others.all fun c => c.2.sameContent first.2 then
      Logged.note .debug
        s!"{candidates.length} copies of {type} {name} are identical, returning the first"
      return first.1
    else
      throw (.ambiguous type name
        (candidates.map fun c => (c.2.fingerprint.origin, c.2.fingerprint.copy)))

/-! ### Holding instances -/

/-- Holds an instance, and returns the number of the hold.  An instance that is held already keeps
its number. -/
def hold (p : Pool) (id : InstanceId) : Nat × Pool :=
  match p.holds.findIdx? (· == some id) with
  | some n => (n, p)
  | none => (p.holds.size, { p with holds := p.holds.push (some id) })

/-- Gives up a hold. -/
def release (p : Pool) (n : Nat) : Pool := { p with holds := p.holds.setIfInBounds n none }

/-- The instance of a hold. -/
def held? (p : Pool) (n : Nat) : Option InstanceId := (p.holds[n]?).join

/-- The number of the hold on an instance. -/
def holdOf? (p : Pool) (id : InstanceId) : Option Nat := p.holds.findIdx? (· == some id)

/-- The instance lives: the cache keeps it or someone holds it. -/
def isAlive (p : Pool) (id : InstanceId) : Bool :=
  p.cache.any (fun c => c.2.instances.contains id) || p.holds.contains (some id)

/-! ### Links -/

/-- The labels of an instance that have links, in order. -/
def linkedLabels (p : Pool) (id : InstanceId) : List String :=
  ((p.instance? id).map fun i => i.links.map (·.1)).getD []

/-- The targets of the references under a label of an instance.  A link does not keep its target:
the slot of an instance that lives no more is empty. -/
def linked (p : Pool) (id : InstanceId) (label : String) : List (Option InstanceId) :=
  match (p.instance? id).bind fun i => i.links.lookup label with
  | some slots => slots.map fun slot => slot.filter p.isAlive
  | none => []

end Pool

end WellLog
