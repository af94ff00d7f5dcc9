import WellLog.Error
/-!
# Media and readers

A `Medium` is a byte image together with the `Manner` in which it is read: how many bytes one read
delivers at most, and from where on reads fail.  A `Reader` is a place on a medium.  It delivers at
least one of the bytes that are asked for while there are any, and possibly fewer than are there.

`gather` reads on until a number of bytes is complete, and `drain` until nothing more comes, over
anything that can be read from.

A `Source` is an image that is read several times, by independent readers.
-/

namespace WellLog

/-- Reads that start at `start` or later fail. -/
structure Fault where
  /-- The first byte that cannot be read. -/
  start : Nat
  /-- How reading it fails. -/
  error : IoError
  deriving DecidableEq, Repr

/-- How an image is read. -/
structure Manner where
  /-- How many bytes one read delivers, by the number of reads before it and the number of bytes
  that are asked for.  A read delivers at least one byte and at most what is asked for, whatever
  this says. -/
  burst : Nat → Nat → Nat
  /-- Where reading fails, if it does. -/
  fault : Option Fault

namespace Manner

/-- Every read delivers what is asked for. -/
def plain : Manner := ⟨fun _ n => n, none⟩

/-- Every read delivers at most `most` bytes. -/
def inBursts (most : Nat) : Manner := ⟨fun _ _ => most, none⟩

/-- The manner with reads that fail from some byte on. -/
def withFault (m : Manner) (fault : Fault) : Manner := { m with fault := some fault }

end Manner

/-- A byte image and the way it is read. -/
structure Medium where
  /-- The image. -/
  bytes : Array UInt8
  /-- The way it is read. -/
  manner : Manner

namespace Medium

/-- The image in memory, which delivers whatever is asked for. -/
def ofBytes (bytes : Array UInt8) : Medium := ⟨bytes, .plain⟩

/-- Where the bytes end that can be read. -/
def readable (m : Medium) : Nat :=
  match m.manner.fault with
  | some fault => min m.bytes.size fault.start
  | none => m.bytes.size

end Medium

/-- A place on a medium. -/
structure Reader where
  /-- The medium. -/
  medium : Medium
  /-- The offset of the next byte. -/
  position : Nat
  /-- The number of reads so far. -/
  reads : Nat

namespace Reader

/-- The start of a medium. -/
def ofMedium (m : Medium) : Reader := ⟨m, 0, 0⟩

/-- The reader at another place, which may lie beyond the end. -/
def seek (r : Reader) (position : Nat) : Reader := { r with position }

/-- One read of at most `n` bytes.  Nothing comes exactly at the end. -/
def read (n : Nat) : EStateM IoError Reader (List UInt8) := fun r =>
  let deliver : EStateM.Result IoError Reader (List UInt8) :=
    let most := min n (max 1 (r.medium.manner.burst r.reads n))
    let stop := min (r.position + most) r.medium.readable
    let got := (r.medium.bytes.extract r.position stop).toList
    .ok got { r with position := r.position + got.length, reads := r.reads + 1 }
  match r.medium.manner.fault with
  | some fault => if fault.start ≤ r.position then .error fault.error r else deliver
  | none => deliver

end Reader

/-- Reads until `n` bytes are there or nothing more comes. -/
def gather {σ : Type} (read : Nat → EStateM IoError σ (List UInt8)) (n : Nat) :
    EStateM IoError σ (List UInt8) :=
  if _more : n = 0 then return []
  else do
    let got ← read n
    if _any : got.length = 0 then return []
    else return got ++ (← gather read (n - got.length))
termination_by n
decreasing_by omega

/-- Reads until nothing more comes, a read fails, or `most` bytes are there.  What was read before a
failure is kept. -/
def drain {σ : Type} (read : Nat → EStateM IoError σ (List UInt8)) (most : Nat) (s : σ) :
    (List UInt8 × Option IoError) × σ :=
  if _more : most = 0 then (([], none), s)
  else
    match read most s with
    | .error e s => (([], some e), s)
    | .ok got s =>
      if _any : got.length = 0 then (([], none), s)
      else
        let ((others, error), s) := drain read (most - got.length) s
        ((got ++ others, error), s)
termination_by most
decreasing_by omega

/-- A step whose failure is a result like any other. -/
def attempt {ε ε' σ α : Type} (x : EStateM ε σ α) : EStateM ε' σ (Except ε α) := fun s =>
  match x s with
  | .ok a s => .ok (.ok a) s
  | .error e s => .ok (.error e) s

/-- A failed read is a failure of either kind. -/
instance {σ : Type} : MonadLift (EStateM IoError σ) (EStateM FormatError σ) where
  monadLift x := EStateM.adaptExcept .io x

/-- An image that is read several times.  Every opening has its own reader, and can fail. -/
structure Source where
  /-- The image. -/
  image : Array UInt8
  /-- How the readers read, by the number of openings before. -/
  manner : Nat → Except IoError Manner

namespace Source

/-- The image in memory. -/
def ofBytes (image : Array UInt8) : Source := ⟨image, fun _ => .ok .plain⟩

/-- The reader of an opening, at the start of the image. -/
def reader (s : Source) (opening : Nat) : Except IoError Reader :=
  (s.manner opening).map fun manner => .ofMedium ⟨s.image, manner⟩

end Source

end WellLog
