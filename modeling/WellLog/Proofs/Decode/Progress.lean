import WellLog.Proofs.Decode.Spelling
import WellLog.Proofs.Run
/-!
# Decoders go forward

A decoder moves a cursor forward in a body.  Every part is checked against what is left before it is
read, so a cursor stays inside its body, whether the decoder succeeds or fails; and every value has
at least one byte, so there are no more values than bytes.

* `Cursor.Further least c c'` : `c'` is in the same body as `c`, and at least so many bytes behind.
* `Decode.Steady`, `Decode.Eager` : a decoder never leaves the body; and what it reads has at least
  one byte.  That all decoders of values are such is found by instances, one for every decoder.
* `Decode.ends_values` : as many bytes are read as there are values, or more.
* `Decode.value_in_body` : **a value is read from the bytes ahead and from nothing else.**
-/

namespace WellLog

/-- `c'` is in the same body as `c`, at least `least` bytes behind it. -/
structure Cursor.Further (least : Nat) (c c' : Cursor) : Prop where
  /-- The bytes between them are passed. -/
  position : c.position + least ≤ c'.position
  /-- The body has as many bytes as before. -/
  size : c'.position + c'.remaining = c.position + c.remaining
  /-- The bytes that are left are those behind. -/
  rest : c'.rest = c.rest.drop (c'.position - c.position)

namespace Cursor

variable {k l : Nat} {c c' c'' : Cursor}

theorem Further.refl (c : Cursor) : c.Further 0 c :=
  ⟨Nat.le_refl _, rfl, by rw [Nat.sub_self, List.drop_zero]⟩

theorem Further.trans (h : c.Further k c') (h' : c'.Further l c'') : c.Further (k + l) c'' := by
  have hfirst := h.position
  have hsecond := h'.position
  refine ⟨by omega, h'.size.trans h.size, ?_⟩
  rw [h'.rest, h.rest, List.drop_drop]
  congr 1
  omega

theorem Further.of_le (h : c.Further l c') (hkl : k ≤ l) : c.Further k c' :=
  ⟨Nat.le_trans (Nat.add_le_add_left hkl _) h.position, h.size, h.rest⟩

theorem further_drop {position n : Nat} {input : List UInt8} (hn : n ≤ input.length) :
    (⟨position, input⟩ : Cursor).Further n ⟨position + n, input.drop n⟩ := by
  refine ⟨Nat.le_refl _, ?_, ?_⟩
  · simp only [remaining, List.length_drop]
    omega
  · rw [Nat.add_sub_cancel_left]

end Cursor

namespace Decode

variable {α β : Type} {x : Decode α} {f : α → Decode β}

/-- The decoder stays in the body, however it ends. -/
class Steady (x : Decode α) : Prop where
  /-- It does not go back. -/
  ends : ∀ c, Ends (fun _ c' => c.Further 0 c') (fun _ c' => c.Further 0 c') (x c)

/-- The decoder stays in the body, and it reads something if it succeeds. -/
class Eager (x : Decode α) : Prop where
  /-- It goes on. -/
  ends : ∀ c, Ends (fun _ c' => c.Further 1 c') (fun _ c' => c.Further 0 c') (x c)

instance [Eager x] : Steady x where
  ends c := (Eager.ends c).mono (fun _ _ h => h.of_le (Nat.zero_le 1)) fun _ _ => id

instance {a : α} : Steady (Pure.pure a : Decode α) where
  ends c := .refl c

instance {d : Defect} : Eager (throw d : Decode α) where
  ends c := .refl c

/-- One decoder after the other, which read at least `k` and `l` bytes. -/
theorem ends_bind_further {k l : Nat} {c : Cursor}
    (hx : Ends (fun _ c' => c.Further k c') (fun _ c' => c.Further 0 c') (x c))
    (hf : ∀ a c', Ends (fun _ c'' => c'.Further l c'') (fun _ c'' => c'.Further 0 c'') (f a c')) :
    Ends (fun _ c' => c.Further (k + l) c') (fun _ c' => c.Further 0 c') ((x >>= f) c) := by
  rw [ends_bind]
  refine hx.mono ?_ fun _ _ => id
  intro a c' hc'
  exact (hf a c').mono (fun _ _ h => hc'.trans h) fun _ _ h => (hc'.trans h).of_le (Nat.zero_le _)

instance [Steady x] [∀ a, Steady (f a)] : Steady (x >>= f) where
  ends c := ends_bind_further (Steady.ends c) fun _ => Steady.ends

instance [Eager x] [∀ a, Steady (f a)] : Eager (x >>= f) where
  ends c := ends_bind_further (Eager.ends c) fun _ => Steady.ends

instance {p : Prop} [Decidable p] {y : Decode α} [Eager x] [Eager y] :
    Eager (if p then x else y) := by
  split
  · infer_instance
  · infer_instance

/-! ### The elementary parts -/

/-- Bytes are taken if there are so many, and otherwise none of them is. -/
theorem ends_take (n : Nat) (c : Cursor) :
    Ends (fun _ c' => c.Further n c') (fun _ c' => c.Further 0 c') (take n c) := by
  obtain ⟨position, input⟩ := c
  rw [take_run]
  split
  · rename_i h
    exact Cursor.further_drop (hasAtLeast_iff.1 h)
  · exact .refl _

instance (n : Nat) : Steady (take n) where
  ends c := (ends_take n c).mono (fun _ _ h => h.of_le (Nat.zero_le n)) fun _ _ => id

instance (n : Nat) : Eager (take (n + 1)) where
  ends c := (ends_take (n + 1) c).mono (fun _ _ h => h.of_le (Nat.le_add_left 1 n)) fun _ _ => id

instance : Eager byte := by
  unfold byte
  infer_instance

instance (n : Nat) : Eager (unsigned (n + 1)) := by
  unfold unsigned
  infer_instance

instance (n : Nat) : Eager (signed (n + 1)) := by
  unfold signed
  infer_instance

instance (first : UInt8) : Eager (varyingFrom first) := by
  unfold varyingFrom
  infer_instance

instance : Eager varying where
  ends c := by
    obtain ⟨position, input⟩ := c
    cases input with
    | nil => exact .refl _
    | cons first input =>
      rw [varying_cons]
      exact Eager.ends _

instance : Eager identifier := by
  unfold identifier
  infer_instance

instance : Eager string := by
  unfold string
  infer_instance

instance : Eager objectName := by
  unfold objectName
  infer_instance

instance : Eager dateTime := by
  unfold dateTime
  infer_instance

instance : Eager single := by
  unfold single
  infer_instance

instance : Eager double := by
  unfold double
  infer_instance

/-! ### Values -/

/-- **Every value has at least one byte**, whatever its code. -/
instance (code : Code) : Eager (valueOf code) := by
  cases code <;>
  · unfold valueOf
    infer_instance

instance (code : UInt8) : Eager (value code) := by
  unfold value
  split
  · infer_instance
  · infer_instance

/-- As many values are read as are asked for, from as many bytes or more. -/
theorem ends_values (code : UInt8) (count : Nat) (c : Cursor) :
    Ends (fun vs c' => vs.length = count ∧ c.Further count c') (fun _ c' => c.Further 0 c')
      (values code count c) := by
  induction count generalizing c with
  | zero => exact ⟨rfl, .refl c⟩
  | succ count ih =>
    rw [values, ends_bind]
    refine (Eager.ends c).mono ?_ fun _ _ => id
    intro v c' hc'
    rw [ends_bind]
    refine (ih c').mono ?_ fun _ _ h => (hc'.trans h).of_le (Nat.zero_le _)
    rintro vs c'' ⟨rfl, hc''⟩
    refine ⟨rfl, ?_⟩
    rw [Nat.add_comm]
    exact hc'.trans hc''

/-- What a decoder reads spells what it gives: the bytes between the two places of the cursor. -/
theorem spells_between [SelfContained x] {c c' : Cursor} {a : α} (h : x c = .ok a c') :
    Spells x (c.rest.take (c'.position - c.position)) a := by
  obtain ⟨position, input⟩ := c
  obtain ⟨bytes, rest, rfl, rfl, hspells⟩ := SelfContained.exists_spells h
  rwa [Nat.add_sub_cancel_left, List.take_left]

/-- **A value is read from the bytes ahead and from nothing else.**  It has at least one byte and does
not reach beyond the body, and the bytes that it has are read as this value wherever they stand and
whatever follows them.  The same is true of several values, which have at least one byte each; so
no more of them are read than bytes are left.  A decoder that fails has not left the body either. -/
theorem value_in_body (code : UInt8) (c : Cursor) :
    Ends (fun v c' => c.Further 1 c' ∧
        Spells (value code) (c.rest.take (c'.position - c.position)) v)
      (fun _ c' => c.Further 0 c') (value code c) ∧
    ∀ count, Ends (fun vs c' => vs.length = count ∧ c.Further count c' ∧
        Spells (values code count) (c.rest.take (c'.position - c.position)) vs)
      (fun _ c' => c.Further 0 c') (values code count c) ∧
      (c.remaining < count → ∃ d c', values code count c = .error d c') := by
  refine ⟨?_, fun count => ?_⟩
  · have hends := Eager.ends (x := value code) c
    cases hrun : value code c with
    | error d c' => rwa [hrun] at hends
    | ok v c' =>
      rw [hrun] at hends
      exact ⟨hends, spells_between hrun⟩
  · have hends := ends_values code count c
    cases hrun : values code count c with
    | error d c' =>
      rw [hrun] at hends
      exact ⟨hends, fun _ => ⟨d, c', rfl⟩⟩
    | ok vs c' =>
      rw [hrun] at hends
      obtain ⟨hlen, hfurther⟩ := hends
      refine ⟨⟨hlen, hfurther, spells_between hrun⟩, fun hfew => ?_⟩
      -- the body would have to go on behind its end
      have hposition := hfurther.position
      have hsize := hfurther.size
      omega

end Decode

end WellLog
