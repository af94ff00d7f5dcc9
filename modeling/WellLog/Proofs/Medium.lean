import Mathlib.Order.Basic
import Mathlib.Tactic.Set
import WellLog.Proofs.Run
/-!
# What a medium delivers

A reader may deliver its bytes in pieces of any size, so nothing above it should depend on the
pieces.  Two functions of the medium say all that can be read from a place: the bytes from there on
(`Medium.bytesFrom`), and the failure, if any, of a read at a place (`Medium.failure`).

* `Reader.read_supplies` : reading delivers the bytes in order, whatever the pieces are.
* `Reader.gather_of_le`, `Reader.gather_of_lt` : gathering delivers what was asked for; where the
  bytes end first, it delivers what is left, or fails if that is where the medium fails.
-/

namespace WellLog

namespace Medium

/-- The bytes that can be read from a place on. -/
def bytesFrom (m : Medium) (position : Nat) : List UInt8 :=
  (m.bytes.toList.take m.readable).drop position

/-- How a read at a place fails, if it does. -/
def failure (m : Medium) (position : Nat) : Option IoError :=
  match m.manner.fault with
  | some fault => if fault.start ≤ position then some fault.error else none
  | none => none

variable {m : Medium} {p : Nat}

theorem readable_le_size (m : Medium) : m.readable ≤ m.bytes.size := by
  unfold readable
  split
  · exact Nat.min_le_left _ _
  · exact Nat.le_refl _

@[simp] theorem length_bytesFrom (m : Medium) (p : Nat) :
    (m.bytesFrom p).length = m.readable - p := by
  have := m.readable_le_size
  simp [bytesFrom, Nat.min_eq_left this]

theorem bytesFrom_add (m : Medium) (p n : Nat) : m.bytesFrom (p + n) = (m.bytesFrom p).drop n := by
  simp [bytesFrom]

theorem failure_of_faultless (h : m.manner.fault = none) (p : Nat) : m.failure p = none := by
  rw [failure, h]

theorem bytesFrom_of_faultless (h : m.manner.fault = none) (p : Nat) :
    m.bytesFrom p = m.bytes.toList.drop p := by
  rw [bytesFrom, readable, h, List.take_of_length_le]
  simp

/-- Where no bytes are left and reading does not fail, the image ends. -/
theorem size_le_of_failure_eq_none (hp : m.readable ≤ p) (h : m.failure p = none) :
    m.bytes.size ≤ p := by
  unfold readable at hp
  unfold failure at h
  cases hfault : m.manner.fault with
  | none =>
    rw [hfault] at hp
    exact hp
  | some fault =>
    simp only [hfault] at hp h
    split at h
    · cases h
    · omega

end Medium

namespace Reader

variable {m : Medium} {p : Nat} {r : Reader}

/-- The reader is at a place on a medium. -/
structure At (m : Medium) (p : Nat) (r : Reader) : Prop where
  /-- The medium. -/
  medium : r.medium = m
  /-- The offset of the next byte. -/
  position : r.position = p

theorem At.seek (h : r.At m p) (q : Nat) : (r.seek q).At m q := ⟨h.medium, rfl⟩

theorem at_ofMedium (m : Medium) : (ofMedium m).At m 0 := ⟨rfl, rfl⟩

/-- Behind the bytes that can be read, a read delivers nothing, or fails if the medium does. -/
theorem read_of_bytesFrom_nil (h : r.At m p) (hb : m.bytesFrom p = []) (n : Nat) :
    Ends (fun got r' => got = [] ∧ m.failure p = none ∧ r'.At m p)
      (fun e r' => m.failure p = some e ∧ r'.At m p) (read n r) := by
  obtain ⟨rfl, rfl⟩ := h
  have hlen : r.medium.readable ≤ r.position := by
    have := r.medium.length_bytesFrom r.position
    rw [hb, List.length_nil] at this
    omega
  have hgot : ∀ q, (r.medium.bytes.extract r.position (min q r.medium.readable)).toList = [] := by
    intro q
    simp only [Array.toList_eq_nil_iff, Array.extract_eq_empty_iff]
    omega
  simp only [read, Medium.failure, hgot, List.length_nil]
  cases r.medium.manner.fault with
  | none => exact ⟨rfl, rfl, rfl, rfl⟩
  | some fault =>
    by_cases hf : fault.start ≤ r.position
    · simp only [if_pos hf]
      exact ⟨rfl, rfl, rfl⟩
    · simp only [if_neg hf]
      exact ⟨rfl, trivial, rfl, rfl⟩

/-- Where there are bytes, a read delivers some of them. -/
theorem read_of_bytesFrom_ne_nil (h : r.At m p) (hb : m.bytesFrom p ≠ []) {n : Nat} (hn : 0 < n) :
    ∃ k r', read n r = .ok ((m.bytesFrom p).take k) r' ∧ 0 < k ∧ k ≤ n ∧
      k ≤ (m.bytesFrom p).length ∧ r'.At m (p + k) := by
  obtain ⟨rfl, rfl⟩ := h
  have hlt : r.position < r.medium.readable := by
    have := List.length_pos_iff.2 hb
    rw [Medium.length_bytesFrom] at this
    omega
  -- however short the medium likes its reads, one of them has a byte
  set most := min n (max 1 (r.medium.manner.burst r.reads n)) with hmost
  set stop := min (r.position + most) r.medium.readable with hstop
  have hgot : (r.medium.bytes.extract r.position stop).toList =
      (r.medium.bytesFrom r.position).take (stop - r.position) := by
    rw [Array.toList_extract, List.extract_eq_take_drop, Medium.bytesFrom, List.drop_take,
      List.take_take]
    congr 1
    omega
  have hlen : ((r.medium.bytesFrom r.position).take (stop - r.position)).length =
      stop - r.position := by
    rw [List.length_take, Medium.length_bytesFrom]
    omega
  refine ⟨stop - r.position, ⟨r.medium, r.position + (stop - r.position), r.reads + 1⟩, ?_,
    by omega, by omega, by rw [Medium.length_bytesFrom]; omega, rfl, rfl⟩
  have hfault : ∀ fault, r.medium.manner.fault = some fault → ¬ fault.start ≤ r.position := by
    intro fault hf
    rw [Medium.readable, hf] at hlt
    simp only at hlt
    omega
  unfold read
  simp only [← hmost, ← hstop, hgot, hlen]
  split
  · rw [if_neg (hfault _ ‹_›)]
  · rfl

/-- What a reader on `m` delivers, where `stop` is the place behind the last byte. -/
def Holds (m : Medium) (stop : Nat) (bytes : List UInt8) (r : Reader) : Prop :=
  ∃ p, r.At m p ∧ bytes = m.bytesFrom p ∧ p + bytes.length = stop

theorem At.holds (h : r.At m p) : Holds m (p + (m.bytesFrom p).length) (m.bytesFrom p) r :=
  ⟨p, h, rfl, rfl⟩

/-- **Reading delivers the bytes in order**, in whatever pieces. -/
theorem read_supplies (m : Medium) (stop : Nat) : Supplies read (Holds m stop) := by
  rintro n r _ ⟨p, hr, rfl, hstop⟩ hne hn
  obtain ⟨k, r', hread, hk, hkn, hkl, hr'⟩ := read_of_bytesFrom_ne_nil hr hne hn
  refine ⟨_, m.bytesFrom (p + k), r', hread, ?_, ?_, ?_, p + k, hr', rfl, ?_⟩
  · rw [ne_eq, List.take_eq_nil_iff]
    simp [hne]; omega
  · rw [List.length_take]; omega
  · rw [Medium.bytesFrom_add, List.take_append_drop]
  · rw [← hstop, Medium.bytesFrom_add, List.length_drop]; omega

theorem gather_of_le (h : r.At m p) {n : Nat} (hn : n ≤ (m.bytesFrom p).length) :
    ∃ r', gather read n r = .ok ((m.bytesFrom p).take n) r' ∧ r'.At m (p + n) := by
  obtain ⟨got, r', hg, rfl, q, hq, hd, hs⟩ :=
    (WellLog.gather_of_le (read_supplies m _) n r _ h.holds hn).exists_ok
  refine ⟨r', hg, ?_⟩
  have : q = p + n := by
    rw [List.length_drop] at hs
    omega
  exact this ▸ hq

theorem gather_of_lt (h : r.At m p) {n : Nat} (hn : (m.bytesFrom p).length < n) :
    Ends (fun got r' => got = m.bytesFrom p ∧ m.failure (p + (m.bytesFrom p).length) = none ∧
        r'.At m (p + (m.bytesFrom p).length))
      (fun e r' => m.failure (p + (m.bytesFrom p).length) = some e ∧ r'.medium = m)
      (gather read n r) := by
  refine WellLog.gather_of_lt (read_supplies m _) ?_ n r _ h.holds hn
  rintro k r - ⟨q, hq, hnil, hs⟩
  have : q = p + (m.bytesFrom p).length := by simpa using hs
  subst this
  exact (read_of_bytesFrom_nil hq hnil.symm k).mono (fun _ _ h => h) fun _ _ h => ⟨h.1, h.2.medium⟩

end Reader

end WellLog
