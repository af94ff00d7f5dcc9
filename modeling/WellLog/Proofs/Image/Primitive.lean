import Mathlib.Algebra.Order.Ring.Int
import WellLog.Image.Primitive
import WellLog.Proofs.Decode.Spelling
import WellLog.Proofs.Text.Utf8
/-!
# Elementary parts are read as they are written

A field of fixed width holds the numbers below a power of 256, an identifier has at most 255 bytes,
and the numbers of varying width end below `2 ^ 30`, since two bits of the first byte say how wide
they are.  What fits is spelled by the bytes that are written.

* `Image.bigEndian_bigEndianBytes` : a field holds a number up to multiples of a power of 256.
* `Image.spells_varying`, `Image.spells_identifier`, `Image.spells_string`,
  `Image.spells_objectName`, `Image.spells_signedLong`, `Image.spells_double` : **what is written is
  read**, whatever follows.
-/

namespace WellLog.Image

open Decode

/-! ### What fits -/

/-- A text is short enough for an identifier. -/
def IdentifierFits (text : String) : Prop := (Utf8.encode text).length ≤ 255

/-- A text is short enough for a string. -/
def StringFits (text : String) : Prop := (Utf8.encode text).length < 2 ^ 30

/-- The origin of an object name is small enough, and its identifier is short enough. -/
def NameFits (n : ObjectName) : Prop := n.origin < 2 ^ 30 ∧ IdentifierFits n.id

/-- A number fits into four bytes in two's complement. -/
def LongFits (n : Int) : Prop := -2 ^ 31 ≤ n ∧ n < 2 ^ 31

/-! ### Numbers -/

theorem length_bigEndianBytes (width n : Nat) : (bigEndianBytes width n).length = width := by
  induction width with
  | zero => rfl
  | succ width ih => rw [bigEndianBytes, List.length_cons, ih]

/-- The bytes of a number behind those of another one count on from it. -/
theorem foldl_eq_bigEndian (bytes : List UInt8) (n : Nat) :
    bytes.foldl (fun n b => n * 256 + b.toNat) n = n * 256 ^ bytes.length + bigEndian bytes := by
  induction bytes generalizing n with
  | nil => rw [List.foldl_nil, List.length_nil, Nat.pow_zero, Nat.mul_one]; rfl
  | cons b bytes ih =>
    rw [bigEndian, List.foldl_cons, List.foldl_cons, ih, ih (0 * 256 + b.toNat), List.length_cons,
      Nat.pow_succ', Nat.zero_mul, Nat.zero_add, Nat.add_mul, Nat.mul_assoc, Nat.add_assoc]

/-- A field holds a number up to multiples of a power of 256. -/
theorem bigEndian_bigEndianBytes (width n : Nat) :
    bigEndian (bigEndianBytes width n) = n % 256 ^ width := by
  induction width with
  | zero => rw [Nat.pow_zero, Nat.mod_one]; rfl
  | succ width ih =>
    have hpow : 2 ^ (8 * width) = 256 ^ width := Nat.pow_mul 2 8 width
    have hbyte : (UInt8.ofNat (n / 256 ^ width)).toNat = n / 256 ^ width % 256 := UInt8.toNat_ofNat'
    rw [bigEndianBytes, bigEndian, List.foldl_cons, foldl_eq_bigEndian, ih, length_bigEndianBytes,
      Nat.shiftRight_eq_div_pow, hpow, hbyte, Nat.zero_mul, Nat.zero_add, Nat.pow_succ,
      Nat.mod_mul, Nat.mul_comm, Nat.add_comm]

theorem spells_bigEndianBytes {width n : Nat} (h : n < 256 ^ width) :
    Spells (unsigned width) (bigEndianBytes width n) n := by
  rw [spells_unsigned_iff, length_bigEndianBytes, bigEndian_bigEndianBytes, Nat.mod_eq_of_lt h]
  exact ⟨rfl, rfl⟩

/-- Some bytes are a number of varying width, if the first one says that there are so many. -/
theorem spells_varying_bigEndianBytes {width m n high : Nat} (hhigh : m >>> (8 * width) = high)
    (hbyte : high < 256)
    (hwidth : (if high < 128 then 1 else if high < 192 then 2 else 4) = width + 1)
    (hn : n = if high < 128 then m % 256 ^ (width + 1)
      else if high < 192 then m % 256 ^ (width + 1) % 0x4000
      else m % 256 ^ (width + 1) % 0x40000000) :
    Spells Decode.varying (bigEndianBytes (width + 1) m) n := by
  have hfirst : (UInt8.ofNat high).toNat = high := UInt8.toNat_ofNat_of_lt hbyte
  have hlow : UInt8.ofNat high < 0x80 ↔ high < 128 := by
    rw [UInt8.lt_iff_toNat_lt, hfirst]
    exact Iff.rfl
  have hmiddle : UInt8.ofNat high < 0xC0 ↔ high < 192 := by
    rw [UInt8.lt_iff_toNat_lt, hfirst]
    exact Iff.rfl
  refine spells_varying_iff.2 ⟨UInt8.ofNat high, bigEndianBytes width m, ?_, ?_⟩
  · rw [bigEndianBytes, hhigh]
  · rw [spells_varyingFrom_iff, length_bigEndianBytes, bigEndian_bigEndianBytes, varyingWidth]
    simp only [hlow, hmiddle]
    exact ⟨hwidth.symm, hn⟩

/-- **A number of varying width is read as it is written.** -/
theorem spells_varying {n : Nat} (h : n < 2 ^ 30) : Spells Decode.varying (varying n) n := by
  unfold varying
  split
  · have hhigh : n >>> (8 * 0) = n := rfl
    refine spells_varying_bigEndianBytes hhigh (by omega) ?_ ?_
    · rw [if_pos (by omega)]
    · rw [if_pos (by omega)]
      omega
  split
  · have hhigh : (n + 0x8000) >>> 8 = n / 256 + 128 := by
      rw [Nat.shiftRight_eq_div_pow]
      omega
    refine spells_varying_bigEndianBytes hhigh (by omega) ?_ ?_
    · rw [if_neg (by omega), if_pos (by omega)]
    · rw [if_neg (by omega), if_pos (by omega)]
      omega
  · -- The two high bits are free, so that setting them adds what they count.
    have hor : n ||| 0xC0000000 = n + 0xC0000000 := by
      have hadd := Nat.two_pow_add_eq_or_of_lt h 3
      rw [Nat.or_comm, Nat.add_comm]
      exact hadd.symm
    have hhigh : (n + 0xC0000000) >>> 24 = n / 16777216 + 192 := by
      rw [Nat.shiftRight_eq_div_pow]
      omega
    rw [hor]
    refine spells_varying_bigEndianBytes hhigh (by omega) ?_ ?_
    · rw [if_neg (by omega), if_neg (by omega)]
    · rw [if_neg (by omega), if_neg (by omega)]
      omega

/-- **A signed integer is read as it is written.** -/
theorem spells_signedLong {n : Int} (h : LongFits n) : Spells (signed 4) (signedLong n) n := by
  have hfits : (n % 4294967296).toNat < 256 ^ 4 := by omega
  have hresidue : Int.ofNat (n % 4294967296).toNat = n % 4294967296 :=
    Int.toNat_of_nonneg (Int.emod_nonneg n (by decide))
  have hbmod : Int.bmod (Int.ofNat (n % 4294967296).toNat) (1 <<< (8 * 4)) = n := by
    obtain ⟨hlow, hhigh⟩ := h
    rw [hresidue]
    exact (Int.emod_bmod n _).trans (Int.bmod_eq_of_le hlow hhigh)
  have hspells : Spells (signed 4) (signedLong n) (Int.bmod _ (1 <<< (8 * 4))) :=
    (spells_bigEndianBytes hfits).map
  rwa [hbmod] at hspells

/-- **A double precision number is read as it is written**, bit by bit. -/
theorem spells_double (x : Binary64) : Spells Decode.double (double x) x := by
  have hbits : (⟨UInt64.ofNat x.bits.toNat⟩ : Binary64) = x := by rw [UInt64.ofNat_toNat]
  have hfits : x.bits.toNat < 256 ^ 8 := x.bits.toNat_lt
  have hspells : Spells Decode.double (double x) ⟨UInt64.ofNat x.bits.toNat⟩ :=
    (spells_bigEndianBytes hfits).map
  rwa [hbits] at hspells

/-! ### Text and names -/

/-- **An identifier is read as it is written.** -/
theorem spells_identifier {text : String} (h : IdentifierFits text) :
    Spells Decode.identifier (identifier text) text := by
  have hlength : (UInt8.ofNat (Utf8.encode text).length).toNat = (Utf8.encode text).length :=
    UInt8.toNat_ofNat_of_lt (Nat.lt_succ_of_le h)
  have hspells := Decode.spells_identifier hlength.symm
  rwa [Utf8.decode_encode] at hspells

/-- **A string is read as it is written.** -/
theorem spells_string {text : String} (h : StringFits text) :
    Spells Decode.string (string text) text := by
  have htake : Spells (take (Utf8.encode text).length) (Utf8.encode text) (Utf8.encode text) :=
    spells_take_iff.2 ⟨rfl, rfl⟩
  have hspells : Spells Decode.string (string text) (Utf8.decode (Utf8.encode text)) :=
    (spells_varying h).bind htake.map
  rwa [Utf8.decode_encode] at hspells

/-- **An object name is read as it is written.** -/
theorem spells_objectName {n : ObjectName} (h : NameFits n) :
    Spells Decode.objectName (objectName n) n := by
  have hcopy : Spells byte [n.copy] n.copy := spells_byte_iff.2 rfl
  exact (spells_varying h.1).bind (hcopy.bind (spells_identifier h.2).map)

end WellLog.Image
