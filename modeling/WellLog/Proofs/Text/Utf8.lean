import WellLog.Text.Utf8
/-!
# UTF-8 text is read as it is written

* `Utf8.first_two`, `Utf8.first_three`, `Utf8.first_four` : the first character of bytes, by the
  numbers in them.
* `Utf8.decodeChars_encodeChar` : the bytes of a character are read as this character.
* `Utf8.decode_encode` : **text is read as it is written**.
-/

namespace WellLog.Utf8

variable {lead b c d : UInt8} {rest : List UInt8} {a x y z : Nat}

/-! ### The first character -/

theorem isTail_of_toNat (hb : b.toNat = x + 128) (hx : x < 64) : isTail b = true := by
  simp only [isTail, Bool.and_eq_true, decide_eq_true_eq, UInt8.le_iff_toNat_le, UInt8.reduceToNat]
  omega

theorem payload_of_toNat (hb : b.toNat = x + 128) (hx : x < 64) : payload b = x := by
  rw [payload, hb]
  omega

/-- The bytes of a range, as numbers. -/
theorem range_iff {low high : UInt8} :
    (low ≤ b && b ≤ high) = true ↔ low.toNat ≤ b.toNat ∧ b.toNat ≤ high.toNat := by
  simp only [Bool.and_eq_true, decide_eq_true_eq, UInt8.le_iff_toNat_le]

theorem beq_iff_toNat : (b == c) = true ↔ b.toNat = c.toNat := by
  rw [beq_iff_eq, UInt8.toNat_inj]

theorem first_one (hlead : lead.toNat < 128) : first lead rest = (Char.ofNat lead.toNat, 0) := by
  have hone : lead < 0x80 := UInt8.lt_iff_toNat_lt.2 hlead
  simp only [first, hone, if_true]

theorem not_lt_of_toNat (h : 128 ≤ lead.toNat) : ¬ lead < 0x80 := by
  rw [UInt8.lt_iff_toNat_lt]
  exact Nat.not_lt.2 h

theorem first_two (hlead : lead.toNat = a + 192) (hb : b.toNat = x + 128) (ha : 2 ≤ a ∧ a < 32)
    (hx : x < 64) : first lead (b :: rest) = (Char.ofNat (a * 64 + x), 1) := by
  have hone := @not_lt_of_toNat lead (by omega)
  have htwo : (0xC2 ≤ lead && lead ≤ 0xDF) = true := range_iff.2 (by simp; omega)
  have hmod : lead.toNat % 32 = a := by omega
  simp only [first, hone, htwo, isTail_of_toNat hb hx, payload_of_toNat hb hx, hmod, if_true,
    if_false]

/-- The second of three or four bytes, where neither overlong forms nor surrogates nor numbers that
are too large begin so. -/
theorem isSecond_of_toNat (hb : b.toNat = x + 128) (hx : x < 64)
    (hE0 : lead.toNat = 224 → 32 ≤ x) (hED : lead.toNat = 237 → x < 32)
    (hF0 : lead.toNat = 240 → 16 ≤ x) (hF4 : lead.toNat = 244 → x < 16) :
    isSecond lead b = true := by
  unfold isSecond
  simp only [beq_iff_toNat, UInt8.reduceToNat]
  split
  · have hlow := hE0 ‹_›
    exact range_iff.2 (by simp only [UInt8.reduceToNat]; omega)
  split
  · have hhigh := hED ‹_›
    exact range_iff.2 (by simp only [UInt8.reduceToNat]; omega)
  split
  · have hlow := hF0 ‹_›
    exact range_iff.2 (by simp only [UInt8.reduceToNat]; omega)
  split
  · have hhigh := hF4 ‹_›
    exact range_iff.2 (by simp only [UInt8.reduceToNat]; omega)
  · exact isTail_of_toNat hb hx

theorem first_three (hlead : lead.toNat = a + 224) (hb : b.toNat = x + 128) (hc : c.toNat = y + 128)
    (ha : a < 16) (hx : x < 64) (hy : y < 64) (hlow : a = 0 → 32 ≤ x) (hhigh : a = 13 → x < 32) :
    first lead (b :: c :: rest) = (Char.ofNat (a * 4096 + x * 64 + y), 2) := by
  have hone := @not_lt_of_toNat lead (by omega)
  have htwo : ¬ (0xC2 ≤ lead && lead ≤ 0xDF) = true := mt range_iff.1 (by simp; omega)
  have hthree : (0xE0 ≤ lead && lead ≤ 0xEF) = true := range_iff.2 (by simp; omega)
  have hsecond : isSecond lead b = true :=
    isSecond_of_toNat hb hx (by omega) (by omega) (by omega) (by omega)
  have hmod : lead.toNat % 16 = a := by omega
  simp only [first, hone, htwo, hthree, hsecond, isTail_of_toNat hc hy, payload_of_toNat hb hx,
    payload_of_toNat hc hy, hmod, Bool.false_eq_true, if_true, if_false]

theorem first_four (hlead : lead.toNat = a + 240) (hb : b.toNat = x + 128) (hc : c.toNat = y + 128)
    (hd : d.toNat = z + 128) (ha : a ≤ 4) (hx : x < 64) (hy : y < 64) (hz : z < 64)
    (hlow : a = 0 → 16 ≤ x) (hhigh : a = 4 → x < 16) :
    first lead (b :: c :: d :: rest) =
      (Char.ofNat (a * 262144 + x * 4096 + y * 64 + z), 3) := by
  have hone := @not_lt_of_toNat lead (by omega)
  have htwo : ¬ (0xC2 ≤ lead && lead ≤ 0xDF) = true := mt range_iff.1 (by simp; omega)
  have hthree : ¬ (0xE0 ≤ lead && lead ≤ 0xEF) = true := mt range_iff.1 (by simp; omega)
  have hfour : (0xF0 ≤ lead && lead ≤ 0xF4) = true := range_iff.2 (by simp; omega)
  have hsecond : isSecond lead b = true :=
    isSecond_of_toNat hb hx (by omega) (by omega) (by omega) (by omega)
  have hmod : lead.toNat % 8 = a := by omega
  simp only [first, hone, htwo, hthree, hfour, hsecond, isTail_of_toNat hc hy,
    isTail_of_toNat hd hz, payload_of_toNat hb hx, payload_of_toNat hc hy, payload_of_toNat hd hz, hmod,
    Bool.false_eq_true, if_true, if_false]

/-! ### Text -/

/-- The first character of some bytes, and the others behind it. -/
theorem decodeChars_cons {char : Char} (tail : List UInt8)
    (h : first lead (tail ++ rest) = (char, tail.length)) :
    decodeChars (lead :: (tail ++ rest)) = char :: decodeChars rest := by
  rw [decodeChars]
  simp only [h, List.drop_left]

/-- **The bytes of a character are read as this character.** -/
theorem decodeChars_encodeChar (char : Char) (rest : List UInt8) :
    decodeChars (String.utf8EncodeChar char ++ rest) = char :: decodeChars rest := by
  obtain ⟨v, hv⟩ : ∃ v, v = char.val.toNat := ⟨_, rfl⟩
  have hchar : Char.ofNat v = char := hv ▸ Char.ofNat_toNat char
  have hvalid : v < 55296 ∨ 57343 < v ∧ v < 1114112 := hv ▸ char.valid
  have hbyte : ∀ n < 256, (UInt8.ofNat n).toNat = n := fun n hn => UInt8.toNat_ofNat_of_lt hn
  unfold String.utf8EncodeChar
  simp only [← hv]
  -- One case for every number of bytes: the pieces that they carry make up the number again.
  split
  · refine decodeChars_cons [] ?_
    rw [first_one, hbyte v (by omega), hchar, List.length_nil]
    rw [hbyte v (by omega)]
    omega
  split
  · refine decodeChars_cons [_] ?_
    have hnumber : v / 64 % 32 * 64 + v % 64 = v := by omega
    have hfirst : first _ (_ :: rest) = _ := first_two (hbyte (v / 64 % 32 + 192) (by omega))
      (hbyte (v % 64 + 128) (by omega)) (by omega) (by omega)
    rwa [hnumber, hchar] at hfirst
  split
  · refine decodeChars_cons [_, _] ?_
    have hnumber : v / 4096 % 16 * 4096 + v / 64 % 64 * 64 + v % 64 = v := by omega
    have hfirst : first _ (_ :: _ :: rest) = _ := first_three
      (hbyte (v / 4096 % 16 + 224) (by omega)) (hbyte (v / 64 % 64 + 128) (by omega)) (hbyte (v % 64 + 128) (by omega)) (by omega)
      (by omega) (by omega) (by omega) (by omega)
    rwa [hnumber, hchar] at hfirst
  · refine decodeChars_cons [_, _, _] ?_
    have hnumber :
        v / 262144 % 8 * 262144 + v / 4096 % 64 * 4096 + v / 64 % 64 * 64 + v % 64 = v := by omega
    have hfirst : first _ (_ :: _ :: _ :: rest) = _ := first_four
      (hbyte (v / 262144 % 8 + 240) (by omega)) (hbyte (v / 4096 % 64 + 128) (by omega)) (hbyte (v / 64 % 64 + 128) (by omega))
      (hbyte (v % 64 + 128) (by omega)) (by omega) (by omega) (by omega) (by omega) (by omega)
      (by omega)
    rwa [hnumber, hchar] at hfirst

/-- A loop over the bytes of an array from some place on. -/
theorem toList_loop_eq (bytes : ByteArray) (i : Nat) (read : List UInt8) :
    ByteArray.toList.loop bytes i read = read.reverse ++ bytes.data.toList.drop i := by
  fun_induction ByteArray.toList.loop bytes i read with
  | case1 i read h ih =>
    have hi : i < bytes.data.toList.length := by simpa using h
    rw [ih, List.drop_eq_getElem_cons hi]
    simp [ByteArray.get!, h]
  | case2 i read h =>
    rw [List.drop_eq_nil_of_le (by simpa using Nat.le_of_not_lt h)]
    simp

/-- The bytes of a text are those of its characters. -/
theorem encode_eq (text : String) : encode text = text.toList.flatMap String.utf8EncodeChar := by
  have hbytes : text.toUTF8 = (text.toList.flatMap String.utf8EncodeChar).toByteArray := by
    rw [String.toUTF8, ← String.ofList_toList (s := text), String.toByteArray_ofList,
      String.ofList_toList, List.utf8Encode]
  rw [encode, ByteArray.toList, toList_loop_eq, hbytes, List.toList_data_toByteArray]
  rfl

/-- **Text is read as it is written.** -/
theorem decode_encode (text : String) : decode (encode text) = text := by
  have hchars : ∀ chars : List Char, decodeChars (chars.flatMap String.utf8EncodeChar) = chars := by
    intro chars
    induction chars with
    | nil => rw [List.flatMap_nil, decodeChars]
    | cons char chars ih => rw [List.flatMap_cons, decodeChars_encodeChar, ih]
  rw [decode, encode_eq, hchars, String.ofList_toList]

end WellLog.Utf8
