import Mathlib.Tactic.SplitIfs
import WellLog.Proofs.Text.Utf8
/-!
# Text is ordered by its bytes

The order of text is that of its characters.  UTF-8 keeps it: text comes in front of other text iff
its bytes come in front of the bytes of the other.

* `Utf8.encodeChar_append_lt` : of two different characters the first has the first bytes, whatever
  follows.
* `Utf8.encode_lt_encode_iff` : **text is ordered by its bytes**.
-/

namespace WellLog.Utf8

/-- Two bytes that are given by numbers, with others behind them. -/
theorem ofNat_cons_lt {m n : Nat} {bytes bytes' : List UInt8} (hm : m < 256) (hn : n < 256)
    (h : m < n ∨ m = n ∧ bytes < bytes') : UInt8.ofNat m :: bytes < UInt8.ofNat n :: bytes' := by
  rw [List.cons_lt_cons_iff]
  rcases h with hlt | ⟨rfl, hbytes⟩
  · left
    have hm' : (UInt8.ofNat m).toNat = m := UInt8.toNat_ofNat_of_lt hm
    have hn' : (UInt8.ofNat n).toNat = n := UInt8.toNat_ofNat_of_lt hn
    rw [UInt8.lt_iff_toNat_lt, hm', hn']
    exact hlt
  · exact .inr ⟨rfl, hbytes⟩

/-- **Of two different characters the first has the first bytes**, whatever follows. -/
theorem encodeChar_append_lt {c d : Char} (h : c < d) (bytes bytes' : List UInt8) :
    String.utf8EncodeChar c ++ bytes < String.utf8EncodeChar d ++ bytes' := by
  have hlt : c.val.toNat < d.val.toNat := h
  have hd : d.val.toNat < 1114112 := by
    rcases d.valid with hlow | ⟨-, hhigh⟩
    · exact Nat.lt_trans hlow (by decide)
    · exact hhigh
  unfold String.utf8EncodeChar
  generalize c.val.toNat = v at hlt
  generalize d.val.toNat = w at hlt hd
  simp only
  -- With more bytes the lead byte is greater.  With as many bytes, the first byte in which the two
  -- differ carries the first digit in which `v` and `w` differ.
  split_ifs <;> try omega
  · exact ofNat_cons_lt (by omega) (by omega) (.inl hlt)
  · exact ofNat_cons_lt (by omega) (by omega) (.inl (by omega))
  · exact ofNat_cons_lt (by omega) (by omega) (.inl (by omega))
  · exact ofNat_cons_lt (by omega) (by omega) (.inl (by omega))
  · refine ofNat_cons_lt (by omega) (by omega) ?_
    by_cases hfirst : v / 64 = w / 64
    · exact .inr ⟨by omega, ofNat_cons_lt (by omega) (by omega) (.inl (by omega))⟩
    · exact .inl (by omega)
  · exact ofNat_cons_lt (by omega) (by omega) (.inl (by omega))
  · exact ofNat_cons_lt (by omega) (by omega) (.inl (by omega))
  · refine ofNat_cons_lt (by omega) (by omega) ?_
    by_cases hfirst : v / 4096 = w / 4096
    · refine .inr ⟨by omega, ofNat_cons_lt (by omega) (by omega) ?_⟩
      by_cases hsecond : v / 64 = w / 64
      · exact .inr ⟨by omega, ofNat_cons_lt (by omega) (by omega) (.inl (by omega))⟩
      · exact .inl (by omega)
    · exact .inl (by omega)
  · exact ofNat_cons_lt (by omega) (by omega) (.inl (by omega))
  · refine ofNat_cons_lt (by omega) (by omega) ?_
    by_cases hfirst : v / 262144 = w / 262144
    · refine .inr ⟨by omega, ofNat_cons_lt (by omega) (by omega) ?_⟩
      by_cases hsecond : v / 4096 = w / 4096
      · refine .inr ⟨by omega, ofNat_cons_lt (by omega) (by omega) ?_⟩
        by_cases hthird : v / 64 = w / 64
        · exact .inr ⟨by omega, ofNat_cons_lt (by omega) (by omega) (.inl (by omega))⟩
        · exact .inl (by omega)
      · exact .inl (by omega)
    · exact .inl (by omega)

/-- The bytes of characters are ordered as the characters are. -/
theorem flatMap_encodeChar_lt {cs ds : List Char} (h : cs < ds) :
    cs.flatMap String.utf8EncodeChar < ds.flatMap String.utf8EncodeChar := by
  induction cs generalizing ds with
  | nil =>
    cases ds with
    | nil => exact absurd h (List.lt_irrefl [])
    | cons d ds =>
      rw [List.flatMap_nil, List.flatMap_cons]
      obtain ⟨b, bytes, hb⟩ := List.exists_cons_of_ne_nil (String.utf8EncodeChar_ne_nil (c := d))
      rw [hb]
      exact List.nil_lt_cons _ _
  | cons c cs ih =>
    cases ds with
    | nil => exact absurd h (List.not_lt_nil _)
    | cons d ds =>
      rw [List.flatMap_cons, List.flatMap_cons]
      rcases List.cons_lt_cons_iff.1 h with hlt | ⟨rfl, hrest⟩
      · exact encodeChar_append_lt hlt _ _
      · exact List.append_left_lt (ih hrest)

/-- **Text is ordered by its bytes.** -/
theorem encode_lt_encode_iff {s t : String} : encode s < encode t ↔ s < t := by
  have hmono : ∀ {s t : String}, s < t → encode s < encode t := by
    intro s t h
    have hchars : s.toList < t.toList := h
    rw [encode_eq, encode_eq]
    exact flatMap_encodeChar_lt hchars
  refine ⟨fun h => ?_, hmono⟩
  rcases Std.lt_trichotomy s t with hlt | rfl | hgt
  · exact hlt
  · exact absurd h (List.lt_irrefl _)
  · exact absurd (List.lt_trans h (hmono hgt)) (List.lt_irrefl _)

end WellLog.Utf8
