import WellLog.Proofs.Segment
/-!
# Visible records as they are written

`Packed bodies` says that every piece of a stream is one that a visible record can hold.

* `unwrap_pack` : visible records deliver the pieces that they were packed with.
* `advance_pack` : behind the last piece, what follows the visible records is ahead.
-/

namespace WellLog

/-- Each of the pieces can be the body of a visible record. -/
def Packed (bodies : List (List UInt8)) : Prop :=
  ∀ b ∈ bodies, VisibleHeader.minLength ≤ b.length + VisibleHeader.size ∧
    b.length + VisibleHeader.size ≤ 65535

instance (bodies : List (List UInt8)) : Decidable (Packed bodies) :=
  inferInstanceAs (Decidable (∀ b ∈ bodies, _ ∧ _))

/-- Visible records with the given bodies. -/
def pack (bodies : List (List UInt8)) : List UInt8 := bodies.flatMap Image.visibleRecord

variable {bodies : List (List UInt8)} {b rest : List UInt8} {ending : Ending}

theorem Packed.tail {b : List UInt8} (h : Packed (b :: bodies)) : Packed bodies :=
  fun b' hb' => h b' (List.mem_cons_of_mem b hb')

/-- The header of a visible record is valid. -/
theorem headerAt_visibleRecord (hmin : VisibleHeader.minLength ≤ b.length + VisibleHeader.size)
    (hmax : b.length + VisibleHeader.size ≤ 65535) (rest : List UInt8) :
    ∃ header, HeaderAt (Image.visibleRecord b ++ rest) header (b ++ rest) ∧
      header.bodyLength = b.length := by
  obtain ⟨x, y, hbytes, hlength⟩ := bigEndianBytes_two (Nat.lt_succ_of_le hmax)
  refine ⟨.ofBytes x y 0xFF 0x01, ⟨x, y, 0xFF, 0x01, ?_, rfl, rfl, rfl, ?_⟩, ?_⟩
  · simp only [Image.visibleRecord, hbytes, List.cons_append, List.nil_append]
  · simp only [VisibleHeader.ofBytes, hlength]
    exact hmin
  · simp only [VisibleHeader.ofBytes, VisibleHeader.bodyLength, hlength]
    omega

/-- Visible records deliver their bodies. -/
theorem unwrap_pack (h : Packed bodies) (rest : List UInt8) :
    unwrap ending (pack bodies ++ rest) =
      ⟨bodies.flatten ++ (unwrap ending rest).bytes, (unwrap ending rest).ending⟩ := by
  induction bodies with
  | nil => rfl
  | cons b bodies ih =>
    obtain ⟨hmin, hmax⟩ := h b List.mem_cons_self
    obtain ⟨header, hheader, hlen⟩ := headerAt_visibleRecord hmin hmax (pack bodies ++ rest)
    have hcomplete : b.length ≤ (b ++ (pack bodies ++ rest)).length := by
      rw [List.length_append]
      omega
    rw [pack, List.flatMap_cons, List.append_assoc, ← pack, ← Outlook.contents_zero,
      ← Outlook.contents_enter hheader, Outlook.contents, hlen, if_pos hcomplete]
    simp only [List.take_left, List.drop_left, ih h.tail, List.flatten_cons, List.append_assoc]

/-- Behind the bodies, what follows the visible records is ahead. -/
theorem advance_pack (h : Packed bodies) (rest : List UInt8) :
    Outlook.advance bodies.flatten.length ⟨0, pack bodies ++ rest⟩ = ⟨0, rest⟩ := by
  induction bodies with
  | nil => exact Outlook.advance_zero _
  | cons b bodies ih =>
    obtain ⟨hmin, hmax⟩ := h b List.mem_cons_self
    obtain ⟨header, hheader, hlen⟩ := headerAt_visibleRecord hmin hmax (pack bodies ++ rest)
    have hpos : 0 < b.length := hlen ▸ hheader.bodyLength_pos
    have hbody : Outlook.advance b.length ⟨header.bodyLength, b ++ (pack bodies ++ rest)⟩ =
        ⟨0, pack bodies ++ rest⟩ := by
      rw [Outlook.advance_of_le (Nat.le_of_eq hlen.symm)]
      simp only [hlen, Nat.sub_self, List.drop_left]
    rw [pack, List.flatMap_cons, List.append_assoc, ← pack, List.flatten_cons, List.length_append,
      Outlook.advance_add, Outlook.advance_enter hheader hpos, hbody, ih h.tail]

end WellLog
