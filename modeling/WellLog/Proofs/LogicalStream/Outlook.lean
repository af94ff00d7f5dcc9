import WellLog.LogicalStream
import WellLog.Proofs.Track.Feed
/-!
# What a logical stream delivers

The logical stream takes the headers of visible records out of what its track delivers.  Here the
same is done with a list of bytes.

An `Outlook` is what lies ahead of a logical stream: the bytes left in the visible record, and the
bytes of the track behind.  `Outlook.contents` are the bytes that the stream delivers from there,
and how they end; `Outlook.advance` is the outlook after some of them.

* `Outlook.contents_advance` : after `n` bytes, the contents are those before without the first `n`.
* `Outlook.advance_add` : bytes may be taken in any pieces.

`Feed.contents` and `Feed.outlook` are the same for a stream that begins where a feed begins.
-/

namespace WellLog

/-- Four bytes are a header, and there is something behind it or nothing. -/
theorem exists_four {bytes : List UInt8} (h : 4 ≤ bytes.length) :
    ∃ a b c d rest, bytes = a :: b :: c :: d :: rest :=
  match bytes, h with
  | a :: b :: c :: d :: rest, _ => ⟨a, b, c, d, rest, rfl⟩

/-- How the contents of a logical stream end. -/
inductive ContentsEnd where
  /-- The track stops at the end of a visible record. -/
  | ended (stop : Stop) (place : Place)
  /-- The bytes are no visible record, or the record is cut short, or the medium fails. -/
  | broken (kind : IoKind)
  deriving DecidableEq

namespace ContentsEnd

/-- The kind of failure of a read that needs more bytes than there are. -/
def shortage : ContentsEnd → IoKind
  | ended _ _ => .unexpectedEof
  | broken kind => kind

end ContentsEnd

namespace Ending

/-- The end of the contents, where the track ends between visible records. -/
def between : Ending → ContentsEnd
  | stopped stop place => .ended stop place
  | failed e => .broken e.kind

/-- The end of the contents, where the track ends inside a visible record. -/
def inside : Ending → ContentsEnd
  | stopped _ _ => .broken .unexpectedEof
  | failed e => .broken e.kind

end Ending

/-- What a logical stream delivers. -/
structure Contents where
  /-- The bytes. -/
  bytes : List UInt8
  /-- How they end. -/
  ending : ContentsEnd
  deriving DecidableEq

/-- The bytes behind the headers of visible records. -/
def unwrap (ending : Ending) : List UInt8 → Contents
  | [] => ⟨[], ending.between⟩
  | a :: b :: c :: d :: rest =>
    let header := VisibleHeader.ofBytes a b c d
    if header.IsValid then
      if header.bodyLength ≤ rest.length then
        let others := unwrap ending (rest.drop header.bodyLength)
        ⟨rest.take header.bodyLength ++ others.bytes, others.ending⟩
      else ⟨rest, ending.inside⟩
    else ⟨[], .broken .invalidData⟩
  | _ => ⟨[], ending.inside⟩
termination_by bytes => bytes.length
decreasing_by
  simp only [List.length_drop, List.length_cons]
  omega

section unwrap

variable {ending : Ending}

theorem unwrap_nil : unwrap ending [] = ⟨[], ending.between⟩ := by
  rw [unwrap]

theorem unwrap_of_length_lt {bytes : List UInt8} (hne : bytes ≠ [])
    (hlt : bytes.length < VisibleHeader.size) : unwrap ending bytes = ⟨[], ending.inside⟩ := by
  rw [unwrap.eq_def]
  split
  · exact absurd rfl hne
  · simp only [List.length_cons, VisibleHeader.size] at hlt
    omega
  · rfl

theorem unwrap_of_not_isValid {a b c d : UInt8} {rest : List UInt8}
    (h : ¬ (VisibleHeader.ofBytes a b c d).IsValid) :
    unwrap ending (a :: b :: c :: d :: rest) = ⟨[], .broken .invalidData⟩ := by
  rw [unwrap]
  simp only [if_neg h]

theorem length_unwrap_le (ending : Ending) (bytes : List UInt8) :
    (unwrap ending bytes).bytes.length ≤ bytes.length := by
  fun_induction unwrap ending bytes with
  | case2 a b c d rest header _ hlen others ih =>
    rw [List.length_drop] at ih
    simp only [others, List.length_append, List.length_take, List.length_cons]
    omega
  | _ => simp only [List.length_nil, List.length_cons]; omega

/-- Contents that end where the track stops end at the end of a visible record. -/
theorem ending_of_unwrap {bytes : List UInt8} {stop : Stop} {p : Place}
    (h : (unwrap ending bytes).ending = .ended stop p) : ending = .stopped stop p := by
  fun_induction unwrap ending bytes with
  | case1 =>
    cases ending with
    | stopped _ _ => cases h; rfl
    | failed _ => cases h
  | case2 a b c d rest header _ _ others ih => exact ih h
  | case3 | case5 => cases ending <;> cases h
  | case4 => cases h

end unwrap

/-- What lies ahead of a logical stream. -/
structure Outlook where
  /-- The bytes left in the visible record. -/
  remaining : Nat
  /-- The bytes of the track. -/
  bytes : List UInt8
  deriving DecidableEq

/-- A valid header, with what is behind it. -/
def HeaderAt (bytes : List UInt8) (header : VisibleHeader) (rest : List UInt8) : Prop :=
  ∃ a b c d, bytes = a :: b :: c :: d :: rest ∧ header = .ofBytes a b c d ∧ header.IsValid

/-- The bytes begin with a valid header. -/
def Headed (bytes : List UInt8) : Prop := ∃ header rest, HeaderAt bytes header rest

theorem headed_iff {a b c d : UInt8} {rest : List UInt8} :
    Headed (a :: b :: c :: d :: rest) ↔ (VisibleHeader.ofBytes a b c d).IsValid := by
  constructor
  · rintro ⟨_, _, _, _, _, _, heq, rfl, hvalid⟩
    cases heq
    exact hvalid
  · exact fun hvalid => ⟨_, rest, a, b, c, d, rfl, rfl, hvalid⟩

theorem Headed.size_le {bytes : List UInt8} (h : Headed bytes) :
    VisibleHeader.size ≤ bytes.length := by
  obtain ⟨header, rest, a, b, c, d, rfl, -⟩ := h
  simp only [List.length_cons, VisibleHeader.size]
  omega

instance (bytes : List UInt8) : Decidable (Headed bytes) :=
  match bytes with
  | _ :: _ :: _ :: _ :: _ => decidable_of_iff _ headed_iff.symm
  | [] | [_] | [_, _] | [_, _, _] =>
    .isFalse fun h => absurd h.size_le (by simp [VisibleHeader.size])

theorem HeaderAt.bodyLength_pos {bytes : List UInt8} {header : VisibleHeader} {rest : List UInt8}
    (h : HeaderAt bytes header rest) : 0 < header.bodyLength := by
  obtain ⟨a, b, c, d, -, -, hvalid⟩ := h
  have := hvalid.2.2
  simp only [VisibleHeader.bodyLength, VisibleHeader.minLength, VisibleHeader.size] at this ⊢
  omega

theorem HeaderAt.size_le {bytes : List UInt8} {header : VisibleHeader} {rest : List UInt8}
    (h : HeaderAt bytes header rest) : VisibleHeader.size ≤ bytes.length := by
  obtain ⟨a, b, c, d, rfl, -⟩ := h
  simp only [List.length_cons, VisibleHeader.size]
  omega

namespace Outlook

variable {ending : Ending} {o : Outlook}

/-- The bytes that the stream delivers. -/
def contents (ending : Ending) (o : Outlook) : Contents :=
  if o.remaining ≤ o.bytes.length then
    let others := unwrap ending (o.bytes.drop o.remaining)
    ⟨o.bytes.take o.remaining ++ others.bytes, others.ending⟩
  else ⟨o.bytes, ending.inside⟩

/-- The outlook after `n` bytes.  The header of a visible record is passed with its first byte, not
with the last byte of the record before. -/
def advance (n : Nat) (o : Outlook) : Outlook :=
  if n = 0 then o
  else if n ≤ o.remaining then ⟨o.remaining - n, o.bytes.drop n⟩
  else
    match _rest : o.bytes.drop o.remaining with
    | a :: b :: c :: d :: rest =>
      advance (n - o.remaining) ⟨(VisibleHeader.ofBytes a b c d).bodyLength, rest⟩
    | _ => ⟨0, []⟩
termination_by o.bytes.length
decreasing_by
  have := congrArg List.length _rest
  simp only [List.length_drop, List.length_cons] at this
  omega

theorem contents_zero (bytes : List UInt8) : contents ending ⟨0, bytes⟩ = unwrap ending bytes := by
  simp [contents]

/-- Passing a header does not change the contents. -/
theorem contents_enter {bytes rest : List UInt8} {header : VisibleHeader}
    (h : HeaderAt bytes header rest) :
    contents ending ⟨header.bodyLength, rest⟩ = contents ending ⟨0, bytes⟩ := by
  obtain ⟨a, b, c, d, rfl, rfl, hvalid⟩ := h
  rw [contents_zero, unwrap]
  simp only [contents, if_pos hvalid]

@[simp] theorem advance_zero (o : Outlook) : o.advance 0 = o := by
  rw [advance, if_pos rfl]

theorem advance_of_le {n : Nat} (h : n ≤ o.remaining) :
    o.advance n = ⟨o.remaining - n, o.bytes.drop n⟩ := by
  rw [advance, if_pos h]
  split
  · subst n
    rfl
  · rfl

theorem advance_of_lt {n : Nat} (h : o.remaining < n) {a b c d : UInt8} {rest : List UInt8}
    (hd : o.bytes.drop o.remaining = a :: b :: c :: d :: rest) :
    o.advance n =
      advance (n - o.remaining) ⟨(VisibleHeader.ofBytes a b c d).bodyLength, rest⟩ := by
  rw [advance, if_neg (by omega), if_neg (by omega)]
  split
  · rename_i heq
    rw [hd] at heq
    cases heq
    rfl
  · rename_i hno
    exact absurd hd (hno a b c d rest)

/-- Where no header follows, nothing does. -/
theorem advance_of_short {n : Nat} (h : o.remaining < n)
    (hd : ∀ a b c d rest, o.bytes.drop o.remaining ≠ a :: b :: c :: d :: rest) :
    o.advance n = ⟨0, []⟩ := by
  rw [advance, if_neg (by omega), if_neg (by omega)]
  split
  · rename_i heq
    exact absurd heq (hd _ _ _ _ _)
  · rfl

/-- Behind a header, bytes are taken as in front of it. -/
theorem advance_enter {bytes rest : List UInt8} {header : VisibleHeader} {n : Nat}
    (h : HeaderAt bytes header rest) (hn : 0 < n) :
    advance n ⟨0, bytes⟩ = advance n ⟨header.bodyLength, rest⟩ := by
  obtain ⟨a, b, c, d, rfl, rfl, -⟩ := h
  exact advance_of_lt (o := ⟨0, _⟩) hn rfl

theorem advance_nil (n : Nat) : advance n ⟨0, []⟩ = ⟨0, []⟩ := by
  by_cases hn : n = 0
  · rw [hn, advance_zero]
  · exact advance_of_short (Nat.pos_of_ne_zero hn) (by simp)

/-- Bytes may be taken in any pieces. -/
theorem advance_add (a b : Nat) (o : Outlook) : o.advance (a + b) = (o.advance a).advance b := by
  -- along the visible records that the first `a` bytes come from
  fun_induction advance a o with
  | case1 o => rw [Nat.zero_add]
  | case2 a o ha hle =>
    by_cases hb : a + b ≤ o.remaining
    · rw [advance_of_le hb, advance_of_le (by simp only; omega), List.drop_drop, Nat.sub_sub]
    · have hdrop : (o.bytes.drop a).drop (o.remaining - a) = o.bytes.drop o.remaining := by
        rw [List.drop_drop]
        congr 1
        omega
      have hlt : o.remaining - a < b := by omega
      by_cases hshort : ∃ p q r t rest, o.bytes.drop o.remaining = p :: q :: r :: t :: rest
      · obtain ⟨p, q, r, t, rest, hd⟩ := hshort
        rw [advance_of_lt (by omega) hd,
          advance_of_lt (o := ⟨o.remaining - a, o.bytes.drop a⟩) hlt (hdrop.trans hd)]
        congr 1
        simp only
        omega
      · have hno : ∀ p q r t rest, o.bytes.drop o.remaining ≠ p :: q :: r :: t :: rest :=
          fun p q r t rest hd => hshort ⟨p, q, r, t, rest, hd⟩
        rw [advance_of_short (by omega) hno,
          advance_of_short (o := ⟨o.remaining - a, o.bytes.drop a⟩) hlt]
        intro p q r t rest hd
        exact hno p q r t rest (hdrop.symm.trans hd)
  | case3 a o ha hle p q r t rest hd ih =>
    rw [advance_of_lt (by omega) hd, ← ih]
    congr 1
    omega
  | case4 a o ha hle hno =>
    rw [advance_nil, advance_of_short (by omega) fun p q r t rest hd => hno p q r t rest hd]

/-- The next bytes of a visible record are the next bytes of the track. -/
theorem take_contents {n : Nat} (h : n ≤ o.remaining) (hn : n ≤ o.bytes.length) :
    n ≤ (o.contents ending).bytes.length ∧
      (o.contents ending).bytes.take n = o.bytes.take n := by
  simp only [contents]
  split
  · have hlen : n ≤ (o.bytes.take o.remaining).length := by
      rw [List.length_take]
      omega
    rw [List.length_append, List.take_append_of_le_length hlen, List.take_take, Nat.min_eq_left h]
    exact ⟨by omega, rfl⟩
  · exact ⟨hn, rfl⟩

/-- A visible record without bytes is cut short. -/
theorem contents_of_bytes_eq_nil (h : o.bytes = []) (hr : o.remaining ≠ 0) :
    o.contents ending = ⟨[], ending.inside⟩ := by
  rw [contents, if_neg (by rw [h, List.length_nil]; omega), h]

/-- Bytes that hold nothing of the contents are no part of a visible record. -/
theorem remaining_eq_zero (h : (o.contents ending).bytes = []) (hb : o.bytes ≠ []) :
    o.remaining = 0 := by
  by_contra hrem
  obtain ⟨hle, -⟩ := @take_contents ending o 1 (by omega) (List.length_pos_iff.2 hb)
  rw [h, List.length_nil] at hle
  omega

theorem unwrap_of_short {bytes : List UInt8}
    (h : ∀ header rest, ¬ HeaderAt bytes header rest) : (unwrap ending bytes).bytes = [] := by
  rw [unwrap.eq_def]
  split
  · rfl
  · rename_i a b c d rest
    simp only
    rw [if_neg fun hvalid => h _ rest ⟨a, b, c, d, rfl, rfl, hvalid⟩]
  · rfl

/-- **Taking bytes takes them off the contents.** -/
theorem contents_advance {n : Nat} (h : n ≤ (o.contents ending).bytes.length) :
    (o.advance n).contents ending =
      ⟨(o.contents ending).bytes.drop n, (o.contents ending).ending⟩ := by
  -- along the visible records; only valid headers are passed, since `n` bytes lie ahead
  fun_induction advance n o with
  | case1 o => rfl
  | case2 n o hn hle =>
    by_cases hfull : o.remaining ≤ o.bytes.length
    · have hdrop : (o.bytes.drop n).drop (o.remaining - n) = o.bytes.drop o.remaining := by
        rw [List.drop_drop]
        congr 1
        omega
      simp only [contents, if_pos hfull, List.length_drop, hdrop, ← List.drop_take,
        if_pos (Nat.sub_le_sub_right hfull n)]
      rw [List.drop_append_of_le_length]
      rw [List.length_take]
      omega
    · simp only [contents, if_neg hfull] at h ⊢
      rw [if_neg (by rw [List.length_drop]; omega)]
  | case3 n o hn hlt a b c d rest hd ih =>
    have hfull : o.remaining ≤ o.bytes.length := by
      have := congrArg List.length hd
      simp only [List.length_drop, List.length_cons] at this
      omega
    have htake : (o.bytes.take o.remaining).length = o.remaining := by
      rw [List.length_take]
      omega
    have hcontents : o.contents ending =
        ⟨o.bytes.take o.remaining ++ (contents ending ⟨0, a :: b :: c :: d :: rest⟩).bytes,
          (contents ending ⟨0, a :: b :: c :: d :: rest⟩).ending⟩ := by
      rw [contents, if_pos hfull, contents_zero, hd]
    by_cases hvalid : (VisibleHeader.ofBytes a b c d).IsValid
    · have hheader : HeaderAt (a :: b :: c :: d :: rest) (.ofBytes a b c d) rest :=
        ⟨a, b, c, d, rfl, rfl, hvalid⟩
      rw [hcontents, ← contents_enter hheader] at h ⊢
      simp only [List.length_append, htake] at h
      have hgone : (o.bytes.take o.remaining).drop n = [] := List.drop_of_length_le (by omega)
      rw [ih (by omega)]
      simp only
      rw [List.drop_append, hgone, htake, List.nil_append]
    · -- nothing can be read behind a header that is not valid
      rw [hcontents, contents_zero, unwrap_of_short, List.append_nil, htake] at h
      · omega
      · rintro header rest' ⟨p, q, r, t, heq, rfl, hv⟩
        cases heq
        exact hvalid hv
  | case4 n o hn hlt hno =>
    by_cases hfull : o.remaining ≤ o.bytes.length
    · simp only [contents, if_pos hfull] at h
      rw [unwrap_of_short, List.append_nil, List.length_take] at h
      · omega
      · rintro header rest' ⟨p, q, r, t, heq, -⟩
        exact hno p q r t rest' heq
    · simp only [contents, if_neg hfull] at h
      omega

end Outlook

namespace Feed

variable {F : Feed} {k : Nat}

/-- What a logical stream delivers that begins here. -/
def contents (F : Feed) : Contents := unwrap F.ending F.bytes

/-- What lies ahead of such a stream after `k` bytes. -/
def outlook (F : Feed) (k : Nat) : Outlook := Outlook.advance k ⟨0, F.bytes⟩

/-- The first visible record begins here. -/
def Opens (F : Feed) : Prop := ∃ header rest, HeaderAt F.bytes header rest

theorem Opens.bytes_ne_nil (h : F.Opens) : F.bytes ≠ [] := by
  obtain ⟨header, rest, a, b, c, d, hb, -, -⟩ := h
  rw [hb]
  exact List.cons_ne_nil _ _

@[simp] theorem outlook_zero (F : Feed) : F.outlook 0 = ⟨0, F.bytes⟩ := Outlook.advance_zero _

theorem outlook_add (F : Feed) (k n : Nat) : F.outlook (k + n) = (F.outlook k).advance n :=
  Outlook.advance_add k n _

theorem contents_outlook (h : k ≤ F.contents.bytes.length) :
    (F.outlook k).contents F.ending = ⟨F.contents.bytes.drop k, F.contents.ending⟩ := by
  have hzero := @Outlook.contents_zero F.ending F.bytes
  rw [contents, ← hzero] at h ⊢
  exact Outlook.contents_advance h

theorem unwrap_outlook (h : k ≤ F.contents.bytes.length) (hrem : (F.outlook k).remaining = 0) :
    unwrap F.ending (F.outlook k).bytes = ⟨F.contents.bytes.drop k, F.contents.ending⟩ := by
  have ho : F.outlook k = ⟨0, (F.outlook k).bytes⟩ := by
    rw [← hrem]
  rw [← contents_outlook h, ho, Outlook.contents_zero]

end Feed

end WellLog
