import WellLog.Value.Decoder
/-!
# What decoders read

Some bytes spell a value if a decoder reads exactly them, whatever follows, and gives the value.  No
decoder of values looks ahead, so whatever it reads are bytes that spell what it gives.

* `Decode.spells_bind_iff` : what one decoder after the other reads is what both of them spell.
* `Decode.SelfContained` : a decoder does not look ahead.  That none of them does is found by
  instances, one for every decoder.
* `Decode.spells_values_iff` : values are written one behind the other.
* `Decode.kind_of_valueOf` : **values of a code are of the kind of the code**.
-/

namespace WellLog

namespace Decode

variable {α β : Type} {x : Decode α} {f : α → Decode β} {a a' : α} {b : β}
  {bytes bytes' rest rest' : List UInt8} {c c' : Cursor}

/-- The bytes spell a value: the decoder reads them and nothing else. -/
def Spells (x : Decode α) (bytes : List UInt8) (a : α) : Prop :=
  ∀ position rest, x ⟨position, bytes ++ rest⟩ = .ok a ⟨position + bytes.length, rest⟩

/-- The decoder does not look at what is behind the bytes it reads. -/
class SelfContained (x : Decode α) : Prop where
  /-- Whatever it reads are bytes that spell what it gives. -/
  exists_spells : ∀ {position : Nat} {input : List UInt8} {a : α} {c : Cursor},
    x ⟨position, input⟩ = .ok a c →
      ∃ bytes rest, input = bytes ++ rest ∧ c = ⟨position + bytes.length, rest⟩ ∧ Spells x bytes a

theorem bind_eq_ok_iff :
    (x >>= f) c = .ok b c' ↔ ∃ a c₁, x c = .ok a c₁ ∧ f a c₁ = .ok b c' := by
  simp only [bind, EStateM.bind]
  cases x c with
  | ok a c₁ =>
    constructor
    · exact fun h => ⟨a, c₁, rfl, h⟩
    · rintro ⟨_, _, ⟨⟩, h⟩
      exact h
  | error d c₁ => simp

theorem pure_eq_ok_iff : (pure a : Decode α) c = .ok a' c' ↔ a' = a ∧ c' = c := by
  simp only [pure, EStateM.pure, EStateM.Result.ok.injEq]
  exact and_congr eq_comm eq_comm

/-! ### Spelling -/

/-- Of the bytes ahead, a decoder reads one piece only. -/
theorem Spells.unique (h : Spells x bytes a) (h' : Spells x bytes' a')
    (heq : bytes ++ rest = bytes' ++ rest') : bytes = bytes' ∧ a = a' ∧ rest = rest' := by
  have hrun := h 0 rest
  rw [heq, h' 0 rest', EStateM.Result.ok.injEq, Cursor.mk.injEq, Nat.zero_add, Nat.zero_add] at hrun
  obtain ⟨rfl, hlen, rfl⟩ := hrun
  exact ⟨(List.append_inj heq hlen.symm).1, rfl, rfl⟩

theorem spells_of_run [SelfContained x] {position : Nat}
    (h : x ⟨position, bytes⟩ = .ok a ⟨position + bytes.length, []⟩) : Spells x bytes a := by
  obtain ⟨read, rest, hbytes, hc, hspells⟩ := SelfContained.exists_spells h
  rw [Cursor.mk.injEq] at hc
  rw [← hc.2, List.append_nil] at hbytes
  rwa [hbytes]

theorem spells_pure_iff : Spells (pure a) bytes a' ↔ bytes = [] ∧ a' = a := by
  constructor
  · intro h
    obtain ⟨rfl, hc⟩ := pure_eq_ok_iff.1 (h 0 [])
    rw [List.append_nil, Cursor.mk.injEq] at hc
    exact ⟨hc.2.symm, rfl⟩
  · rintro ⟨rfl, rfl⟩ position rest
    rfl

theorem Spells.bind (hx : Spells x bytes a) (hf : Spells (f a) bytes' b) :
    Spells (x >>= f) (bytes ++ bytes') b := by
  intro position rest
  refine bind_eq_ok_iff.2 ⟨a, _, ?_, hf (position + bytes.length) rest |>.trans ?_⟩
  · rw [List.append_assoc]
    exact hx position _
  · rw [List.length_append, Nat.add_assoc]

/-- What is made of a value is spelled by the bytes of the value. -/
theorem Spells.map {g : α → β} (h : Spells x bytes a) :
    Spells (x >>= fun a => Pure.pure (g a)) bytes (g a) := by
  rw [← List.append_nil bytes]
  exact h.bind (spells_pure_iff.2 ⟨rfl, rfl⟩)

/-- One decoder after the other reads what both of them spell. -/
theorem spells_bind_iff [SelfContained x] [∀ a, SelfContained (f a)] :
    Spells (x >>= f) bytes b ↔ ∃ first second a, bytes = first ++ second ∧ Spells x first a ∧
      Spells (f a) second b := by
  constructor
  · intro h
    obtain ⟨a, c₁, hrun, hrest⟩ := bind_eq_ok_iff.1 (h 0 [])
    obtain ⟨first, rest, hbytes, rfl, hfirst⟩ := SelfContained.exists_spells hrun
    rw [List.append_nil] at hbytes
    subst hbytes
    refine ⟨first, rest, a, rfl, hfirst, spells_of_run (hrest.trans ?_)⟩
    rw [List.length_append, Nat.add_assoc]
  · rintro ⟨first, second, a, rfl, hfirst, hsecond⟩
    exact hfirst.bind hsecond

instance : SelfContained (Pure.pure a : Decode α) where
  exists_spells {_ input _ _} h := by
    obtain ⟨rfl, rfl⟩ := pure_eq_ok_iff.1 h
    exact ⟨[], input, rfl, rfl, spells_pure_iff.2 ⟨rfl, rfl⟩⟩

instance {d : Defect} : SelfContained (throw d : Decode α) where
  exists_spells := nofun

instance [SelfContained x] [∀ a, SelfContained (f a)] : SelfContained (x >>= f) where
  exists_spells h := by
    obtain ⟨a, c₁, hrun, hrest⟩ := bind_eq_ok_iff.1 h
    obtain ⟨first, rest, rfl, rfl, hfirst⟩ := SelfContained.exists_spells hrun
    obtain ⟨second, rest, rfl, rfl, hsecond⟩ := SelfContained.exists_spells hrest
    refine ⟨first ++ second, rest, (List.append_assoc _ _ _).symm, ?_, hfirst.bind hsecond⟩
    rw [List.length_append, Nat.add_assoc]

instance {g : α → β} [SelfContained x] : SelfContained (g <$> x) := by
  rw [map_eq_pure_bind]
  infer_instance

instance {p : Prop} [Decidable p] {y : Decode α} [SelfContained x] [SelfContained y] :
    SelfContained (if p then x else y) := by
  split
  · infer_instance
  · infer_instance

/-- A condition that has to hold. -/
theorem spells_guard_iff {p : Bool} {d : Defect} {g : PUnit → Decode α} :
    Spells (if (!p) = true then MonadExcept.throw d >>= g else x) bytes a ↔
      p = true ∧ Spells x bytes a := by
  cases p with
  | true => simp
  | false =>
    simp only [Bool.not_false, if_true, Bool.false_eq_true, false_and, iff_false]
    exact fun h => nomatch h 0 []

/-! ### The elementary parts -/

/-- Bytes are checked before they are taken. -/
theorem take_run (n position : Nat) (input : List UInt8) :
    take n ⟨position, input⟩ =
      if hasAtLeast n input then .ok (input.take n) ⟨position + n, input.drop n⟩
      else .error (.truncated n position input.length) ⟨position, input⟩ := by
  change (if hasAtLeast n input then _ else _ : Decode (List UInt8)) ⟨position, input⟩ = _
  split <;> rfl

theorem take_eq_ok_iff {n position : Nat} {input : List UInt8} :
    take n ⟨position, input⟩ = .ok bytes c ↔
      n ≤ input.length ∧ bytes = input.take n ∧ c = ⟨position + n, input.drop n⟩ := by
  rw [take_run]
  by_cases hn : n ≤ input.length
  · rw [if_pos (hasAtLeast_iff.2 hn), EStateM.Result.ok.injEq]
    constructor
    · rintro ⟨rfl, rfl⟩
      exact ⟨hn, rfl, rfl⟩
    · rintro ⟨-, rfl, rfl⟩
      exact ⟨rfl, rfl⟩
  · rw [if_neg (mt hasAtLeast_iff.1 hn)]
    constructor
    · intro h
      cases h
    · exact fun h => absurd h.1 hn

theorem spells_take_iff {n : Nat} :
    Spells (take n) bytes bytes' ↔ bytes.length = n ∧ bytes' = bytes := by
  constructor
  · intro h
    obtain ⟨hn, rfl, hc⟩ := take_eq_ok_iff.1 (h 0 [])
    rw [Cursor.mk.injEq, Nat.zero_add, Nat.zero_add] at hc
    rw [List.append_nil] at hn ⊢
    exact ⟨hc.1, List.take_of_length_le (Nat.le_of_eq hc.1)⟩
  · rintro ⟨rfl, rfl⟩ position rest
    refine take_eq_ok_iff.2 ⟨?_, ?_, ?_⟩
    · rw [List.length_append]
      exact Nat.le_add_right _ _
    · rw [List.take_left]
    · rw [List.drop_left]

instance (n : Nat) : SelfContained (take n) where
  exists_spells {_ input _ _} h := by
    obtain ⟨hn, rfl, rfl⟩ := take_eq_ok_iff.1 h
    have hlen : (input.take n).length = n := List.length_take_of_le hn
    refine ⟨input.take n, input.drop n, (List.take_append_drop n input).symm, ?_,
      spells_take_iff.2 ⟨hlen, rfl⟩⟩
    rw [hlen]

instance (width : Nat) : SelfContained (unsigned width) := by
  unfold unsigned
  infer_instance

/-- What is made of the bytes of a field is spelled by so many bytes. -/
theorem spells_take_bind_iff {n : Nat} {g : List UInt8 → β} :
    Spells (take n >>= fun bytes => Pure.pure (g bytes)) bytes b ↔
      bytes.length = n ∧ b = g bytes := by
  rw [spells_bind_iff]
  constructor
  · rintro ⟨first, second, a, rfl, hfirst, hsecond⟩
    obtain ⟨hlen, rfl⟩ := spells_take_iff.1 hfirst
    obtain ⟨rfl, rfl⟩ := spells_pure_iff.1 hsecond
    rw [List.append_nil]
    exact ⟨hlen, rfl⟩
  · rintro ⟨hlen, rfl⟩
    exact ⟨bytes, [], bytes, (List.append_nil _).symm, spells_take_iff.2 ⟨hlen, rfl⟩,
      spells_pure_iff.2 ⟨rfl, rfl⟩⟩

theorem spells_unsigned_iff {width n : Nat} :
    Spells (unsigned width) bytes n ↔ bytes.length = width ∧ n = bigEndian bytes :=
  spells_take_bind_iff

instance (width : Nat) : SelfContained (signed width) := by
  unfold signed
  infer_instance

instance : SelfContained byte := by
  unfold byte
  infer_instance

@[simp] theorem ofNat_bigEndian_singleton (b : UInt8) : UInt8.ofNat (bigEndian [b]) = b := by
  simp [bigEndian]

theorem spells_byte_iff {b : UInt8} : Spells byte bytes b ↔ bytes = [b] := by
  unfold byte
  rw [spells_take_bind_iff, List.length_eq_one_iff]
  constructor
  · rintro ⟨⟨b', rfl⟩, rfl⟩
    rw [ofNat_bigEndian_singleton]
  · rintro rfl
    exact ⟨⟨b, rfl⟩, (ofNat_bigEndian_singleton b).symm⟩

/-- A varying number, when its first byte is known. -/
def varyingFrom (first : UInt8) : Decode Nat :=
  if first < 0x80 then unsigned 1
  else if first < 0xC0 then return (← unsigned 2) % 0x4000
  else return (← unsigned 4) % 0x40000000

theorem varying_cons (position : Nat) (first : UInt8) (input : List UInt8) :
    varying ⟨position, first :: input⟩ = varyingFrom first ⟨position, first :: input⟩ := rfl

instance (first : UInt8) : SelfContained (varyingFrom first) := by
  unfold varyingFrom
  infer_instance

/-- How wide a varying number is, by its first byte. -/
def varyingWidth (first : UInt8) : Nat := if first < 0x80 then 1 else if first < 0xC0 then 2 else 4

theorem spells_varyingFrom_iff {first : UInt8} {n : Nat} :
    Spells (varyingFrom first) bytes n ↔
      bytes.length = varyingWidth first ∧ n = if first < 0x80 then bigEndian bytes
        else if first < 0xC0 then bigEndian bytes % 0x4000 else bigEndian bytes % 0x40000000 := by
  have hmod : ∀ width modulus,
      Spells (unsigned width >>= fun n => Pure.pure (n % modulus)) bytes n ↔
        bytes.length = width ∧ n = bigEndian bytes % modulus := by
    intro width modulus
    unfold unsigned
    rw [bind_assoc]
    exact spells_take_bind_iff (g := fun bytes => bigEndian bytes % modulus)
  unfold varyingFrom varyingWidth
  split
  · exact spells_unsigned_iff
  · split
    · exact hmod 2 0x4000
    · exact hmod 4 0x40000000

/-- A varying number is as wide as its first byte says. -/
theorem spells_varying_iff {n : Nat} : Spells varying bytes n ↔
    ∃ first tail, bytes = first :: tail ∧ Spells (varyingFrom first) bytes n := by
  constructor
  · intro h
    cases bytes with
    | nil => cases h 0 []
    | cons first tail =>
      have hrun := h 0 []
      rw [List.append_nil] at hrun
      have hfrom : Spells (varyingFrom first) (first :: tail) n := spells_of_run hrun
      exact ⟨first, tail, rfl, hfrom⟩
  · rintro ⟨first, tail, rfl, h⟩ position rest
    exact h position rest

theorem varyingWidth_pos (first : UInt8) : 0 < varyingWidth first := by
  unfold varyingWidth
  split
  · decide
  · split <;> decide

instance : SelfContained varying where
  exists_spells {_ input _ _} h := by
    cases input with
    | nil => cases h
    | cons first input =>
      rw [varying_cons] at h
      obtain ⟨bytes, rest, hinput, rfl, hspells⟩ := SelfContained.exists_spells h
      have hpos : bytes ≠ [] := by
        rintro rfl
        exact absurd (spells_varyingFrom_iff.1 hspells).1 (Nat.ne_of_lt (varyingWidth_pos first))
      obtain ⟨first', tail, rfl⟩ := List.exists_cons_of_ne_nil hpos
      obtain ⟨rfl, -⟩ := List.cons.inj hinput
      exact ⟨_, rest, hinput, rfl, spells_varying_iff.2 ⟨first, tail, rfl, hspells⟩⟩

instance : SelfContained identifier := by
  unfold identifier
  infer_instance

/-- An identifier is a length and so many bytes. -/
theorem spells_identifier {length : UInt8} {text : List UInt8} (h : text.length = length.toNat) :
    Spells identifier (length :: text) (Utf8.decode text) := by
  exact (spells_byte_iff.2 rfl : Spells byte [length] length).bind
    (Spells.map (spells_take_iff.2 ⟨h, rfl⟩))

instance : SelfContained string := by
  unfold string
  infer_instance

instance : SelfContained objectName := by
  unfold objectName
  infer_instance

instance : SelfContained dateTime := by
  unfold dateTime
  infer_instance

instance : SelfContained single := by
  unfold single
  infer_instance

instance : SelfContained double := by
  unfold double
  infer_instance

/-! ### Values -/

/-- Things written one behind the other. -/
def Row (R : List UInt8 → α → Prop) : List UInt8 → List α → Prop
  | bytes, [] => bytes = []
  | bytes, a :: others => ∃ first behind, bytes = first ++ behind ∧ R first a ∧ Row R behind others

/-- Each of the things is written somewhere. -/
theorem Row.exists_of_mem {R : List UInt8 → α → Prop} {l : List α} (h : Row R bytes l)
    (ha : a ∈ l) : ∃ bytes, R bytes a := by
  induction l generalizing bytes with
  | nil => cases ha
  | cons b l ih =>
    obtain ⟨first, behind, -, hb, hbehind⟩ := h
    rcases List.mem_cons.1 ha with rfl | ha
    · exact ⟨first, hb⟩
    · exact ih hbehind ha

/-- Things are written one behind the other by writing each of them. -/
theorem row_flatMap {γ : Type} {R : List UInt8 → α → Prop} {f : γ → List UInt8} {g : γ → α}
    {l : List γ} (h : ∀ c ∈ l, R (f c) (g c)) : Row R (l.flatMap f) (l.map g) := by
  induction l with
  | nil => exact rfl
  | cons c l ih =>
    refine ⟨f c, l.flatMap f, List.flatMap_cons, h c List.mem_cons_self, ih fun d hd => ?_⟩
    exact h d (List.mem_cons_of_mem c hd)

/-- **No decoder of values looks ahead.** -/
instance (code : Code) : SelfContained (valueOf code) := by
  cases code <;>
  · unfold valueOf
    infer_instance

instance (code : UInt8) : SelfContained (value code) := by
  unfold value
  split
  · infer_instance
  · infer_instance

instance (code : UInt8) (count : Nat) : SelfContained (values code count) := by
  induction count with
  | zero =>
    unfold values
    infer_instance
  | succ count ih =>
    unfold values
    infer_instance

/-- Values are written one behind the other. -/
theorem spells_values_iff {code : UInt8} {count : Nat} {values : List Value} :
    Spells (Decode.values code count) bytes values ↔
      values.length = count ∧ Row (Spells (value code)) bytes values := by
  induction count generalizing bytes values with
  | zero =>
    rw [Decode.values, spells_pure_iff, List.length_eq_zero_iff]
    constructor
    · rintro ⟨rfl, rfl⟩
      exact ⟨rfl, rfl⟩
    · rintro ⟨rfl, rfl⟩
      exact ⟨rfl, rfl⟩
  | succ count ih =>
    rw [Decode.values, spells_bind_iff]
    constructor
    · rintro ⟨first, behind, v, rfl, hv, hbehind⟩
      obtain ⟨second, last, vs, rfl, hvs, hlast⟩ := spells_bind_iff.1 hbehind
      obtain ⟨rfl, rfl⟩ := spells_pure_iff.1 hlast
      obtain ⟨hlen, hrow⟩ := ih.1 hvs
      rw [List.append_nil]
      exact ⟨congrArg (· + 1) hlen, first, second, rfl, hv, hrow⟩
    · rintro ⟨hlen, hrow⟩
      cases values with
      | nil => cases hlen
      | cons v vs =>
        obtain ⟨first, behind, rfl, hv, hvs⟩ := hrow
        exact ⟨first, behind, v, rfl, hv, (ih.2 ⟨Nat.succ.inj hlen, hvs⟩).map⟩

end Decode

/-! ### Kinds of values -/

/-- What kind of information a value is. -/
inductive ValueKind where
  /-- An integer. -/
  | int
  /-- A floating point number. -/
  | float
  /-- A number with so many bounds. -/
  | validated (bounds : Nat)
  /-- A complex number. -/
  | complex
  /-- Text. -/
  | text
  /-- A date and time. -/
  | time
  /-- The name of an object. -/
  | name
  /-- A reference to an object. -/
  | reference
  /-- A reference to an attribute. -/
  | attributeReference
  /-- A yes or a no. -/
  | status
  deriving DecidableEq, Repr

/-- The kind of a value. -/
def Value.kind : Value → ValueKind
  | int _ => .int
  | float _ => .float
  | validated _ bounds => .validated bounds.length
  | complex _ _ => .complex
  | text _ => .text
  | time _ => .time
  | name _ => .name
  | reference _ _ => .reference
  | attributeReference _ _ _ => .attributeReference
  | status _ => .status

/-- The kind of the values of a code. -/
def Code.kind : Code → ValueKind
  | fshort | fsingl | isingl | vsingl | fdoubl => .float
  | fsing1 | fdoub1 => .validated 1
  | fsing2 | fdoub2 => .validated 2
  | csingl | cdoubl => .complex
  | sshort | snorm | slong | ushort | unorm | ulong | uvari | origin => .int
  | ident | ascii | units => .text
  | dtime => .time
  | obname => .name
  | objref => .reference
  | attref => .attributeReference
  | status => .status

namespace Decode

variable {α β : Type} {x : Decode α} {f : α → Decode β} {P : α → Prop} {Q : β → Prop}

/-- Whatever the decoder gives has a property. -/
def Gives (x : Decode α) (P : α → Prop) : Prop := ∀ c a c', x c = .ok a c' → P a

theorem Gives.pure {a : α} (h : P a) : Gives (Pure.pure a) P := by
  intro c a' c' hrun
  obtain ⟨rfl, -⟩ := pure_eq_ok_iff.1 hrun
  exact h

theorem Gives.bind (h : ∀ a, Gives (f a) Q) : Gives (x >>= f) Q := by
  intro c b c' hrun
  obtain ⟨a, c₁, -, hrest⟩ := bind_eq_ok_iff.1 hrun
  exact h a _ _ _ hrest

/-- **Values of a code are of the kind of the code.** -/
theorem kind_of_valueOf (code : Code) : Gives (valueOf code) (·.kind = code.kind) := by
  cases code <;>
  · unfold valueOf
    repeat refine .bind fun _ => ?_
    exact .pure rfl

end Decode

end WellLog
