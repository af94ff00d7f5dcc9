import Mathlib.Data.List.Forall2
import WellLog.CharSet.Lemmas
import WellLog.Proofs.Pattern.Anchoring
/-!
# Escaped texts

A text is escaped by a backslash in front of each character that means something in a pattern.  With
an end condition behind it, it is a pattern for the text itself, in either case.

* `Unicode.sameUpToCase_self` : a character is the same as itself up to case.
* `Regex.isMatch_textUpToCase` : the expression of a text accepts what is the same up to case.
* `group_escaped` : how an escaped text is read, at the end of a pattern or in front of a parenthesis.
* `compile?_escapedText` : **an escaped text is a pattern**, unless its automaton is too large.
* `accepts_textUpToCase` : **it accepts the texts that are the same up to case**, and no others.
-/

namespace WellLog

/-! ### Characters up to case -/

namespace Unicode

variable {α : Type}

theorem Table.mem_of_search {entries : Array (Nat × α)} {n low high : Nat} {a : α}
    (h : search entries n low high = some a) : (n, a) ∈ entries := by
  fun_induction search entries n low high with
  | case1 low high hlt middle here value hfound hbelow ih => exact ih h
  | case2 low high hlt middle here value hfound hbelow habove ih => exact ih h
  | case3 low high hlt middle here value hfound hbelow habove =>
    cases h
    obtain rfl : n = here := by omega
    exact Array.mem_of_getElem? hfound
  | case4 => cases h
  | case5 => cases h

/-- A set of the table holds the code point that it is listed with. -/
theorem mem_of_mem_caseTable {n : Nat} {set : List Nat} (h : (n, set) ∈ caseTable) : n ∈ set := by
  rw [caseTable, List.mem_toArray, List.mem_mergeSort, List.mem_flatMap] at h
  obtain ⟨set', -, h⟩ := h
  obtain ⟨n', hn', heq⟩ := List.mem_map.1 h
  cases heq
  exact hn'

theorem sameUpToCase_self (c : Char) : sameUpToCase c c = true := by
  rw [sameUpToCase, caseOrbit, List.contains_iff_mem]
  cases hfound : Table.find? caseTable c.toNat with
  | none => exact List.mem_singleton_self _
  | some set => exact mem_of_mem_caseTable (Table.mem_of_search hfound)

/-- Two texts are the same up to case if their characters are, one by one. -/
def SameUpToCase (s t : String) : Prop :=
  List.Forall₂ (fun c d => sameUpToCase c d = true) s.toList t.toList

instance decidableSameUpToCase (s t : String) : Decidable (SameUpToCase s t) :=
  inferInstanceAs (Decidable (List.Forall₂ _ _ _))

theorem SameUpToCase.refl (s : String) : SameUpToCase s s :=
  List.forall₂_same.2 fun c _ => sameUpToCase_self c

end Unicode

/-! ### The expression of a text -/

namespace Regex

/-- A text in either case, and then the end. -/
def textUpToCase : List Char → Regex
  | [] => .look .textEnd
  | c :: more => .seq (.one (.ofCodes (Unicode.caseOrbit c))) (textUpToCase more)

theorem spans_textUpToCase {text word : List Char} {i j : Nat} :
    (textUpToCase word).Spans text i j ↔ i ≤ text.length ∧ j = text.length ∧
      List.Forall₂ (fun c d => Unicode.sameUpToCase c d = true) word (text.drop i) := by
  induction word generalizing i with
  | nil =>
    rw [textUpToCase, Spans, List.forall₂_nil_left_iff, List.drop_eq_nil_iff]
    simp only [Look.holds, Option.isNone_iff_eq_none, List.getElem?_eq_none_iff]
    omega
  | cons c word ih =>
    simp only [textUpToCase, Spans, ih, CharSet.mem_ofCodes, and_assoc, exists_eq_left]
    constructor
    · rintro ⟨⟨d, hd, hsame⟩, hlength, hj, hrest⟩
      obtain ⟨hlt, rfl⟩ := List.getElem?_eq_some_iff.1 hd
      rw [List.drop_eq_getElem_cons hlt]
      exact ⟨by omega, hj, .cons hsame hrest⟩
    · rintro ⟨-, hj, hall⟩
      obtain hlt | hge := Nat.lt_or_ge i text.length
      · rw [List.drop_eq_getElem_cons hlt] at hall
        cases hall with
        | cons hsame hrest => exact ⟨⟨_, List.getElem?_eq_getElem hlt, hsame⟩, hlt, hj, hrest⟩
      · rw [List.drop_eq_nil_of_le hge] at hall
        cases hall

/-- **The expression of a text accepts what is the same up to case.** -/
theorem isMatch_textUpToCase (word candidate : String) :
    (textUpToCase word.toList).anchored.isMatch candidate = true ↔
      Unicode.SameUpToCase word candidate := by
  rw [isMatch_anchored]
  simp only [spans_textUpToCase, Nat.zero_le, true_and, exists_eq_left, List.drop_zero]
  rfl

end Regex

namespace Pattern

/-! ### Escaped texts -/

/-- The characters that mean something in a pattern. -/
def metaCharacters : List Char :=
  ['\\', '.', '+', '*', '?', '(', ')', '|', '[', ']', '{', '}', '^', '$', '#', '&', '-', '~']

/-- A text in which no character means anything but itself. -/
def escaped (text : List Char) : List Char :=
  text.flatMap fun c => if c ∈ metaCharacters then ['\\', c] else [c]

/-- A text in which no character means anything but itself. -/
def escapedText (text : String) : String := String.ofList (escaped text.toList)

example : escapedText "GR(1)" = "GR\\(1\\)" := by decide

/-- Whether the automata of an escaped text stay within the limit. -/
def fits (text : String) : Bool := (Regex.textUpToCase text.toList).anchored.isCompilable

namespace Read

variable {m : Nat} {c : Char} {text more tail : List Char} {choices parts : List Piece} {s : Reading}

/-- The part of a sequence that a character is. -/
def charPiece (c : Char) : Piece := ⟨some (.one (.ofCodes (Unicode.caseOrbit c))), 0⟩

/-- The part of a sequence that the end condition is. -/
def endPiece : Piece := ⟨some (.look .textEnd), 0⟩

theorem group_of_atom (hskip : skipIgnored s = some ((), s)) (hs : s.rest = c :: more)
    (hc : c ∉ [')', '|', '(', '[', '?', '*', '+', '{']) :
    group (m + 1) choices parts s = (single >>= fun p => group m choices (p :: parts)) s := by
  simp only [List.mem_cons, List.not_mem_nil, or_false, not_or] at hc
  obtain ⟨hclose, hbar, hopen, hbracket, hmark, hstar, hplus, hbrace⟩ := hc
  rw [group_succ, bind_apply, hskip, Option.bind_some, rest_bind_of hs, groupStep, groupAt,
    if_neg hclose, if_neg hbar, if_neg hopen, if_neg hbracket, if_neg hmark, if_neg hstar,
    if_neg hplus, if_neg hbrace]

theorem skipIgnored_start (hs : s.switches = .start) : skipIgnored s = some ((), s) :=
  skipIgnored_of_not_verbose (by rw [hs]; exact Bool.false_ne_true)

theorem switches_bind_of {α : Type} {w : Switches} (hs : s.switches = w) (k : Switches → Read α) :
    (switches >>= k) s = k w s := hs ▸ rfl

/-- A character that means nothing else stands for itself. -/
theorem single_plain (hswitches : s.switches = .start) (hs : s.rest = c :: more)
    (hc : c ∉ metaCharacters) : single s = some (charPiece c, { s with rest := more }) := by
  simp only [metaCharacters, List.mem_cons, List.not_mem_nil, or_false, not_or] at hc
  obtain ⟨hslash, hdot, -, -, -, -, -, -, -, -, -, -, hcaret, hdollar, -⟩ := hc
  rw [single, switches_bind_of hswitches, rest_bind_of hs]
  simp only
  rfl

theorem escape_of_mem (hs : s.rest = c :: more) (hc : c ∈ metaCharacters) :
    Read.escape s = some (.literal c false, { s with rest := more }) := by
  rw [Read.escape, switches_bind_of rfl, rest_bind_of hs]
  simp only [metaCharacters, List.mem_cons, List.not_mem_nil, or_false] at hc
  rcases hc with rfl | rfl | rfl | rfl | rfl | rfl | rfl | rfl | rfl | rfl | rfl | rfl | rfl | rfl |
    rfl | rfl | rfl | rfl <;> rfl

theorem single_escaped (hswitches : s.switches = .start) (hs : s.rest = '\\' :: c :: more)
    (hc : c ∈ metaCharacters) : single s = some (charPiece c, { s with rest := more }) := by
  rw [single, switches_bind_of hswitches, rest_bind_of hs]
  change (Read.escape { s with rest := c :: more }).bind _ = _
  rw [escape_of_mem rfl hc]
  rfl

theorem single_end (hswitches : s.switches = .start) (hs : s.rest = '$' :: more) :
    single s = some (endPiece, { s with rest := more }) := by
  rw [single, switches_bind_of hswitches, rest_bind_of hs]
  rfl

theorem group_of_stop (hswitches : s.switches = .start) (hs : s.rest = [] ∨ s.rest = [')']) :
    group (m + 1) choices parts s =
      some (Piece.choice (choices ++ [Piece.sequence parts.reverse]), s) := by
  rw [group, bind_apply, skipIgnored_start hswitches, Option.bind_some]
  obtain hs | hs := hs
  · rw [rest_bind_of hs]
    rfl
  · rw [rest_bind_of hs]
    rfl

theorem escaped_cons_of_mem (hc : c ∈ metaCharacters) :
    escaped (c :: text) = '\\' :: c :: escaped text := by
  rw [escaped, List.flatMap_cons, if_pos hc]
  rfl

theorem escaped_cons_of_notMem (hc : c ∉ metaCharacters) :
    escaped (c :: text) = c :: escaped text := by
  rw [escaped, List.flatMap_cons, if_neg hc]
  rfl

/-- **An escaped text is read character by character**, up to the end of the pattern or to a
parenthesis behind it. -/
theorem group_escaped (hswitches : s.switches = .start) (hs : s.rest = escaped text ++ '$' :: tail)
    (htail : tail = [] ∨ tail = [')']) (hm : text.length + 1 < m) :
    group m [] parts s =
      some (Piece.sequence (parts.reverse ++ (text.map charPiece ++ [endPiece])),
        { s with rest := tail }) := by
  obtain ⟨m, rfl⟩ := Nat.exists_eq_add_of_lt hm
  induction text generalizing parts s with
  | nil =>
    rw [group_of_atom (skipIgnored_start hswitches) hs (by decide), bind_apply,
      single_end hswitches hs, Option.bind_some, List.length_nil, Nat.zero_add, Nat.add_comm 1,
      group_of_stop (s := { s with rest := tail }) hswitches htail, List.reverse_cons]
    rfl
  | cons c text ih =>
    have hbehind : group (text.length + 1 + m + 1) [] (charPiece c :: parts)
        { s with rest := escaped text ++ '$' :: tail } =
          some (Piece.sequence (parts.reverse ++ ((c :: text).map charPiece ++ [endPiece])),
            { s with rest := tail }) := by
      rw [ih (s := { s with rest := escaped text ++ '$' :: tail }) hswitches rfl (by omega),
        List.reverse_cons, List.append_assoc]
      rfl
    rw [List.length_cons, Nat.succ_add_eq_add_succ]
    by_cases hc : c ∈ metaCharacters
    · rw [escaped_cons_of_mem hc] at hs
      rw [group_of_atom (skipIgnored_start hswitches) hs (by decide), bind_apply,
        single_escaped hswitches hs hc]
      exact hbehind
    · rw [escaped_cons_of_notMem hc] at hs
      have hoperators : ∀ d ∈ [')', '|', '(', '[', '?', '*', '+', '{'], d ∈ metaCharacters := by
        simp [metaCharacters]
      have hplain : c ∉ [')', '|', '(', '[', '?', '*', '+', '{'] :=
        fun hmem => hc (hoperators c hmem)
      rw [group_of_atom (skipIgnored_start hswitches) hs hplain, bind_apply,
        single_plain hswitches hs hc]
      exact hbehind

/-! ### Escaped texts as patterns -/

theorem Piece.body_sequence_cons (p : Piece) {ps : List Piece} (hps : ps ≠ []) :
    (Piece.sequence (p :: ps)).body = .seq p.body (Piece.sequence ps).body := by
  match ps, hps with
  | [_], _ => rfl
  | _ :: _ :: _, _ => rfl

theorem body_sequence_charPiece (text : List Char) :
    (Piece.sequence (text.map charPiece ++ [endPiece])).body = Regex.textUpToCase text := by
  induction text with
  | nil => rfl
  | cons c text ih =>
    rw [List.map_cons, List.cons_append, Piece.body_sequence_cons _ (by simp), ih]
    rfl

theorem depth_sequence_charPiece_le (text : List Char) :
    (Piece.sequence (text.map charPiece ++ [endPiece])).depth ≤ 1 := by
  have hfold : ((text.map charPiece ++ [endPiece]).map (·.depth)).foldl max 0 = 0 := by
    induction text with
    | nil => rfl
    | cons c text ih => exact ih
  cases text with
  | nil => exact Nat.zero_le 1
  | cons c text =>
    cases hrest : text.map charPiece ++ [endPiece] with
    | nil => simp at hrest
    | cons q qs =>
      rw [List.map_cons, List.cons_append, hrest] at hfold ⊢
      exact Nat.le_of_eq (congrArg (1 + ·) hfold)

theorem toList_escapedText (text : String) :
    (escapedText text ++ "$").toList = escaped text.toList ++ ['$'] := by
  simp [escapedText]

theorem length_le_length_escaped (text : List Char) : text.length ≤ (escaped text).length := by
  induction text with
  | nil => exact Nat.le_refl _
  | cons c text ih =>
    by_cases hc : c ∈ metaCharacters
    · rw [escaped_cons_of_mem hc]
      simp only [List.length_cons]
      omega
    · rw [escaped_cons_of_notMem hc]
      simp only [List.length_cons]
      omega

theorem whole_escaped (text : List Char) (htail : tail = [] ∨ tail = [')']) :
    whole (escaped text ++ '$' :: tail) =
      some (Piece.sequence (text.map charPiece ++ [endPiece]),
        { Reading.start [] with rest := tail }) := by
  have hlength := length_le_length_escaped text
  exact group_escaped (s := .start (escaped text ++ '$' :: tail)) rfl rfl htail
    (by simp; omega)

/-- **An escaped text with an end condition is a pattern**, unless its automaton is too large. -/
theorem compile?_escapedText (text : String) :
    Matcher.pattern.compile? (escapedText text ++ "$") =
      if fits text then some (.pattern (Regex.textUpToCase text.toList).anchored) else none := by
  have hreads : Reads (escapedText text ++ "$").toList
      (Piece.sequence (text.toList.map charPiece ++ [endPiece])) := by
    rw [toList_escapedText]
    exact ⟨_, whole_escaped text.toList (.inl rfl), rfl⟩
  have hclosed : ¬ Overcloses (escapedText text ++ "$").toList := by
    rintro ⟨⟨p, s⟩, hr, hne⟩
    exact hne (hreads.of_whole hr).2
  have hcomment : ¬ EndsInComment (escapedText text ++ "$").toList := by
    rintro ⟨p, -, hp⟩
    rw [toList_escapedText, List.append_assoc] at hp
    cases (hp.of_whole (whole_escaped text.toList (.inr rfl))).2
  ext k
  rw [compile?_eq_some_iff hclosed]
  split
  · next hfits =>
    rw [Option.some.injEq]
    constructor
    · rintro ⟨p, hp, -, -, -, rfl⟩
      rw [hp.unique hreads, body_sequence_charPiece]
    · rintro rfl
      refine ⟨_, hreads, hcomment, ?_, ?_, ?_⟩
      · exact Nat.le_trans (Nat.add_le_add_right (depth_sequence_charPiece_le text.toList) 2)
          (by decide)
      · rw [body_sequence_charPiece]
        exact hfits
      · rw [body_sequence_charPiece]
  · next hlarge =>
    refine iff_of_false ?_ nofun
    rintro ⟨p, hp, -, -, hfits, -⟩
    rw [hp.unique hreads, body_sequence_charPiece] at hfits
    exact hlarge hfits

-- the empty text is not too long
example : (Matcher.pattern.compile? (escapedText "" ++ "$")).isSome = true := by decide +kernel

/-- **It accepts what is the same up to case.** -/
theorem accepts_textUpToCase (text candidate : String) :
    (Needle.pattern (Regex.textUpToCase text.toList).anchored).accepts candidate = true ↔
      Unicode.SameUpToCase text candidate :=
  Regex.isMatch_textUpToCase text candidate

end Read

end Pattern

end WellLog
