import Mathlib.Data.List.Basic
import WellLog.Pool.Link
/-!
# Tables in the order of their keys

The objects of a pool are a table by type, and the links of an instance are a table by label.  In
both of them the keys are in order, and there is one operation that changes the entry of a key or
puts a new one into its place.

* `Table.lookup_upsert` : **only the entry of the key changes**.
* `Table.Ordered.upsert` : the keys stay in order.
* `Table.Ordered.eq_of_lookup` : tables with the same entries are the same.
* `Table.lookup_putAll` : of several entries of a key the last one counts.
* `Table.perm_putAll`, `Table.nodup_of_length_putAll` : nothing is lost exactly if every key is new.
-/

namespace WellLog

namespace Table

variable {α : Type} {table table' : List (String × α)} {key k : String} {f : Option α → α} {a : α}

/-- The keys of a table are in order. -/
def Ordered (table : List (String × α)) : Prop := (table.map (·.1)).Pairwise (· < ·)

/-- The entry of a key becomes what `f` makes of it.  The keys stay in order. -/
def upsert (key : String) (f : Option α → α) : List (String × α) → List (String × α)
  | [] => [(key, f none)]
  | (k, a) :: others =>
    if k = key then (k, f (some a)) :: others
    else if key < k then (key, f none) :: (k, a) :: others
    else (k, a) :: upsert key f others

theorem ordered_nil : Ordered ([] : List (String × α)) := .nil

theorem ordered_cons : Ordered ((k, a) :: table) ↔ (∀ l ∈ table.map (·.1), k < l) ∧ Ordered table :=
  List.pairwise_cons

theorem mem_keys_upsert : k ∈ (upsert key f table).map (·.1) ↔ k = key ∨ k ∈ table.map (·.1) := by
  induction table with
  | nil => simp [upsert]
  | cons entry others ih =>
    obtain ⟨l, a⟩ := entry
    rw [upsert]
    split
    · rename_i h
      simp [h]
    · split
      · simp
      · rw [List.map_cons, List.mem_cons, ih, List.map_cons, List.mem_cons]
        exact or_left_comm

theorem Ordered.upsert (h : Ordered table) : Ordered (upsert key f table) := by
  induction table with
  | nil => exact List.pairwise_singleton _ _
  | cons entry others ih =>
    obtain ⟨l, a⟩ := entry
    obtain ⟨hfirst, hothers⟩ := ordered_cons.1 h
    rw [Table.upsert]
    split
    · exact ordered_cons.2 ⟨hfirst, hothers⟩
    · rename_i hne
      split
      · rename_i hlt
        refine ordered_cons.2 ⟨?_, h⟩
        intro m hm
        rcases List.mem_cons.1 hm with rfl | hm
        · exact hlt
        · exact String.lt_trans hlt (hfirst m hm)
      · rename_i hnot
        refine ordered_cons.2 ⟨?_, ih hothers⟩
        intro m hm
        rcases mem_keys_upsert.1 hm with rfl | hm
        · rcases Std.lt_trichotomy l m with hlt | heq | hgt
          · exact hlt
          · exact absurd heq hne
          · exact absurd hgt hnot
        · exact hfirst m hm

/-! ### Entries -/

theorem lookup_cons_eq (k l : String) (a : α) (others : List (String × α)) :
    ((l, a) :: others).lookup k = if k = l then some a else others.lookup k := by
  rw [List.lookup_cons]
  by_cases h : k = l
  · simp [h]
  · rw [if_neg h, beq_eq_false_iff_ne.2 h]

theorem lookup_map {β : Type} (g : α → β) (entries : List (String × α)) (k : String) :
    (entries.map fun e => (e.1, g e.2)).lookup k = (entries.lookup k).map g := by
  induction entries with
  | nil => rfl
  | cons e entries ih =>
    rw [List.map_cons, lookup_cons_eq, lookup_cons_eq, ih]
    split <;> rfl

theorem isSome_lookup_iff {κ : Type} [BEq κ] [LawfulBEq κ] {entries : List (κ × α)} {k : κ} :
    (entries.lookup k).isSome = true ↔ k ∈ entries.map (·.1) := by
  rw [List.lookup_isSome_iff, List.mem_map]
  exact exists_congr fun p => and_congr_right fun _ => beq_iff_eq.trans eq_comm

theorem mem_of_lookup {κ : Type} [BEq κ] [LawfulBEq κ] {entries : List (κ × α)} {k : κ}
    (h : entries.lookup k = some a) : (k, a) ∈ entries := by
  obtain ⟨before, behind, rfl, -⟩ := List.lookup_eq_some_iff.1 h
  simp

theorem lookup_eq_none_of_notMem (h : k ∉ table.map (·.1)) : table.lookup k = none := by
  rw [← isSome_lookup_iff, Option.not_isSome_iff_eq_none] at h
  exact h

/-- The entry of a key is the one that stands there. -/
theorem Ordered.lookup_of_mem (h : Ordered table) (hmem : (k, a) ∈ table) :
    table.lookup k = some a := by
  induction table with
  | nil => cases hmem
  | cons entry others ih =>
    obtain ⟨l, b⟩ := entry
    obtain ⟨hfirst, hothers⟩ := ordered_cons.1 h
    rw [lookup_cons_eq]
    rcases List.mem_cons.1 hmem with heq | hmem
    · cases heq
      rw [if_pos rfl]
    · have hlt : l < k := hfirst k (List.mem_map_of_mem hmem)
      rw [if_neg fun heq => Std.lt_irrefl (heq ▸ hlt), ih hothers hmem]

/-- **Only the entry of the key changes.** -/
theorem lookup_upsert (h : Ordered table) (k : String) :
    (upsert key f table).lookup k =
      if k = key then some (f (table.lookup key)) else table.lookup k := by
  induction table with
  | nil => rw [upsert, lookup_cons_eq, List.lookup_nil, List.lookup_nil]
  | cons entry others ih =>
    obtain ⟨l, a⟩ := entry
    obtain ⟨hfirst, hothers⟩ := ordered_cons.1 h
    rw [upsert]
    split
    · rename_i heq
      subst heq
      simp only [lookup_cons_eq, if_true]
      split <;> rfl
    · rename_i hne
      split
      · -- the key would stand in front of the first one, so it is not there
        rename_i hlt
        have hnot : key ∉ ((l, a) :: others).map (·.1) := by
          intro hmem
          rcases List.mem_cons.1 hmem with heq | hmem
          · exact hne heq.symm
          · exact String.lt_asymm hlt (hfirst key hmem)
        rw [lookup_eq_none_of_notMem hnot, lookup_cons_eq]
      · rw [lookup_cons_eq, ih hothers, lookup_cons_eq, lookup_cons_eq, if_neg (Ne.symm hne)]
        by_cases hk : k = key
        · subst hk
          simp [Ne.symm hne]
        · simp [hk]

/-- **Tables with the same entries are the same.** -/
theorem Ordered.eq_of_lookup (h : Ordered table) (h' : Ordered table')
    (hlookup : ∀ k, table.lookup k = table'.lookup k) : table = table' := by
  have hkeys : ∀ k, k ∈ table.map (·.1) ↔ k ∈ table'.map (·.1) := by
    intro k
    rw [← isSome_lookup_iff, ← isSome_lookup_iff, hlookup]
  induction table generalizing table' with
  | nil =>
    cases table' with
    | nil => rfl
    | cons entry others => exact absurd ((hkeys entry.1).2 List.mem_cons_self) List.not_mem_nil
  | cons entry others ih =>
    obtain ⟨k, a⟩ := entry
    cases table' with
    | nil => exact absurd ((hkeys k).1 List.mem_cons_self) List.not_mem_nil
    | cons entry' others' =>
      obtain ⟨k', a'⟩ := entry'
      obtain ⟨hfirst, hothers⟩ := ordered_cons.1 h
      obtain ⟨hfirst', hothers'⟩ := ordered_cons.1 h'
      -- neither first key can stand behind the other
      have hk : k = k' := by
        rcases List.mem_cons.1 ((hkeys k).1 List.mem_cons_self) with heq | hmem
        · exact heq
        rcases List.mem_cons.1 ((hkeys k').2 List.mem_cons_self) with heq | hmem'
        · exact heq.symm
        · exact absurd (hfirst' k hmem) (String.lt_asymm (hfirst k' hmem'))
      subst hk
      have ha := hlookup k
      rw [lookup_cons_eq, lookup_cons_eq, if_pos rfl, if_pos rfl] at ha
      have hrest : ∀ l, others.lookup l = others'.lookup l := by
        intro l
        by_cases hl : l = k
        · have hnot : k ∉ others.map (·.1) := fun hmem => Std.lt_irrefl (hfirst k hmem)
          have hnot' : k ∉ others'.map (·.1) := fun hmem => Std.lt_irrefl (hfirst' k hmem)
          rw [hl, lookup_eq_none_of_notMem hnot, lookup_eq_none_of_notMem hnot']
        · have hother := hlookup l
          rwa [lookup_cons_eq, lookup_cons_eq, if_neg hl, if_neg hl] at hother
      rw [Option.some.inj ha, ih hothers hothers' hrest fun l => by
        rw [← isSome_lookup_iff, ← isSome_lookup_iff, hrest]]

/-! ### Many entries -/

section PutAll

variable {entries : List (String × α)}

/-- Entries that are put into a table, one after the other. -/
def putAll (entries table : List (String × α)) : List (String × α) :=
  entries.foldl (fun table entry => upsert entry.1 (fun _ => entry.2) table) table

@[simp] theorem putAll_nil (table : List (String × α)) : putAll [] table = table := rfl

theorem putAll_cons (entry : String × α) (entries table : List (String × α)) :
    putAll (entry :: entries) table = putAll entries (upsert entry.1 (fun _ => entry.2) table) := rfl

theorem Ordered.putAll (h : Ordered table) : Ordered (putAll entries table) := by
  induction entries generalizing table with
  | nil => exact h
  | cons entry entries ih => exact ih h.upsert

theorem mem_keys_putAll :
    k ∈ (putAll entries table).map (·.1) ↔ k ∈ entries.map (·.1) ∨ k ∈ table.map (·.1) := by
  induction entries generalizing table with
  | nil => simp
  | cons entry entries ih =>
    rw [putAll_cons, ih, mem_keys_upsert, List.map_cons, List.mem_cons]
    exact or_left_comm.trans or_assoc.symm

/-- **The last entry of a key counts.** -/
theorem lookup_putAll (h : Ordered table) (k : String) :
    (putAll entries table).lookup k = (entries.reverse.lookup k).or (table.lookup k) := by
  induction entries generalizing table with
  | nil => rfl
  | cons entry entries ih =>
    obtain ⟨l, a⟩ := entry
    rw [putAll_cons, ih h.upsert, lookup_upsert h, List.reverse_cons,
      List.lookup_append, Option.or_assoc, lookup_cons_eq, List.lookup_nil]
    by_cases hk : k = l
    · simp [hk]
    · simp [hk]

/-- A table whose keys all get new entries does not matter. -/
theorem Ordered.putAll_eq (h : Ordered table)
    (hkeys : ∀ k ∈ table.map (·.1), k ∈ entries.map (·.1)) :
    Table.putAll entries table = Table.putAll entries [] := by
  refine h.putAll.eq_of_lookup ordered_nil.putAll fun k => ?_
  rw [lookup_putAll h, lookup_putAll ordered_nil, List.lookup_nil, Option.or_none]
  cases hk : entries.reverse.lookup k with
  | some a => rfl
  | none =>
    rw [Option.none_or]
    refine lookup_eq_none_of_notMem fun hmem => ?_
    have hlast : k ∈ entries.reverse.map (·.1) := by
      rw [List.map_reverse, List.mem_reverse]
      exact hkeys k hmem
    rw [← isSome_lookup_iff, hk] at hlast
    cases hlast

end PutAll

/-! ### How much a table holds -/

theorem perm_upsert_of_notMem (h : key ∉ table.map (·.1)) :
    (upsert key f table).Perm ((key, f none) :: table) := by
  induction table with
  | nil => exact .refl _
  | cons entry others ih =>
    obtain ⟨l, a⟩ := entry
    rw [List.map_cons, List.mem_cons, not_or] at h
    rw [upsert, if_neg (Ne.symm h.1)]
    split
    · exact .refl _
    · exact ((ih h.2).cons (l, a)).trans (.swap _ _ _)

theorem perm_upsert_of_lookup (h : Ordered table) (hkey : table.lookup key = some a) :
    ∃ others, table.Perm ((key, a) :: others) ∧
      (upsert key f table).Perm ((key, f (some a)) :: others) := by
  induction table with
  | nil => cases hkey
  | cons entry rest ih =>
    obtain ⟨l, b⟩ := entry
    obtain ⟨hfirst, hrest⟩ := ordered_cons.1 h
    rw [lookup_cons_eq] at hkey
    rw [upsert]
    by_cases hl : l = key
    · subst hl
      rw [if_pos rfl, Option.some.injEq] at hkey
      subst hkey
      rw [if_pos rfl]
      exact ⟨rest, .refl _, .refl _⟩
    · rw [if_neg (Ne.symm hl)] at hkey
      obtain ⟨others, hperm, hperm'⟩ := ih hrest hkey
      have hlt : ¬ key < l := by
        have hmem : key ∈ rest.map (·.1) := List.mem_map_of_mem (mem_of_lookup hkey)
        exact String.lt_asymm (hfirst key hmem)
      rw [if_neg hl, if_neg hlt]
      exact ⟨(l, b) :: others, (hperm.cons _).trans (.swap _ _ _),
        (hperm'.cons _).trans (.swap _ _ _)⟩

section Lists

variable {β : Type} {entries table : List (String × List β)} {key : String}

/-- A table holds what is found under its keys. -/
theorem Ordered.flatMap_lookup (h : Ordered table) :
    ((table.map (·.1)).flatMap fun k => (table.lookup k).getD []) = table.flatMap (·.2) := by
  rw [List.flatMap_map]
  refine List.flatMap_congr fun entry hentry => ?_
  rw [h.lookup_of_mem hentry, Option.getD_some]

/-- Nothing is lost where every key is new. -/
theorem perm_putAll (hnodup : (entries.map (·.1)).Nodup)
    (hnew : ∀ k ∈ entries.map (·.1), k ∉ table.map (·.1)) :
    (putAll entries table).Perm (entries ++ table) := by
  induction entries generalizing table with
  | nil => exact .refl _
  | cons entry entries ih =>
    obtain ⟨hfirst, hrest⟩ := List.nodup_cons.1 hnodup
    have hnew' : ∀ k ∈ entries.map (·.1),
        k ∉ (upsert entry.1 (fun _ => entry.2) table).map (·.1) := by
      intro k hk hmem
      rcases mem_keys_upsert.1 hmem with rfl | hmem
      · exact hfirst hk
      · exact hnew k (List.mem_cons_of_mem _ hk) hmem
    have hentry := perm_upsert_of_notMem (f := fun _ => entry.2) (hnew entry.1 List.mem_cons_self)
    rw [putAll_cons]
    exact (ih hrest hnew').trans ((hentry.append_left entries).trans List.perm_middle)

/-- What a key had before is lost. -/
theorem length_upsert_add {old : List β} (bs : List β) (h : Ordered table)
    (hold : table.lookup key = some old) :
    ((upsert key (fun _ => bs) table).flatMap (·.2)).length + old.length =
      bs.length + (table.flatMap (·.2)).length := by
  obtain ⟨others, hperm, hperm'⟩ := perm_upsert_of_lookup (f := fun _ => bs) h hold
  rw [(hperm.flatMap_right _).length_eq, (hperm'.flatMap_right _).length_eq]
  simp only [List.flatMap_cons, List.length_append]
  omega

theorem length_upsert_of_notMem (bs : List β) (h : key ∉ table.map (·.1)) :
    ((upsert key (fun _ => bs) table).flatMap (·.2)).length =
      bs.length + (table.flatMap (·.2)).length := by
  rw [((perm_upsert_of_notMem h).flatMap_right _).length_eq, List.flatMap_cons, List.length_append]

theorem length_putAll_le (entries : List (String × List β)) (h : Ordered table) :
    ((putAll entries table).flatMap (·.2)).length ≤
      (entries.flatMap (·.2)).length + (table.flatMap (·.2)).length := by
  induction entries generalizing table with
  | nil => simp
  | cons entry entries ih =>
    rw [putAll_cons, List.flatMap_cons, List.length_append]
    have hordered : Ordered (upsert entry.1 (fun _ => entry.2) table) := h.upsert
    have hrest := ih hordered
    have hentry : ((upsert entry.1 (fun _ => entry.2) table).flatMap (·.2)).length ≤
        entry.2.length + (table.flatMap (·.2)).length := by
      cases hold : table.lookup entry.1 with
      | none =>
        have hnot : entry.1 ∉ table.map (·.1) := by
          rw [← isSome_lookup_iff, hold]
          simp
        exact Nat.le_of_eq (length_upsert_of_notMem entry.2 hnot)
      | some old =>
        have hadd := length_upsert_add entry.2 h hold
        omega
    omega

/-- **Where nothing is lost, every key is new.** -/
theorem nodup_of_length_putAll (h : Ordered table) (hne : ∀ entry ∈ entries ++ table, entry.2 ≠ [])
    (hlength : (entries.flatMap (·.2)).length + (table.flatMap (·.2)).length ≤
      ((putAll entries table).flatMap (·.2)).length) : (entries.map (·.1)).Nodup ∧
        ∀ k ∈ entries.map (·.1), k ∉ table.map (·.1) := by
  induction entries generalizing table with
  | nil => exact ⟨.nil, nofun⟩
  | cons entry entries ih =>
    rw [putAll_cons, List.flatMap_cons, List.length_append] at hlength
    have hordered : Ordered (upsert entry.1 (fun _ => entry.2) table) := h.upsert
    have hrest := length_putAll_le entries hordered
    have hnot : entry.1 ∉ table.map (·.1) := by
      intro hmem
      obtain ⟨old, hold⟩ := Option.isSome_iff_exists.1 (isSome_lookup_iff.2 hmem)
      have hadd := length_upsert_add entry.2 h hold
      have hpos : 0 < old.length := List.length_pos_iff.2
        (hne (entry.1, old) (List.mem_append_right _ (mem_of_lookup hold)))
      omega
    have hlast := length_upsert_of_notMem entry.2 hnot
    have hne' : ∀ e ∈ entries ++ upsert entry.1 (fun _ => entry.2) table, e.2 ≠ [] := by
      intro e he
      rw [List.mem_append, (perm_upsert_of_notMem hnot).mem_iff, List.mem_cons] at he
      rcases he with he | rfl | he
      · exact hne e (List.mem_append_left _ (List.mem_cons_of_mem _ he))
      · exact hne entry (List.mem_append_left _ List.mem_cons_self)
      · exact hne e (List.mem_append_right _ he)
    obtain ⟨hnodup, hnew⟩ := ih hordered hne' (by omega)
    refine ⟨List.nodup_cons.2 ⟨fun hk => ?_, hnodup⟩, fun k hk hkt => ?_⟩
    · exact hnew entry.1 hk (mem_keys_upsert.2 (.inl rfl))
    · rcases List.mem_cons.1 hk with rfl | hk
      · exact hnot hkt
      · exact hnew k hk (mem_keys_upsert.2 (.inr hkt))

end Lists

end Table

/-! ### The tables of a pool -/

namespace Pool

theorem declare_eq_upsert (type : String) (objects : List RawObject)
    (table : List (String × List RawObject)) :
    declare type objects table = Table.upsert type (fun old => old.getD [] ++ objects) table := by
  induction table with
  | nil => rfl
  | cons entry others ih =>
    obtain ⟨t, os⟩ := entry
    rw [declare, Table.upsert, ih]
    rfl

theorem setLinks_eq_upsert (label : String) (slots : List (Option InstanceId))
    (table : List (String × List (Option InstanceId))) :
    setLinks label slots table = Table.upsert label (fun _ => slots) table := by
  induction table with
  | nil => rfl
  | cons entry others ih =>
    obtain ⟨l, s⟩ := entry
    rw [setLinks, Table.upsert, ih]

/-- The cache is no table in order; it has one bucket for each type that is kept. -/
theorem lookup_store (type t : String) (b : Bucket) (cache : List (String × Bucket)) :
    (store type b cache).lookup t = if t = type then some b else cache.lookup t := by
  induction cache with
  | nil => rw [store, Table.lookup_cons_eq]
  | cons entry others ih =>
    obtain ⟨s, c⟩ := entry
    rw [store]
    split
    · rename_i heq
      subst heq
      rw [Table.lookup_cons_eq, Table.lookup_cons_eq]
      split <;> rfl
    · rename_i hne
      rw [Table.lookup_cons_eq, Table.lookup_cons_eq, ih]
      by_cases ht : t = type
      · subst ht
        simp [Ne.symm hne]
      · simp [ht]

end Pool

end WellLog
