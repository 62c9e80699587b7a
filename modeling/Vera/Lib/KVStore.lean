import Mathlib.Algebra.BigOperators.Group.Finset.Basic
import Mathlib.Algebra.BigOperators.Group.List.Basic
import Mathlib.Algebra.Order.BigOperators.Group.List
import Mathlib.Tactic.Abel

/-! # Ordered key-value stores

A store is a list of entries in strictly increasing order of their keys, so a key has at most one value and an iterator
meets the entries in the order of the list. -/

/-- A key-value store: its entries, in strictly increasing order of their keys. -/
structure KVStore (K V : Type) [Ord K] where
  entries : List (K × V)
  sorted : entries.Pairwise fun a b => compare a.1 b.1 = .lt

namespace KVStore

open List

section Defs

variable {K V : Type} [Ord K]

/-- The store with no entries. -/
def empty : KVStore K V := ⟨[], List.Pairwise.nil⟩

/-- The value of a key in a list of entries. -/
def lookup [DecidableEq K] (k : K) : List (K × V) → Option V
  | [] => none
  | e :: rest => if k = e.1 then some e.2 else lookup k rest

/-- The list of entries with one entry set, in its place in the order. -/
def insert (k : K) (v : V) : List (K × V) → List (K × V)
  | [] => [(k, v)]
  | e :: rest =>
    match compare k e.1 with
    | .lt => (k, v) :: e :: rest
    | .eq => (k, v) :: rest
    | .gt => e :: insert k v rest

/-- The value of a key. -/
def get [DecidableEq K] (s : KVStore K V) (k : K) : Option V := lookup k s.entries

/-- The store without an entry for a key. -/
def delete [DecidableEq K] (s : KVStore K V) (k : K) : KVStore K V :=
  ⟨s.entries.filter fun e => k ≠ e.1, s.sorted.filter _⟩

/-- The sum of a quantity over the entries of a store. -/
def sumBy {M : Type} [AddCommMonoid M] (f : K → V → M) (s : KVStore K V) : M := (s.entries.map fun e => f e.1 e.2).sum

variable {l : List (K × V)}

/-- Every entry of a list with one entry set is the entry set or was there before. -/
theorem mem_of_mem_insert {k : K} {v : V} {e : K × V} (h : e ∈ insert k v l) : e = (k, v) ∨ e ∈ l := by
  induction l with
  | nil => exact .inl (mem_singleton.1 h)
  | cons a rest ih =>
    simp only [insert] at h
    split at h
    · exact (mem_cons.1 h).imp id id
    · rcases mem_cons.1 h with h | h
      · exact .inl h
      · exact .inr (mem_cons_of_mem _ h)
    · rcases mem_cons.1 h with h | h
      · exact .inr (h ▸ mem_cons_self)
      · exact (ih h).imp id (mem_cons_of_mem _)

/-- Setting an entry keeps the order. -/
theorem sorted_insert [Std.TransOrd K] [Std.LawfulEqOrd K] (k : K) (v : V)
    (h : l.Pairwise fun a b => compare a.1 b.1 = .lt) :
    (insert k v l).Pairwise fun a b => compare a.1 b.1 = .lt := by
  induction l with
  | nil => exact pairwise_singleton _ _
  | cons a rest ih =>
    obtain ⟨ha, hrest⟩ := pairwise_cons.1 h
    simp only [insert]
    split
    · rename_i hlt
      refine pairwise_cons.2 ⟨fun b hb => ?_, h⟩
      rcases mem_cons.1 hb with rfl | hb
      · exact hlt
      · exact Std.TransCmp.lt_trans hlt (ha b hb)
    · rename_i heq
      rw [Std.LawfulEqCmp.eq_of_compare heq]
      exact pairwise_cons.2 ⟨ha, hrest⟩
    · rename_i hgt
      refine pairwise_cons.2 ⟨fun b hb => ?_, ih hrest⟩
      rcases mem_of_mem_insert hb with rfl | hb
      · exact Std.OrientedCmp.gt_iff_lt.1 hgt
      · exact ha b hb

/-- The store with one entry set. -/
def set [Std.TransOrd K] [Std.LawfulEqOrd K] (s : KVStore K V) (k : K) (v : V) : KVStore K V :=
  ⟨insert k v s.entries, sorted_insert k v s.sorted⟩

/-- The store with the value of a key set, or deleted. -/
def assign [DecidableEq K] [Std.TransOrd K] [Std.LawfulEqOrd K] (s : KVStore K V) (k : K) : Option V → KVStore K V
  | some v => s.set k v
  | none => s.delete k

end Defs

section Lookup

variable {K V : Type} [Ord K] [DecidableEq K] [Std.TransOrd K] [Std.LawfulEqOrd K]

/-! ### What an update does to a lookup -/

omit [Std.TransOrd K] [Std.LawfulEqOrd K] in
@[simp] theorem get_empty (k : K) : (empty : KVStore K V).get k = none := rfl

omit [Std.TransOrd K] in
theorem lookup_insert (k k' : K) (v : V) (l : List (K × V)) :
    lookup k' (insert k v l) = if k' = k then some v else lookup k' l := by
  induction l with
  | nil => rfl
  | cons a rest ih =>
    simp only [insert]
    split
    · rfl
    · rename_i heq
      simp only [lookup, ← Std.LawfulEqCmp.eq_of_compare heq]
      split <;> rfl
    · rename_i hgt
      have hne : k ≠ a.1 := by
        rintro rfl
        simp at hgt
      simp only [lookup, ih]
      by_cases h : k' = a.1
      · rw [if_pos h, if_neg (fun h' => hne (h'.symm.trans h)), if_pos h]
      · rw [if_neg h, if_neg h]

/-- A lookup after setting an entry. -/
theorem get_set (s : KVStore K V) (k k' : K) (v : V) : (s.set k v).get k' = if k' = k then some v else s.get k' :=
  lookup_insert k k' v s.entries

@[simp] theorem get_set_self (s : KVStore K V) (k : K) (v : V) : (s.set k v).get k = some v := by
  simp [get_set]

theorem get_set_of_ne (s : KVStore K V) {k k' : K} (v : V) (h : k' ≠ k) : (s.set k v).get k' = s.get k' := by
  simp [get_set, h]

omit [Ord K] [Std.TransOrd K] [Std.LawfulEqOrd K] in
theorem lookup_filter_ne (k k' : K) (l : List (K × V)) :
    lookup k' (l.filter fun e => k ≠ e.1) = if k' = k then none else lookup k' l := by
  induction l with
  | nil => simp [lookup]
  | cons a rest ih =>
    by_cases hk : k = a.1
    · subst hk
      simp only [filter_cons, ne_eq, not_true_eq_false, decide_false, Bool.false_eq_true, if_false, lookup]
      rw [ih]
      split <;> rfl
    · simp only [filter_cons, ne_eq, hk, not_false_eq_true, decide_true, if_true, lookup]
      rw [ih]
      by_cases h : k' = a.1
      · rw [if_pos h, if_neg (fun h' => hk (h'.symm.trans h)), if_pos h]
      · rw [if_neg h, if_neg h]

omit [Std.TransOrd K] [Std.LawfulEqOrd K] in
/-- A lookup after deleting an entry. -/
theorem get_delete (s : KVStore K V) (k k' : K) : (s.delete k).get k' = if k' = k then none else s.get k' :=
  lookup_filter_ne k k' s.entries

omit [Std.TransOrd K] [Std.LawfulEqOrd K] in
/-- After a delete, the keys that have a value are the others. -/
theorem isSome_get_delete (s : KVStore K V) (k k' : K) :
    ((s.delete k).get k').isSome = true ↔ (s.get k').isSome = true ∧ ¬k = k' := by
  rw [get_delete]
  by_cases h : k' = k
  · simp [h]
  · simp [h, Ne.symm h]

/-- After a set, the keys that have a value are the one set and those that had one. -/
theorem isSome_get_set (s : KVStore K V) (k k' : K) (v : V) :
    ((s.set k v).get k').isSome = true ↔ (s.get k').isSome = true ∨ k = k' := by
  rw [get_set]
  by_cases h : k' = k
  · simp [h]
  · simp [h, Ne.symm h]

/-! ### Entries and lookups -/

variable {l : List (K × V)} {v : V} {s : KVStore K V}

omit [Std.TransOrd K] in
theorem lookup_eq_some_of_mem (hl : l.Pairwise fun a b => compare a.1 b.1 = .lt) {e : K × V}
    (he : e ∈ l) : lookup e.1 l = some e.2 := by
  induction l with
  | nil => exact absurd he not_mem_nil
  | cons a rest ih =>
    obtain ⟨ha, hrest⟩ := pairwise_cons.1 hl
    rcases mem_cons.1 he with rfl | he
    · simp [lookup]
    · have hne : e.1 ≠ a.1 := by
        intro heq
        have hlt := ha e he
        rw [heq] at hlt
        simp at hlt
      rw [lookup, if_neg hne]
      exact ih hrest he

omit [Ord K] [Std.TransOrd K] [Std.LawfulEqOrd K] in
theorem mem_of_lookup_eq_some {k : K} (h : lookup k l = some v) : (k, v) ∈ l := by
  induction l with
  | nil => cases h
  | cons a rest ih =>
    simp only [lookup] at h
    split at h
    · rename_i heq
      obtain rfl := heq
      obtain rfl := Option.some.inj h
      exact mem_cons_self
    · exact mem_cons_of_mem _ (ih h)

omit [Std.TransOrd K] in
/-- The entries of a store are the values of its keys. -/
theorem mem_entries (s : KVStore K V) {k : K} : (k, v) ∈ s.entries ↔ s.get k = some v :=
  ⟨fun h => lookup_eq_some_of_mem s.sorted h, mem_of_lookup_eq_some⟩

/-- The entries after a set are the entry set and those of the other keys. -/
theorem mem_entries_set (s : KVStore K V) (k : K) (v : V) (e : K × V) :
    e ∈ (s.set k v).entries ↔ e = (k, v) ∨ e ∈ s.entries ∧ e.1 ≠ k := by
  obtain ⟨k', v'⟩ := e
  rw [mem_entries, mem_entries, get_set, Prod.mk.injEq]
  by_cases h : k' = k
  · simp [h, eq_comm]
  · simp [h]

omit [Std.TransOrd K] in
theorem lookup_eq_none_of_lt {k : K} (h : ∀ e ∈ l, compare k e.1 = .lt) : lookup k l = none := by
  induction l with
  | nil => rfl
  | cons a rest ih =>
    have hne : k ≠ a.1 := by
      rintro rfl
      have hlt := h a mem_cons_self
      simp at hlt
    rw [lookup, if_neg hne]
    exact ih fun e he => h e (mem_cons_of_mem _ he)

omit [Std.TransOrd K] in
theorem filter_key_eq (k : K) (hl : l.Pairwise fun a b => compare a.1 b.1 = .lt) :
    l.filter (fun e => e.1 = k) = ((lookup k l).map fun v => (k, v)).toList := by
  induction l with
  | nil => rfl
  | cons a rest ih =>
    obtain ⟨ha, hrest⟩ := pairwise_cons.1 hl
    by_cases hk : a.1 = k
    · subst hk
      rw [filter_cons_of_pos (by simp), ih hrest, lookup_eq_none_of_lt ha, lookup, if_pos rfl]
      rfl
    · rw [filter_cons_of_neg (by simpa using hk), ih hrest, lookup, if_neg (Ne.symm hk)]

omit [Std.TransOrd K] in
/-- The entries with one key: its entry, if it has one. -/
theorem entries_filter_key (s : KVStore K V) (k : K) :
    s.entries.filter (fun e => e.1 = k) = ((s.get k).map fun v => (k, v)).toList :=
  filter_key_eq k s.sorted

/-! ### Sums over a store -/

section Sum

variable {M : Type} [AddCommMonoid M] (f : K → V → M)

variable {l : List (K × V)} {s : KVStore K V}

theorem sum_insert (k : K) (v : V) (hl : l.Pairwise fun a b => compare a.1 b.1 = .lt) :
    ((insert k v l).map fun e => f e.1 e.2).sum + ((lookup k l).map (f k)).getD 0 =
      (l.map fun e => f e.1 e.2).sum + f k v := by
  induction l with
  | nil => simp [insert, lookup]
  | cons a rest ih =>
    obtain ⟨ha, hrest⟩ := pairwise_cons.1 hl
    simp only [insert]
    split
    · rename_i hlt
      have hnone : lookup k (a :: rest) = none := by
        refine lookup_eq_none_of_lt fun e he => ?_
        rcases mem_cons.1 he with rfl | he
        · exact hlt
        · exact Std.TransCmp.lt_trans hlt (ha e he)
      rw [hnone, map_cons, sum_cons, Option.map_none, Option.getD_none, add_zero, add_comm]
    · rename_i heq
      obtain rfl := Std.LawfulEqCmp.eq_of_compare heq
      simp only [lookup, if_true, map_cons, sum_cons, Option.map_some, Option.getD_some]
      abel
    · rename_i hgt
      have hne : k ≠ a.1 := by
        rintro rfl
        simp at hgt
      simp only [lookup, if_neg hne, map_cons, sum_cons]
      rw [add_assoc, ih hrest, add_assoc]

/-- Setting an entry adds its quantity to the sum, and takes away that of the entry it replaces. -/
theorem sumBy_set (s : KVStore K V) (k : K) (v : V) :
    sumBy f (s.set k v) + ((s.get k).map (f k)).getD 0 = sumBy f s + f k v :=
  sum_insert f k v s.sorted

omit [Std.TransOrd K] in
theorem sum_filter_ne (k : K) (hl : l.Pairwise fun a b => compare a.1 b.1 = .lt) :
    ((l.filter fun e => k ≠ e.1).map fun e => f e.1 e.2).sum + ((lookup k l).map (f k)).getD 0 =
      (l.map fun e => f e.1 e.2).sum := by
  induction l with
  | nil => simp [lookup]
  | cons a rest ih =>
    obtain ⟨ha, hrest⟩ := pairwise_cons.1 hl
    by_cases hk : k = a.1
    · subst hk
      have hal : (rest.filter fun e => a.1 ≠ e.1) = rest := by
        refine filter_eq_self.2 fun e he => ?_
        have hlt := ha e he
        refine decide_eq_true fun heq => ?_
        rw [heq] at hlt
        simp at hlt
      rw [filter_cons_of_neg (by simp), hal]
      simp only [lookup, if_true, map_cons, sum_cons, Option.map_some, Option.getD_some]
      rw [add_comm]
    · rw [filter_cons_of_pos (by simpa using hk)]
      simp only [lookup, if_neg hk, map_cons, sum_cons]
      rw [add_assoc, ih hrest]

omit [Std.TransOrd K] in
/-- Deleting an entry takes its quantity from the sum. -/
theorem sumBy_delete (s : KVStore K V) (k : K) : sumBy f (s.delete k) + ((s.get k).map (f k)).getD 0 = sumBy f s :=
  sum_filter_ne f k s.sorted

/-- Assigning the value of a key adds its quantity to the sum, and takes away that of the value it had. -/
theorem sumBy_assign (s : KVStore K V) (k : K) (v : Option V) :
    sumBy f (s.assign k v) + ((s.get k).map (f k)).getD 0 = sumBy f s + (v.map (f k)).getD 0 := by
  cases v with
  | some v => exact sumBy_set f s k v
  | none =>
    rw [Option.map_none, Option.getD_none, add_zero]
    exact sumBy_delete f s k

omit [Std.TransOrd K] in
/-- A sum of quantities that are not negative is not negative. -/
theorem sumBy_nonneg [Preorder M] [AddLeftMono M] {f : K → V → M} (h : ∀ k v, s.get k = some v → 0 ≤ f k v) : 0 ≤ sumBy f s := by
  refine sum_nonneg fun x hx => ?_
  obtain ⟨⟨k, v⟩, he, rfl⟩ := mem_map.1 hx
  exact h k v (s.mem_entries.1 he)

omit [DecidableEq K] [Std.TransOrd K] in
/-- No key has two entries. -/
theorem nodup_keys (s : KVStore K V) : (s.entries.map Prod.fst).Nodup := by
  refine pairwise_map.2 (s.sorted.imp fun {a b} hlt heq => ?_)
  rw [heq] at hlt
  simp at hlt

omit [Std.TransOrd K] in
/-- A sum over a store is a sum over any set of keys that has all the keys that count. -/
theorem sumBy_eq_sum {f : K → V → M} (keys : Finset K) (h : ∀ k v, s.get k = some v → k ∉ keys → f k v = 0) :
    sumBy f s = ∑ k ∈ keys, ((s.get k).map (f k)).getD 0 := by
  have how : sumBy f s = ∑ k ∈ (s.entries.map Prod.fst).toFinset, ((s.get k).map (f k)).getD 0 := by
    rw [sum_toFinset _ s.nodup_keys, map_map]
    unfold sumBy
    refine congrArg List.sum (map_congr_left fun e he => ?_)
    rw [Function.comp_apply, s.mem_entries.1 he]
    rfl
  rw [how]
  refine Finset.sum_congr_of_eq_on_inter (fun k _ hk => ?_) (fun k _ hk => ?_) fun k _ _ => rfl
  · cases hget : s.get k with
    | none => rfl
    | some v => exact h k v hget hk
  · cases hget : s.get k with
    | none => rfl
    | some v => exact absurd (mem_toFinset.2 (mem_map.2 ⟨(k, v), s.mem_entries.2 hget, rfl⟩)) hk

end Sum

/-! ### Stores with the same lookups -/

/-- Two stores in which every key has the same value are equal. -/
theorem ext_get {t : KVStore K V} (h : ∀ k, s.get k = t.get k) : s = t := by
  have hmem : ∀ e, e ∈ s.entries ↔ e ∈ t.entries := by
    rintro ⟨k, v⟩
    rw [mem_entries, mem_entries, h]
  have hp : s.entries.Perm t.entries :=
    (perm_ext_iff_of_nodup s.nodup_keys.of_map t.nodup_keys.of_map).2 hmem
  have hen : s.entries = t.entries := by
    refine hp.eq_of_pairwise (fun a b _ _ hab hba => ?_) s.sorted t.sorted
    exact absurd hba (Std.OrientedCmp.not_lt_of_lt hab)
  cases s
  cases t
  cases hen
  rfl

/-- The store with entries set one after another. -/
def setAll (s : KVStore K V) (l : List (K × V)) : KVStore K V := l.foldl (fun t e => t.set e.1 e.2) s

omit [DecidableEq K] in
/-- Setting one entry more. -/
theorem setAll_append_singleton (s : KVStore K V) (l : List (K × V)) (e : K × V) :
    s.setAll (l ++ [e]) = (s.setAll l).set e.1 e.2 := foldl_append

theorem get_setAll_of_notMem (s : KVStore K V) {k : K} (h : k ∉ l.map Prod.fst) : (s.setAll l).get k = s.get k := by
  induction l generalizing s with
  | nil => rfl
  | cons e rest ih =>
    have hk : k ≠ e.1 ∧ k ∉ rest.map Prod.fst := by simpa using h
    have hrest := ih (s.set e.1 e.2) hk.2
    rw [get_set_of_ne _ _ hk.1] at hrest
    exact hrest

theorem get_setAll_of_mem (s : KVStore K V) (hno : (l.map Prod.fst).Nodup) {k : K}
    (h : (k, v) ∈ l) : (s.setAll l).get k = some v := by
  induction l generalizing s with
  | nil => cases h
  | cons e rest ih =>
    obtain ⟨hf, hrest⟩ := nodup_cons.1 hno
    rcases mem_cons.1 h with rfl | hmem
    · show ((s.set k v).setAll rest).get k = some v
      rw [get_setAll_of_notMem _ hf, get_set_self]
    · exact ih (s.set e.1 e.2) hrest hmem

/-- A key that is set has the value of one of its entries, the last. -/
theorem get_setAll_mem (s : KVStore K V) {k : K} (h : k ∈ l.map Prod.fst) :
    ∃ v, (k, v) ∈ l ∧ (s.setAll l).get k = some v := by
  induction l generalizing s with
  | nil => cases h
  | cons e rest ih =>
    by_cases hrest : k ∈ rest.map Prod.fst
    · obtain ⟨v, hv, hget⟩ := ih (s.set e.1 e.2) hrest
      exact ⟨v, mem_cons_of_mem _ hv, hget⟩
    · obtain rfl : k = e.1 := (mem_cons.1 h).resolve_right hrest
      refine ⟨e.2, mem_cons_self, ?_⟩
      show ((s.set e.1 e.2).setAll rest).get e.1 = some e.2
      rw [get_setAll_of_notMem _ hrest, get_set_self]

/-- While a store is restored, the next entry is not there yet. -/
theorem get_setAll_of_entries {before after : List (K × V)} {e : K × V}
    (h : s.entries = before ++ e :: after) : ((empty : KVStore K V).setAll before).get e.1 = none := by
  refine get_setAll_of_notMem _ fun hmem => ?_
  have hno := s.nodup_keys
  rw [h, map_append, map_cons] at hno
  exact (nodup_append.1 hno).2.2 _ hmem _ mem_cons_self rfl

/-- A store is restored from its entries. -/
theorem setAll_entries (s : KVStore K V) : (empty : KVStore K V).setAll s.entries = s := by
  refine ext_get fun k => ?_
  cases hget : s.get k with
  | some v => exact get_setAll_of_mem _ s.nodup_keys (s.mem_entries.2 hget)
  | none =>
    refine get_setAll_of_notMem _ fun hmem => ?_
    obtain ⟨⟨k', v⟩, he, rfl⟩ := mem_map.1 hmem
    cases hget.symm.trans (s.mem_entries.1 he)

/-! ### What all entries have -/

/-- All entries have a property. -/
def All (s : KVStore K V) (P : K → V → Prop) : Prop := ∀ k v, s.get k = some v → P k v

variable {P : K → V → Prop}

omit [Std.TransOrd K] [Std.LawfulEqOrd K] in
theorem All.empty : (KVStore.empty : KVStore K V).All P := fun _ _ h => nomatch h

omit [Std.TransOrd K] in
theorem All.of_entries (h : ∀ e ∈ s.entries, P e.1 e.2) : s.All P :=
  fun k v hget => h (k, v) (s.mem_entries.2 hget)

theorem All.set (hs : s.All P) {k : K} (h : P k v) : (s.set k v).All P := by
  intro k' v' hget
  rw [get_set] at hget
  split at hget
  · rename_i hk
    obtain rfl := Option.some.inj hget
    exact hk ▸ h
  · exact hs k' v' hget

omit [Std.TransOrd K] [Std.LawfulEqOrd K] in
theorem All.delete (hs : s.All P) (k : K) : (s.delete k).All P := by
  intro k' v' hget
  rw [get_delete] at hget
  split at hget
  · cases hget
  · exact hs k' v' hget

end Lookup

end KVStore
