import Vera.Lib.Bytes

/-! # Patterns with a wildcard

A string fits the parts between the stars of a pattern if it has them in their order, the first one at its start and the last
one at its end. To take every part between at its first occurrence loses nothing. -/

namespace Glob

open List

def star : UInt8 := 0x2a

/-- A star stands for any string, every other byte for itself. -/
inductive Matches : Bytes → Bytes → Prop
  | nil : Matches [] []
  | byte {c : UInt8} {p s : Bytes} (hc : c ≠ star) (h : Matches p s) : Matches (c :: p) (c :: s)
  | star {p s : Bytes} (u : Bytes) (h : Matches p s) : Matches (star :: p) (u ++ s)

/-- `strings.Split` at the stars: the first part, and the others. -/
def split : Bytes → Bytes × List Bytes
  | [] => ([], [])
  | c :: p => if c = star then ([], (split p).1 :: (split p).2) else (c :: (split p).1, (split p).2)

/-- `strings.Index`: where a string first occurs in another. -/
def index (sub : Bytes) : Bytes → Option Nat
  | [] => if sub = [] then some 0 else none
  | c :: s => if sub.isPrefixOf (c :: s) then some 0 else (index sub s).map (· + 1)

/-- The string has the parts in their order, the first one at its start and the last one at its end. -/
def Fits : Bytes → List Bytes → Bytes → Prop
  | part, [], s => s = part
  | part, next :: rest, s => ∃ u t, s = part ++ (u ++ t) ∧ Fits next rest t

/-- The same, with anything before the first part. -/
def Floats (part : Bytes) (rest : List Bytes) (s : Bytes) : Prop := ∃ u t, s = u ++ t ∧ Fits part rest t

variable {c : UInt8} {p s part next sub : Bytes} {rest : List Bytes}

theorem fits_cons : Fits (c :: part) rest s ↔ ∃ t, s = c :: t ∧ Fits part rest t := by
  cases rest with
  | nil => simp [Fits]
  | cons next rest =>
    constructor
    · rintro ⟨u, t, rfl, h⟩
      exact ⟨_, rfl, u, t, rfl, h⟩
    · rintro ⟨_, rfl, u, t, rfl, h⟩
      exact ⟨u, t, rfl, h⟩

/-- A string matches a pattern if it fits the parts of the pattern. -/
theorem matches_iff : Matches p s ↔ Fits (split p).1 (split p).2 s := by
  induction p generalizing s with
  | nil => exact ⟨fun h => by cases h; rfl, fun h => by cases h; exact .nil⟩
  | cons c p ih =>
    rw [split]
    split
    · rename_i hc
      subst hc
      constructor
      · rintro (_ | ⟨hc, -⟩ | ⟨u, h⟩)
        · exact absurd rfl hc
        · exact ⟨u, _, rfl, ih.1 h⟩
      · rintro ⟨u, t, rfl, h⟩
        exact .star u (ih.2 h)
    · rename_i hc
      rw [fits_cons]
      constructor
      · rintro (_ | ⟨-, h⟩ | ⟨u, h⟩)
        · exact ⟨_, rfl, ih.1 h⟩
        · exact absurd rfl hc
      · rintro ⟨t, rfl, h⟩
        exact .byte hc (ih.2 h)

/-- A pattern without a star is its only part. -/
theorem split_fst (h : (split p).2 = []) : (split p).1 = p := by
  induction p with
  | nil => rfl
  | cons c p ih =>
    rw [split] at h ⊢
    split at h
    · cases h
    · rename_i hc
      rw [if_neg hc, ih h]

/-- After a star at the end comes an empty part. -/
theorem getLast_split (p : Bytes) : (split (p ++ [star])).2.getLast? = some [] := by
  induction p with
  | nil => rfl
  | cons c p ih =>
    rw [cons_append, split]
    split
    · rw [getLast?_cons, ih]
      rfl
    · exact ih

theorem index_eq_zero : index sub s = some 0 ↔ sub <+: s := by
  cases s with
  | nil => simp [index]
  | cons c s => simp [index, isPrefixOf_iff_prefix]

theorem floats_nil : Floats part [] s ↔ part <:+ s :=
  ⟨fun ⟨u, _, h, ht⟩ => ⟨u, by rw [h, ht]⟩, fun ⟨u, h⟩ => ⟨u, part, h.symm, rfl⟩⟩

/-- The exchange: what comes after an occurrence comes after one at the start, too. -/
theorem floats_append : Floats part (next :: rest) (part ++ s) ↔ Floats next rest s := by
  constructor
  · rintro ⟨u, _, hs, v, t, rfl, h⟩
    have hsuf : t <:+ s := by
      refine suffix_of_suffix_length_le ⟨u ++ (part ++ v), by simp [hs]⟩ (suffix_append part s) ?_
      have hlen := congrArg length hs
      simp only [length_append] at hlen
      omega
    obtain ⟨x, rfl⟩ := hsuf
    exact ⟨x, t, rfl, h⟩
  · rintro ⟨v, t, rfl, h⟩
    exact ⟨[], _, rfl, v, t, rfl, h⟩

theorem floats_cons : Floats part (next :: rest) s ↔
    ∃ i, index part s = some i ∧ Floats next rest (s.drop (i + part.length)) := by
  induction s with
  | nil =>
    by_cases hp : part = []
    · rw [hp]
      exact (floats_append : Floats [] (next :: rest) ([] ++ []) ↔ _).trans (by simp [index])
    · simp [index, Floats, Fits, hp]
  | cons c s ih =>
    by_cases hp : part <+: c :: s
    · obtain ⟨w, hw⟩ := hp
      simp [← hw, index_eq_zero.2 (prefix_append part w), floats_append]
    · rw [index, if_neg (by rwa [ isPrefixOf_iff_prefix])]
      simp only [Option.map_eq_some_iff, exists_exists_and_eq_and, Nat.add_right_comm, drop_succ_cons, ← ih]
      constructor
      · rintro ⟨_ | ⟨_, u⟩, t, hs, ht⟩
        · obtain ⟨v, w, rfl, -⟩ := ht
          exact absurd ⟨_, hs.symm⟩ hp
        · obtain ⟨rfl, rfl⟩ := cons.inj hs
          exact ⟨u, t, rfl, ht⟩
      · rintro ⟨u, t, rfl, h⟩
        exact ⟨c :: u, t, rfl, h⟩

end Glob
