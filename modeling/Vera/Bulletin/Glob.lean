import Vera.Lib.Glob

/-!
# The matcher of the post queries

`Glob` (`utils/glob.go`) takes each part of a pattern at its first occurrence, with special cases for a pattern without a star
and for stars at its ends.
-/

namespace Vera.Bulletin

open List
open Glob (Matches Fits Floats star split index)

/-- The loop of `Glob` over the parts, and the check of the last one. -/
def globParts (leadingGlob trailingGlob : Bool) : Nat → Bytes → List Bytes → Bytes → Bool
  | _, last, [], subj => trailingGlob || last.isSuffixOf subj
  | i, part, next :: rest, subj =>
    match index part subj with
    -- not for the first part after a leading glob, which is empty
    | none => false
    | some idx =>
      if i = 0 ∧ leadingGlob = false ∧ idx ≠ 0 then false
      else globParts leadingGlob trailingGlob (i + 1) next rest (subj.drop (idx + part.length))

def glob (pattern subj : Bytes) : Bool :=
  if pattern = [] then subj == pattern
  else if pattern = [star] then true
  else
    match split pattern with
    | (_, []) => subj == pattern
    | (part, next :: rest) =>
      let leadingGlob := [star].isPrefixOf pattern
      let trailingGlob := [star].isSuffixOf pattern
      globParts leadingGlob trailingGlob 0 part (next :: rest) subj

variable {part next s : Bytes} {rest : List Bytes} {leadingGlob trailingGlob : Bool}

theorem globParts_succ (ht : trailingGlob = true → (part :: rest).getLast? = some []) (i : Nat) :
    globParts leadingGlob trailingGlob (i + 1) part rest s = true ↔ Floats part rest s := by
  induction rest generalizing part s i with
  | nil =>
    rw [globParts, Glob.floats_nil, Bool.or_eq_true, isSuffixOf_iff_suffix]
    refine or_iff_right_of_imp fun h => ?_
    obtain rfl := Option.some.inj (ht h)
    exact nil_suffix
  | cons next rest ih =>
    rw [globParts, Glob.floats_cons]
    cases hi : index part s with
    | none => simp
    | some idx => simp [ih (fun h => by simpa using ht h)]

theorem fits_iff : Fits part (next :: rest) s ↔ index part s = some 0 ∧ Floats next rest (s.drop part.length) := by
  rw [Glob.index_eq_zero]
  constructor
  · rintro ⟨u, t, rfl, h⟩
    exact ⟨prefix_append _ _, u, t, drop_left, h⟩
  · rintro ⟨⟨w, rfl⟩, u, t, hd, h⟩
    rw [drop_left] at hd
    exact ⟨u, t, by rw [hd], h⟩

theorem globParts_zero (hl : leadingGlob = true → part = [])
    (ht : trailingGlob = true → (next :: rest).getLast? = some []) :
    globParts leadingGlob trailingGlob 0 part (next :: rest) s = true ↔ Fits part (next :: rest) s := by
  rw [fits_iff, globParts]
  cases hi : index part s with
  | none => simp
  | some idx =>
    by_cases h0 : idx = 0
    · simp [h0, globParts_succ ht]
    · -- an empty part occurs at the start
      have hlead : leadingGlob = false := by
        rw [Bool.eq_false_iff]
        intro h
        rw [hl h, Glob.index_eq_zero.2 nil_prefix] at hi
        exact h0 (Option.some.inj hi).symm
      simp [h0, hlead]

/-- For every pattern and every string the matcher accepts exactly what the pattern describes. -/
theorem glob_iff (pattern subj : Bytes) : glob pattern subj = true ↔ Matches pattern subj := by
  rw [Glob.matches_iff, glob]
  split
  · rename_i h
    rw [h, beq_iff_eq]
    rfl
  split
  · rename_i h
    rw [h]
    exact iff_of_true rfl ⟨subj, [], (append_nil _).symm, rfl⟩
  split
  · rename_i part h
    rw [h, beq_iff_eq, show part = pattern from (congrArg Prod.fst h).symm.trans (Glob.split_fst (congrArg Prod.snd h))]
    rfl
  · rename_i part next rest h
    rw [h]
    refine globParts_zero (fun hl => ?_) fun ht => ?_
    · obtain ⟨p, rfl⟩ := isPrefixOf_iff_prefix.1 hl
      exact (congrArg Prod.fst h).symm
    · obtain ⟨p, rfl⟩ := isSuffixOf_iff_suffix.1 ht
      rw [← show (split (p ++ [star])).2 = next :: rest from congrArg Prod.snd h]
      exact Glob.getLast_split p

end Vera.Bulletin
