import Mathlib.Data.Nat.Log
import Vera.Lib.Bytes

/-!
# Merkle trees with separate domains for leaves and inner nodes (RFC 6962)

A tree over a list of leaves splits at the largest power of two below its size. The digest is a parameter; of it the results
ask that all digests have one length and that no two of the strings hashed in a comparison collide. A checker reads the
siblings from the root down, with an index and a size that the prover names; nothing ties that size to the tree, and the
soundness result does not need it.
-/

namespace Merkle

open List

/-- The string hashed for a leaf. -/
def leafMessage (x : Bytes) : Bytes := 0 :: x

/-- The string hashed for an inner node. -/
def innerMessage (left right : Bytes) : Bytes := 1 :: (left ++ right)

/-- The largest power of two smaller than `n`, for `n` at least two. -/
def splitPoint (n : Nat) : Nat := 2 ^ Nat.log2 (n - 1)

theorem splitPoint_pos (n : Nat) : 0 < splitPoint n := Nat.two_pow_pos _

theorem splitPoint_lt {n : Nat} (h : 2 ≤ n) : splitPoint n < n := by
  have hle : splitPoint n ≤ n - 1 := Nat.log2_self_le (by omega)
  omega

/-- A tree over byte strings. -/
inductive Tree where
  | empty
  | leaf (x : Bytes)
  | node (left right : Tree)
  deriving Repr, DecidableEq

namespace Tree

/-- The leaves from left to right. -/
def leaves : Tree → List Bytes
  | empty => []
  | leaf x => [x]
  | node l r => l.leaves ++ r.leaves

/-- A tree over a list of leaves; the fuel is at least their number. -/
def build : Nat → List Bytes → Tree
  | _, [] => empty
  | _, [x] => leaf x
  | 0, _ => empty
  | fuel + 1, xs => node (build fuel (xs.take (splitPoint xs.length))) (build fuel (xs.drop (splitPoint xs.length)))

/-- The tree over a list of leaves. -/
def ofLeaves (xs : List Bytes) : Tree := build xs.length xs

variable (H : Bytes → Bytes)

/-- The hash of a tree. -/
def root : Tree → Bytes
  | empty => H []
  | leaf x => H (leafMessage x)
  | node l r => H (innerMessage l.root r.root)

/-- The strings hashed for the root of a tree. -/
def messages : Tree → List Bytes
  | empty => [[]]
  | leaf x => [leafMessage x]
  | node l r => innerMessage (root H l) (root H r) :: (messages l ++ messages r)

/-- The siblings of the leaf at an index, from the root down. -/
def path : Tree → Nat → List Bytes
  | node l r, i => if i < l.leaves.length then root H r :: path l i else root H l :: path r (i - l.leaves.length)
  | _, _ => []

end Tree

/-! ### Checking a path -/

section Check

variable (H : Bytes → Bytes)

/-- The root that a leaf hash and its siblings, from the root down, lead to. -/
def rootFromAunts (leafHash : Bytes) : List Bytes → Nat → Nat → Option Bytes
  | [], i, n => if i < n ∧ n = 1 then some leafHash else none
  | a :: rest, i, n =>
    if n ≤ i ∨ n ≤ 1 then none
    else if i < splitPoint n then (rootFromAunts leafHash rest i (splitPoint n)).map fun l => H (innerMessage l a)
    else (rootFromAunts leafHash rest (i - splitPoint n) (n - splitPoint n)).map fun r => H (innerMessage a r)

/-- The strings hashed on the way from a leaf to the root that its siblings lead to. -/
def pathMessages (x : Bytes) : List Bytes → Nat → Nat → List Bytes
  | [], _, _ => [leafMessage x]
  | a :: rest, i, n =>
    if i < splitPoint n then
      ((rootFromAunts H (H (leafMessage x)) rest i (splitPoint n)).toList.map fun l => innerMessage l a) ++
        pathMessages x rest i (splitPoint n)
    else
      ((rootFromAunts H (H (leafMessage x)) rest (i - splitPoint n) (n - splitPoint n)).toList.map fun r => innerMessage a r) ++
        pathMessages x rest (i - splitPoint n) (n - splitPoint n)

end Check

/-! ### The shape of a tree over a list -/

namespace Tree

/-- Every node splits its leaves where the checker expects it. -/
def Shaped : Tree → Prop
  | empty => False
  | leaf _ => True
  | node l r => l.leaves.length = splitPoint (l.leaves ++ r.leaves).length ∧ l.Shaped ∧ r.Shaped

theorem Shaped.leaves_pos {t : Tree} (h : t.Shaped) : 0 < t.leaves.length := by
  induction t with
  | empty => exact h.elim
  | leaf x => exact Nat.one_pos
  | node l r ihl _ =>
    rw [leaves, length_append]
    exact Nat.add_pos_left (ihl h.2.1) _

variable {xs : List Bytes} {fuel : Nat}

/-- Each half of a list of two leaves or more is smaller than the list and not empty. -/
theorem length_halves (h : 2 ≤ xs.length) : (xs.take (splitPoint xs.length)).length = splitPoint xs.length ∧
    (xs.drop (splitPoint xs.length)).length = xs.length - splitPoint xs.length :=
  ⟨length_take_of_le (splitPoint_lt h).le, length_drop⟩

theorem build_succ (h : 2 ≤ xs.length) : build (fuel + 1) xs =
      node (build fuel (xs.take (splitPoint xs.length))) (build fuel (xs.drop (splitPoint xs.length))) := by
  match xs, h with
  | _ :: _ :: _, _ => rfl

/-- A tree built over a list that is not empty has the list's elements as its leaves, and the expected shape. -/
theorem build_spec (hne : xs ≠ []) (hf : xs.length ≤ fuel) : (build fuel xs).leaves = xs ∧ (build fuel xs).Shaped := by
  induction fuel generalizing xs with
  | zero => exact absurd (eq_nil_of_length_eq_zero (Nat.le_zero.1 hf)) hne
  | succ fuel ih =>
    match xs, hne with
    | [x], _ => exact ⟨rfl, trivial⟩
    | x :: y :: rest, _ =>
      have h2 : 2 ≤ (x :: y :: rest).length := by simp
      rw [build_succ h2]
      generalize x :: y :: rest = xs at h2 hf
      obtain ⟨ht, hd⟩ := length_halves h2
      have hp := splitPoint_pos xs.length
      have hlt := splitPoint_lt h2
      -- both halves are shorter than the list, so one unit of fuel less is enough for them
      have htake_ne : xs.take (splitPoint xs.length) ≠ [] := ne_nil_of_length_pos (by omega)
      have hdrop_ne : xs.drop (splitPoint xs.length) ≠ [] := ne_nil_of_length_pos (by omega)
      obtain ⟨hl, hls⟩ := ih htake_ne (by omega)
      obtain ⟨hr, hrs⟩ := ih hdrop_ne (by omega)
      refine ⟨?_, ?_, hls, hrs⟩
      · rw [leaves, hl, hr, take_append_drop]
      · rw [hl, hr, take_append_drop, ht]

theorem leaves_ofLeaves (hne : xs ≠ []) : (ofLeaves xs).leaves = xs := (build_spec hne le_rfl).1

theorem shaped_ofLeaves (hne : xs ≠ []) : (ofLeaves xs).Shaped := (build_spec hne le_rfl).2

end Tree

/-! ### Every leaf has a path -/

section Complete

variable {H : Bytes → Bytes}

variable {x : Bytes} {t : Tree}

theorem eq_of_getElem?_leaf {y : Bytes} {i : Nat} (h : (Tree.leaf y).leaves[i]? = some x) : i = 0 ∧ y = x := by
  cases i with
  | zero => exact ⟨rfl, Option.some.inj h⟩
  | succ i => exact (nomatch h)

/-- The siblings of a leaf lead to the root of the tree. -/
theorem rootFromAunts_path (ht : t.Shaped) {i : Nat} (hx : t.leaves[i]? = some x) :
    rootFromAunts H (H (leafMessage x)) (t.path H i) i t.leaves.length = some (t.root H) := by
  induction t generalizing i with
  | empty => exact ht.elim
  | leaf y =>
    obtain ⟨rfl, rfl⟩ := eq_of_getElem?_leaf hx
    rfl
  | node l r ihl ihr =>
    obtain ⟨hs, hl, hr⟩ := ht
    have hlp := hl.leaves_pos
    have hrp := hr.leaves_pos
    have hi : i < (l.leaves ++ r.leaves).length := (List.getElem?_eq_some_iff.1 hx).1
    have hlen : (l.leaves ++ r.leaves).length = l.leaves.length + r.leaves.length := length_append
    rw [Tree.leaves] at hx ⊢
    rw [Tree.path]
    split
    · rename_i hlt
      rw [rootFromAunts, if_neg (by omega), ← hs, if_pos hlt, ihl hl (by rwa [List.getElem?_append_left hlt] at hx)]
      rfl
    · rename_i hge
      rw [rootFromAunts, if_neg (by omega), ← hs, if_neg hge, hlen, Nat.add_sub_cancel_left,
        ihr hr (by rwa [List.getElem?_append_right (Nat.le_of_not_lt hge)] at hx)]
      rfl

/-- The strings hashed to check the path of a leaf are strings hashed for the tree. -/
theorem pathMessages_path_subset (ht : t.Shaped) {i : Nat} (hx : t.leaves[i]? = some x) :
    pathMessages H x (t.path H i) i t.leaves.length ⊆ t.messages H := by
  induction t generalizing i with
  | empty => exact ht.elim
  | leaf y =>
    obtain ⟨-, rfl⟩ := eq_of_getElem?_leaf hx
    exact List.Subset.refl _
  | node l r ihl ihr =>
    obtain ⟨hs, hl, hr⟩ := ht
    have hlen : (l.leaves ++ r.leaves).length = l.leaves.length + r.leaves.length := length_append
    rw [Tree.leaves] at hx ⊢
    rw [Tree.path, Tree.messages]
    split
    · rename_i hlt
      rw [List.getElem?_append_left hlt] at hx
      rw [pathMessages, ← hs, if_pos hlt, rootFromAunts_path hl hx]
      exact cons_subset_cons _ fun m hm => mem_append_left _ (ihl hl hx hm)
    · rename_i hge
      rw [List.getElem?_append_right (Nat.le_of_not_lt hge)] at hx
      rw [pathMessages, ← hs, if_neg hge, hlen, Nat.add_sub_cancel_left, rootFromAunts_path hr hx]
      exact cons_subset_cons _ fun m hm => mem_append_right _ (ihr hr hx hm)

end Complete

/-! ### Every path leads to a leaf -/

section Sound

variable {H : Bytes → Bytes} {width : Nat}

/-- All hashes of a tree have the length of a digest. -/
theorem length_root (hl : ∀ m, (H m).length = width) (t : Tree) : (t.root H).length = width := by
  cases t <;> exact hl _

variable {x : Bytes} {aunts : List Bytes} {t : Tree}

/-- So does the root that a path leads to. -/
theorem length_of_rootFromAunts (hl : ∀ m, (H m).length = width) {i n : Nat} {h : Bytes}
    (hr : rootFromAunts H (H (leafMessage x)) aunts i n = some h) : h.length = width := by
  cases aunts with
  | nil =>
    obtain ⟨-, hr⟩ := Option.ite_none_right_eq_some.1 hr
    exact Option.some.inj hr ▸ hl _
  | cons a rest =>
    simp only [rootFromAunts, Option.ite_none_left_eq_some] at hr
    split at hr
    · obtain ⟨l, -, rfl⟩ := Option.map_eq_some_iff.1 hr.2
      exact hl _
    · obtain ⟨r, -, rfl⟩ := Option.map_eq_some_iff.1 hr.2
      exact hl _

/-- An inner string that is hashed to the root of a tree is the one hashed for its topmost node. -/
theorem node_of_innerMessage {l r : Bytes} (hf : ∀ m ∈ t.messages H, H (innerMessage l r) = H m → innerMessage l r = m)
    (h : H (innerMessage l r) = t.root H) :
    ∃ left right, t = .node left right ∧ l ++ r = left.root H ++ right.root H := by
  cases t with
  | empty => exact (nomatch hf [] mem_cons_self h)
  | leaf y => exact (nomatch List.cons.inj (hf _ mem_cons_self h))
  | node left right => exact ⟨left, right, rfl, (List.cons.inj (hf _ mem_cons_self h)).2⟩

/-- A leaf whose path leads to the root of a tree is a leaf of the tree, if no two of the strings hashed collide: at each
node the string hashed on the path is the node's own, and digests of one length can be cut from it again. -/
theorem mem_leaves_of_rootFromAunts (hlen : ∀ m, (H m).length = width) {i n : Nat}
    (hf : ∀ m ∈ pathMessages H x aunts i n, ∀ m' ∈ t.messages H, H m = H m' → m = m')
    (hr : rootFromAunts H (H (leafMessage x)) aunts i n = some (t.root H)) : x ∈ t.leaves := by
  induction aunts generalizing t i n with
  | nil =>
    obtain ⟨-, hr⟩ := Option.ite_none_right_eq_some.1 hr
    have hr := Option.some.inj hr
    cases t with
    | empty => exact (nomatch hf _ mem_cons_self [] mem_cons_self hr)
    | leaf y => exact (List.cons.inj (hf _ mem_cons_self _ mem_cons_self hr)).2 ▸ mem_cons_self
    | node l r => exact (nomatch List.cons.inj (hf _ mem_cons_self _ mem_cons_self hr))
  | cons a rest ih =>
    simp only [rootFromAunts, Option.ite_none_left_eq_some] at hr
    obtain ⟨-, hr⟩ := hr
    rw [pathMessages] at hf
    split at hr
    · rename_i hlt
      rw [if_pos hlt] at hf
      obtain ⟨l, hl, hr⟩ := Option.map_eq_some_iff.1 hr
      rw [hl] at hf
      obtain ⟨left, right, rfl, ha⟩ := node_of_innerMessage (hf _ mem_cons_self) hr
      obtain ⟨rfl, -⟩ := append_inj ha ((length_of_rootFromAunts hlen hl).trans (length_root hlen left).symm)
      refine mem_append_left _ (ih (fun m hm m' hm' => ?_) hl)
      exact hf m (mem_append_right _ hm) m' (mem_cons_of_mem _ (mem_append_left _ hm'))
    · rename_i hge
      rw [if_neg hge] at hf
      obtain ⟨r, hl, hr⟩ := Option.map_eq_some_iff.1 hr
      rw [hl] at hf
      obtain ⟨left, right, rfl, ha⟩ := node_of_innerMessage (hf _ mem_cons_self) hr
      obtain ⟨-, rfl⟩ := append_inj' ha ((length_of_rootFromAunts hlen hl).trans (length_root hlen right).symm)
      refine mem_append_right _ (ih (fun m hm m' hm' => ?_) hl)
      exact hf m (mem_append_right _ hm) m' (mem_cons_of_mem _ (mem_append_right _ hm'))

end Sound

end Merkle
