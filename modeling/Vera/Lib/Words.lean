import Mathlib.Algebra.FreeMonoid.Basic
import Mathlib.Algebra.Group.Commute.Basic
import Mathlib.Tactic.Ring

/-!
# Words that commute

Two words commute when it does not matter which of them is written first. What two words commute with, if it is not empty, makes
them commute with each other: all three are then powers of one word.
-/

namespace Words

open List

variable {α : Type}

theorem append_inj_of_mul {a b c d : FreeMonoid α} (h : a * b = c * d) (hlength : a.length = c.length) : a = c ∧ b = d :=
  append_inj h hlength

@[simp] theorem length_pow (x : FreeMonoid α) (n : Nat) : (x ^ n).length = n * x.length := by
  induction n with
  | zero => simp
  | succ n ih => rw [pow_succ, FreeMonoid.length_mul, ih, Nat.succ_mul]

/-- Words that commute have powers in common. -/
theorem pow_length_eq {x y : FreeMonoid α} (h : Commute x y) : x ^ y.length = y ^ x.length := by
  refine (append_inj_of_mul (h.pow_pow y.length x.length).eq ?_).1
  rw [length_pow, length_pow, Nat.mul_comm]

/-- Words with a power in common commute: both products are where that power starts. -/
theorem commute_of_pow_eq {x y : FreeMonoid α} {p q : Nat} (hp : 2 ≤ p) (hq : 2 ≤ q) (h : x ^ p = y ^ q) : Commute x y := by
  have hlength : p * x.length = q * y.length := by rw [← length_pow, h, length_pow]
  have hx := Nat.mul_le_mul_right x.length hp
  have hy := Nat.mul_le_mul_right y.length hq
  -- each product is as long as the same part of the power
  have hpa : ∀ {a b : FreeMonoid α} {m n : Nat}, a ^ m = b ^ (n + 1) → a.length + b.length ≤ (a ^ m).length →
      a * b = List.take (a.length + b.length) (a ^ m) := by
    intro a b m n hpo hle
    have hs : a * b * b ^ n = a ^ m * a := by
      rw [mul_assoc, ← pow_succ', ← hpo, ← pow_succ, ← pow_succ']
    have ht : List.take (a.length + b.length) (a * b * b ^ n) = a * b := take_left' (FreeMonoid.length_mul a b)
    rw [← ht, hs]
    exact take_append_of_le_length hle
  have hxy := hpa (n := q - 1) (h.trans (by rw [Nat.sub_add_cancel (by omega)])) (by rw [length_pow]; omega)
  have hyx := hpa (n := p - 1) (h.symm.trans (by rw [Nat.sub_add_cancel (by omega)])) (by rw [length_pow]; omega)
  rw [← h, Nat.add_comm] at hyx
  exact hxy.trans hyx.symm

/-- Two words that commute with a word that is not empty commute with each other. -/
theorem commute_trans {x u y : FreeMonoid α} (hu : u.length ≠ 0) (hx : Commute x u) (hy : Commute u y) : Commute x y := by
  rcases Nat.eq_zero_or_pos x.length with hz | hxp
  · rw [FreeMonoid.length_eq_zero.1 hz]
    exact Commute.one_left y
  rcases Nat.eq_zero_or_pos y.length with hz | hyp
  · rw [FreeMonoid.length_eq_zero.1 hz]
    exact Commute.one_right x
  have hp : x ^ (2 * (u.length * y.length)) = y ^ (2 * (u.length * x.length)) := by
    have hxu := pow_length_eq hx
    have hyu := pow_length_eq hy
    calc x ^ (2 * (u.length * y.length)) = (x ^ u.length) ^ (2 * y.length) := by rw [← pow_mul]; congr 1; ring
      _ = (u ^ y.length) ^ (2 * x.length) := by rw [hxu, ← pow_mul, ← pow_mul]; congr 1; ring
      _ = y ^ (2 * (u.length * x.length)) := by rw [hyu, ← pow_mul]; congr 1; ring
  refine commute_of_pow_eq ?_ ?_ hp
  · exact Nat.le_mul_of_pos_right 2 (Nat.mul_pos (Nat.pos_of_ne_zero hu) hyp)
  · exact Nat.le_mul_of_pos_right 2 (Nat.mul_pos (Nat.pos_of_ne_zero hu) hxp)

/-- The same, of lists. -/
theorem append_comm_trans {x u y : List α} (hu : u ≠ []) (hx : x ++ u = u ++ x) (hy : u ++ y = y ++ u) : x ++ y = y ++ x := by
  have hlength : (FreeMonoid.ofList u).length ≠ 0 := fun h => hu (eq_nil_of_length_eq_zero h)
  have hco : Commute (FreeMonoid.ofList x) (FreeMonoid.ofList y) := commute_trans hlength hx hy
  exact hco.eq

/-- What is written of a list whose words commute does not depend on the order. -/
theorem flatMap_perm {T : Type} {word : T → List α} {l l' : List T} (h : l.Perm l')
    (hco : ∀ a ∈ l, ∀ b ∈ l, word a ++ word b = word b ++ word a) : l.flatMap word = l'.flatMap word := by
  induction h with
  | nil => rfl
  | cons x _ ih =>
    rw [flatMap_cons, flatMap_cons, ih fun a ha b hb => hco a (mem_cons_of_mem x ha) b (mem_cons_of_mem x hb)]
  | swap x y l =>
    simp only [flatMap_cons, ← append_assoc]
    rw [hco y mem_cons_self x (mem_cons_of_mem y mem_cons_self)]
  | trans hf _ ih ih' =>
    rw [ih hco, ih' fun a ha b hb => hco a (hf.mem_iff.2 ha) b (hf.mem_iff.2 hb)]

end Words
