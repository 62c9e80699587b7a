import Mathlib.Data.Int.Basic
import Mathlib.Tactic.Ring
import Mathlib.Tactic.Linarith
import Vera.Lib.Decimal

/-!
# Decimals with eighteen places

A number is kept as an integer count of the smallest unit. Products and quotients are rounded to the nearest unit, a tie to
the even one; the sign is taken off first. The library that this follows panics on numbers of more than 315 bits, which are
not considered here.
-/

/-- A decimal number, in units of the eighteenth place. -/
structure Dec where
  raw : Int
  deriving Repr, DecidableEq

namespace Dec

/-- The units in one. -/
def precision : Int := 10 ^ 18

/-- A whole number. -/
def ofInt (n : Int) : Dec := ⟨n * precision⟩

/-- Division by the units in one, to the nearest, a tie to the even quotient. -/
def chopRound (n : Int) : Int :=
  let quo := n.natAbs / 10 ^ 18
  let rem := n.natAbs % 10 ^ 18
  n.sign * (if 5 * 10 ^ 17 < rem ∨ (rem = 5 * 10 ^ 17 ∧ quo % 2 = 1) then quo + 1 else quo : Nat)

/-- The product, rounded. -/
def mul (a b : Dec) : Dec := ⟨chopRound (a.raw * b.raw)⟩

/-- The quotient, rounded. -/
def quo (a b : Dec) : Dec := ⟨chopRound ((a.raw * (precision * precision)).tdiv b.raw)⟩

/-- The quotient with the places after the last one cut off. -/
def quoTruncate (a b : Dec) : Dec := ⟨((a.raw * (precision * precision)).tdiv b.raw).tdiv precision⟩

/-- The product with a whole number. -/
def mulInt (a : Dec) (n : Int) : Dec := ⟨a.raw * n⟩

/-- The difference. -/
def sub (a b : Dec) : Dec := ⟨a.raw - b.raw⟩

/-- The whole part, toward zero. -/
def truncateInt (a : Dec) : Int := a.raw.tdiv precision

/-- The smallest whole number that is not less. -/
def ceil (a : Dec) : Dec := ofInt (if 0 < a.raw.tmod precision then a.truncateInt + 1 else a.truncateInt)

/-- The nearest whole number, a tie to the even one. -/
def roundInt (a : Dec) : Int := chopRound a.raw

/-- The digits of the number of units, at least nineteen. -/
def digits (a : Dec) : Bytes :=
  let text := Decimal.dec a.raw.natAbs
  List.replicate (19 - text.length) 0x30 ++ text

/-- The decimal notation, with all eighteen places. -/
def string (a : Dec) : Bytes :=
  (if a.raw < 0 then [0x2d] else []) ++ a.digits.take (a.digits.length - 18) ++ [0x2e] ++ a.digits.drop (a.digits.length - 18)

/-- Whether a number is zero. -/
def isZero (a : Dec) : Bool := a.raw == 0

/-- Whether a number is greater than zero. -/
def isPositive (a : Dec) : Bool := decide (0 < a.raw)

theorem precision_pos : 0 < precision := by decide

/-- Rounding takes a multiple of the unit to itself. -/
@[simp] theorem chopRound_mul_precision (n : Int) : chopRound (n * precision) = n := by
  have ha : (n * precision).natAbs = n.natAbs * 10 ^ 18 := by
    rw [Int.natAbs_mul]
    rfl
  have hs : (n * precision).sign = n.sign := by
    rw [Int.sign_mul]
    exact mul_one _
  simp only [chopRound, ha, hs, Nat.mul_mod_left, Nat.mul_div_cancel _ (show 0 < 10 ^ 18 by decide)]
  rw [if_neg (by omega)]
  exact Int.sign_mul_natAbs n

/-- The product of a whole number with a decimal is exact. -/
theorem ofInt_mul (n : Int) (d : Dec) : (ofInt n).mul d = ⟨n * d.raw⟩ := by
  have h : n * precision * d.raw = n * d.raw * precision := by ring
  simp only [ofInt, mul, h, chopRound_mul_precision]

theorem mul_ofInt (d : Dec) (n : Int) : d.mul (ofInt n) = ⟨d.raw * n⟩ := by
  simp only [mul, ofInt, ← mul_assoc, chopRound_mul_precision]

/-- The number is the least whole one that is not less. -/
theorem roundInt_ceil_le_iff (a : Dec) (n : Int) : a.ceil.roundInt ≤ n ↔ a.raw ≤ n * precision := by
  have hd := Int.mul_tdiv_add_tmod a.raw precision
  have hlt := Int.tmod_lt_of_pos a.raw precision_pos
  have hgt := Int.lt_tmod_of_pos a.raw precision_pos
  simp only [ceil, roundInt, ofInt, truncateInt, chopRound_mul_precision]
  unfold precision at *
  split <;> omega

/-- The whole part of a product with a whole number. -/
theorem truncateInt_ofInt_mul (n : Int) (d : Dec) : ((ofInt n).mul d).truncateInt = (n * d.raw).tdiv precision := by
  rw [ofInt_mul]
  rfl

theorem truncateInt_ofInt (n : Int) : (ofInt n).truncateInt = n :=
  Int.mul_tdiv_cancel n (by decide)

/-- Rounding does not turn a number negative. -/
theorem chopRound_nonneg {n : Int} (h : 0 ≤ n) : 0 ≤ chopRound n :=
  Int.mul_nonneg (Int.sign_nonneg_iff.2 h) (Int.natCast_nonneg _)

/-- Rounding does not pass a multiple of the unit. -/
theorem chopRound_le {n k : Int} (hk : 0 ≤ k) (h : n ≤ k * precision) : chopRound n ≤ k := by
  have hd := Nat.div_add_mod n.natAbs (10 ^ 18)
  have hm := Nat.mod_lt n.natAbs (show 0 < 10 ^ 18 by decide)
  unfold chopRound precision at *
  rcases lt_trichotomy n 0 with hne | rfl | hp
  · rw [Int.sign_eq_neg_one_of_neg hne]
    dsimp only
    split <;> omega
  · exact hk
  · rw [Int.sign_eq_one_of_pos hp]
    dsimp only
    split <;> omega

@[simp] theorem chopRound_zero : chopRound 0 = 0 := rfl

/-- A quotient of numbers that are not negative is not negative. -/
theorem quo_nonneg {a b : Dec} (ha : 0 ≤ a.raw) (hb : 0 ≤ b.raw) : 0 ≤ (a.quo b).raw :=
  chopRound_nonneg (Int.tdiv_nonneg (Int.mul_nonneg ha (by decide)) hb)

theorem quoTruncate_nonneg {a b : Dec} (ha : 0 ≤ a.raw) (hb : 0 ≤ b.raw) : 0 ≤ (a.quoTruncate b).raw :=
  Int.tdiv_nonneg (Int.tdiv_nonneg (Int.mul_nonneg ha (by decide)) hb) precision_pos.le

/-- A quotient by a number that is not less than the dividend, nor negative, is at most one. -/
theorem quo_le_one {a b : Dec} (hb : 0 ≤ b.raw) (hab : a.raw ≤ b.raw) : (a.quo b).raw ≤ precision := by
  refine chopRound_le precision_pos.le ?_
  rcases hb.eq_or_lt with hz | hb
  · rw [← hz, Int.tdiv_zero]
    decide
  have hm : a.raw * (precision * precision) ≤ precision * precision * b.raw := by
    rw [mul_comm]
    exact mul_le_mul_of_nonneg_left hab (by decide)
  calc (a.raw * (precision * precision)).tdiv b.raw
      ≤ (precision * precision * b.raw).tdiv b.raw := Int.tdiv_le_tdiv hb hm
    _ = precision * precision := Int.mul_tdiv_cancel _ hb.ne'

/-- A number divided by itself is one. -/
theorem quo_self {a : Dec} (ha : a.raw ≠ 0) : a.quo a = ofInt 1 := by
  rw [quo, mul_comm, Int.mul_tdiv_cancel _ ha, chopRound_mul_precision]
  rfl

/-- Division by one leaves a whole number. -/
theorem ofInt_quo_one (n : Int) : (ofInt n).quo (ofInt 1) = ofInt n := by
  have h : (ofInt n).raw * (precision * precision) = n * precision * precision * (ofInt 1).raw := by
    simp only [ofInt]
    ring
  rw [quo, h, Int.mul_tdiv_cancel _ (by decide), chopRound_mul_precision]
  rfl

/-- The smallest whole number that is not less than a positive one is positive. -/
theorem truncateInt_ceil_nonneg {a : Dec} (ha : 0 ≤ a.raw) : 0 ≤ a.ceil.truncateInt := by
  have ht : 0 ≤ a.truncateInt := Int.tdiv_nonneg ha precision_pos.le
  rw [ceil, truncateInt_ofInt]
  split
  · omega
  · exact ht

example : (ofInt 100).mul (⟨888888888888888889⟩ : Dec) = ⟨88888888888888888900⟩ := by decide

example : (ofInt 2).quo (ofInt 3) = ⟨666666666666666667⟩ := by decide

example : (⟨-25⟩ : Dec).string = Bytes.str "-0.000000000000000025" := by decide

end Dec
