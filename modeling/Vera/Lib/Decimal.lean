import Vera.Lib.Bytes

/-! # Decimal numbers

Writing and reading of integers in base ten, as Go's `strconv` does it. -/

namespace Decimal

open List
open Bytes (str)

/-- The decimal digits of a natural number. -/
def dec (n : Nat) : Bytes := (Nat.toDigits 10 n).map fun c => UInt8.ofNat c.toNat

/-- The decimal representation of an integer, as `strconv.AppendInt` writes it. -/
def decInt (z : Int) : Bytes := if z < 0 then 0x2d :: dec z.natAbs else dec z.natAbs

/-- Whether a byte is a decimal digit. -/
def isDigit (b : UInt8) : Bool := 0x30 ≤ b && b ≤ 0x39

/-- The value of a string of digits after an accumulated value. -/
def readDigits : Bytes → Nat → Option Nat
  | [], acc => some acc
  | b :: rest, acc => if isDigit b then readDigits rest (10 * acc + (b.toNat - 48)) else none

/-- The value of a non-empty string of digits. -/
def parseNat (s : Bytes) : Option Nat := if s = [] then none else readDigits s 0

/-- The value of a decimal number of 64 bits, as `strconv.ParseInt` reads it: an optional sign, digits, and a value in
range. -/
def parseInt64 : Bytes → Option Int
  | 0x2d :: rest => (parseNat rest).bind fun n => if n ≤ 2 ^ 63 then some (-(n : Int)) else none
  | 0x2b :: rest => (parseNat rest).bind fun n => if n < 2 ^ 63 then some n else none
  | s => (parseNat s).bind fun n => if n < 2 ^ 63 then some n else none

/-! ### Digits -/

theorem dec_ne_nil (n : Nat) : dec n ≠ [] := by
  simp [dec, Nat.toDigits_ne_nil]

/-- A digit character is a digit byte of the same value. -/
theorem isDigit_ofNat {c : Char} (h : c.isDigit = true) :
    isDigit (UInt8.ofNat c.toNat) = true ∧ (UInt8.ofNat c.toNat).toNat = c.toNat := by
  simp only [Char.isDigit, Bool.and_eq_true, decide_eq_true_eq] at h
  obtain ⟨h1, h2⟩ := h
  have h1' : 48 ≤ c.toNat := h1
  have h2' : c.toNat ≤ 57 := h2
  have ht : (UInt8.ofNat c.toNat).toNat = c.toNat := by
    rw [UInt8.toNat_ofNat']
    omega
  refine ⟨?_, ht⟩
  simp only [isDigit, Bool.and_eq_true, decide_eq_true_eq, UInt8.le_iff_toNat_le, ht]
  exact ⟨h1', h2'⟩

variable {b : UInt8} {z : Int} {s : Bytes} {acc : Nat}

theorem isDigit_of_mem_dec {n : Nat} (h : b ∈ dec n) : isDigit b = true := by
  obtain ⟨c, hc, rfl⟩ := mem_map.1 h
  exact (isDigit_ofNat (Nat.isDigit_of_mem_toDigits (by omega) (by omega) hc)).1

/-- Every byte of a decimal number is a digit or the sign. -/
theorem mem_decInt (h : b ∈ decInt z) : b = 0x2d ∨ isDigit b = true := by
  unfold decInt at h
  split at h
  · rcases mem_cons.1 h with h | h
    · exact .inl h
    · exact .inr (isDigit_of_mem_dec h)
  · exact .inr (isDigit_of_mem_dec h)

/-! ### Reading back -/

theorem readDigits_map (l : List Char) (hl : ∀ c ∈ l, c.isDigit = true) (acc : Nat) :
    readDigits (l.map fun c => UInt8.ofNat c.toNat) acc = some (Nat.ofDigitChars 10 l acc) := by
  induction l generalizing acc with
  | nil => rfl
  | cons c rest ih =>
    obtain ⟨hd, ht⟩ := isDigit_ofNat (hl c mem_cons_self)
    rw [map_cons, readDigits, if_pos hd, ht, ih fun c hc => hl c (mem_cons_of_mem _ hc), Nat.ofDigitChars_cons]
    rfl

/-- Reading the digits of a number gives the number. -/
theorem parseNat_dec (n : Nat) : parseNat (dec n) = some n := by
  rw [parseNat, if_neg (dec_ne_nil n), dec,
    readDigits_map _ (fun c hc => Nat.isDigit_of_mem_toDigits (by omega) (by omega) hc), Nat.ofDigitChars_ten_toDigits]

/-- Different numbers have different digits. -/
theorem dec_injective : Function.Injective dec := by
  intro m n h
  have := congrArg parseNat h
  rwa [parseNat_dec, parseNat_dec, Option.some.injEq] at this

/-- Different integers are written differently. -/
theorem decInt_injective : Function.Injective decInt := by
  intro z w h
  have hs : ∀ {n : Nat} {rest : Bytes}, dec n ≠ 0x2d :: rest := by
    intro n rest heq
    have : isDigit 0x2d = true := isDigit_of_mem_dec (heq ▸ mem_cons_self)
    exact absurd this (by decide)
  unfold decInt at h
  split at h <;> split at h
  · have := dec_injective (List.cons.inj h).2
    omega
  · exact absurd h.symm hs
  · exact absurd h hs
  · have := dec_injective h
    omega

/-- Reading what was written gives the number, if it has 64 bits. -/
theorem parseInt64_decInt_eq (z : Int) : parseInt64 (decInt z) = if -2 ^ 63 ≤ z ∧ z < 2 ^ 63 then some z else none := by
  unfold decInt
  split
  · rename_i hne
    rw [parseInt64, parseNat_dec, Option.bind_some, show -(z.natAbs : Int) = z by omega]
    exact if_congr (by omega) rfl rfl
  · rename_i hpo
    have hp : parseInt64 (dec z.natAbs) = (parseNat (dec z.natAbs)).bind fun n => if n < 2 ^ 63 then some (n : Int) else none := by
      cases hd : dec z.natAbs with
      | nil => exact absurd hd (dec_ne_nil _)
      | cons b rest =>
        have hb : isDigit b = true := isDigit_of_mem_dec (hd ▸ mem_cons_self)
        have h1 : b ≠ 0x2d := by
          rintro rfl
          exact absurd hb (by decide)
        have h2 : b ≠ 0x2b := by
          rintro rfl
          exact absurd hb (by decide)
        unfold parseInt64
        split <;> rename_i heq
        · exact absurd (List.cons.inj heq).1 h1
        · exact absurd (List.cons.inj heq).1 h2
        · rfl
    rw [hp, parseNat_dec, Option.bind_some, show (z.natAbs : Int) = z by omega]
    exact if_congr (by omega) rfl rfl

theorem parseInt64_decInt (h1 : -2 ^ 63 ≤ z) (h2 : z < 2 ^ 63) : parseInt64 (decInt z) = some z := by
  rw [parseInt64_decInt_eq, if_pos ⟨h1, h2⟩]

theorem eq_of_parseInt64_decInt {w : Int} (h : parseInt64 (decInt z) = some w) : w = z := by
  rw [parseInt64_decInt_eq] at h
  split at h
  · exact (Option.some.inj h).symm
  · cases h

theorem isDigit_of_readDigits {n : Nat} (h : readDigits s acc = some n) (hb : b ∈ s) : isDigit b = true := by
  induction s generalizing acc with
  | nil => exact absurd hb not_mem_nil
  | cons c rest ih =>
    rw [readDigits] at h
    split at h
    · rename_i hc
      rcases mem_cons.1 hb with rfl | hb
      · exact hc
      · exact ih h hb
    · cases h

/-- The value of a string of digits, between those of its first part with zeros and with nines after it. -/
theorem readDigits_bounds {n : Nat} (h : readDigits s acc = some n) :
    acc * 10 ^ s.length ≤ n ∧ n < (acc + 1) * 10 ^ s.length := by
  induction s generalizing acc with
  | nil =>
    obtain rfl := Option.some.inj h
    simp
  | cons b rest ih =>
    rw [readDigits] at h
    split at h
    · rename_i hb
      simp only [isDigit, Bool.and_eq_true, decide_eq_true_eq, UInt8.le_iff_toNat_le] at hb
      obtain ⟨hl, hh⟩ := ih h
      have hb' : b.toNat ≤ 57 := hb.2
      rw [length_cons, Nat.pow_succ', ← Nat.mul_assoc, ← Nat.mul_assoc]
      exact ⟨Nat.le_trans (Nat.mul_le_mul_right _ (by omega)) hl, Nat.lt_of_lt_of_le hh (Nat.mul_le_mul_right _ (by omega))⟩
    · cases h

/-- Strings of as many digits are in the order of their values. -/
theorem lt_iff_of_readDigits {t : Bytes} {m n : Nat} (hl : s.length = t.length) (hs : readDigits s acc = some m)
    (ht : readDigits t acc = some n) : s < t ↔ m < n := by
  induction s generalizing t acc with
  | nil =>
    obtain rfl := length_eq_zero_iff.1 hl.symm
    obtain rfl := Option.some.inj (hs.symm.trans ht)
    simp
  | cons b rest ih =>
    cases t with
    | nil => cases hl
    | cons c rest' =>
      have hl : rest.length = rest'.length := Nat.succ.inj hl
      rw [readDigits] at hs ht
      split at hs <;> split at ht <;> try contradiction
      rename_i hb hc
      simp only [isDigit, Bool.and_eq_true, decide_eq_true_eq, UInt8.le_iff_toNat_le] at hb hc
      have hb' : 48 ≤ b.toNat := hb.1
      have hc' : 48 ≤ c.toNat := hc.1
      obtain ⟨hm, hm'⟩ := readDigits_bounds hs
      obtain ⟨hn, hn'⟩ := readDigits_bounds ht
      rw [cons_lt_cons_iff, UInt8.lt_iff_toNat_lt, ← UInt8.toNat_inj]
      rw [← hl] at hn hn'
      rcases Nat.lt_trichotomy b.toNat c.toNat with hlt | heq | hgt
      · have hle : (10 * acc + (b.toNat - 48) + 1) * 10 ^ rest.length ≤ (10 * acc + (c.toNat - 48)) * 10 ^ rest.length :=
          Nat.mul_le_mul_right _ (by omega)
        exact ⟨fun _ => by omega, fun _ => .inl hlt⟩
      · rw [← heq] at ht
        simp [heq, ih hl hs ht]
      · have hle : (10 * acc + (c.toNat - 48) + 1) * 10 ^ rest.length ≤ (10 * acc + (b.toNat - 48)) * 10 ^ rest.length :=
          Nat.mul_le_mul_right _ (by omega)
        constructor <;> omega

theorem readDigits_replicate (k : Nat) (s : Bytes) : readDigits (replicate k 0x30 ++ s) 0 = readDigits s 0 := by
  induction k with
  | zero => rfl
  | succ k ih => exact ih

theorem isDigit_of_parseNat {n : Nat} (h : parseNat s = some n) (hb : b ∈ s) : isDigit b = true := by
  unfold parseNat at h
  split at h
  · cases h
  · exact isDigit_of_readDigits h hb

/-- Every byte of a number that can be read is a digit or a sign. -/
theorem mem_of_parseInt64 (h : parseInt64 s = some z) (hb : b ∈ s) : b = 0x2d ∨ b = 0x2b ∨ isDigit b = true := by
  unfold parseInt64 at h
  split at h
  · obtain ⟨n, hn, -⟩ := Option.bind_eq_some_iff.1 h
    exact (mem_cons.1 hb).imp id fun hb => .inr (isDigit_of_parseNat hn hb)
  · obtain ⟨n, hn, -⟩ := Option.bind_eq_some_iff.1 h
    exact .inr ((mem_cons.1 hb).imp id fun hb => isDigit_of_parseNat hn hb)
  · obtain ⟨n, hn, -⟩ := Option.bind_eq_some_iff.1 h
    exact .inr (.inr (isDigit_of_parseNat hn hb))

example : decInt (-120) = str "-120" := by decide

example : parseInt64 (str "9223372036854775808") = none := by decide

end Decimal
