import Mathlib.Logic.Basic
import Vera.Lib.Bytes

/-! # The wire format of Protocol Buffers

A message is a list of entries, a field number with a number or a byte string, each written behind a tag. In the third version
of the language an empty value has no entry. The entries of a message can be read off its bytes. -/

namespace Protobuf

open List

/-- The base-128 digits of a number, the lowest first, with at most so many digits to follow the first. -/
def varintDigits : Nat → Nat → Bytes
  | 0, n => [UInt8.ofNat n]
  | digits + 1, n =>
    if n < 128 then [UInt8.ofNat n] else UInt8.ofNat (n % 128 + 128) :: varintDigits digits (n / 128)

/-- A number as a varint. -/
def varint (n : Nat) : Bytes := varintDigits n n

/-- The value of a field. -/
inductive Value where
  | uint (n : Nat)
  | bytes (s : Bytes)
  deriving Repr, DecidableEq

/-- The tag of a field: its number, and the wire type of its value in the last three bits. -/
def tag (field : Nat) : Value → Nat
  | .uint _ => 8 * field
  | .bytes _ => 8 * field + 2

/-- The bytes of a value. -/
def Value.encode : Value → Bytes
  | .uint n => varint n
  | .bytes s => varint s.length ++ s

/-- The bytes of a message. -/
def encode (entries : List (Nat × Value)) : Bytes := entries.flatMap fun e => varint (tag e.1 e.2) ++ e.2.encode

/-! ### Fields -/

/-- A field that holds a number. -/
def uintField (field n : Nat) : List (Nat × Value) := if n = 0 then [] else [(field, .uint n)]

/-- A field that holds a byte string. -/
def bytesField (field : Nat) (s : Bytes) : List (Nat × Value) := if s = [] then [] else [(field, .bytes s)]

/-- A field that holds a list of byte strings. -/
def repeatedField (field : Nat) (values : List Bytes) : List (Nat × Value) := values.map fun s => (field, .bytes s)

/-- A field with presence, which is written even if it is zero. -/
def optionalField (field : Nat) (n : Option Nat) : List (Nat × Value) := n.toList.map fun n => (field, .uint n)

@[simp] theorem lookup_uintField (field number n : Nat) :
    (uintField number n).lookup field = if field = number ∧ n ≠ 0 then some (.uint n) else none := by
  unfold uintField
  by_cases hn : n = 0
  · simp [hn]
  · by_cases hf : field = number
    · simp [hn, hf]
    · simp [hn, hf, List.lookup_cons, beq_eq_false_iff_ne.2 hf]

@[simp] theorem lookup_bytesField (field number : Nat) (s : Bytes) :
    (bytesField number s).lookup field = if field = number ∧ s ≠ [] then some (.bytes s) else none := by
  unfold bytesField
  by_cases hs : s = []
  · simp [hs]
  · by_cases hf : field = number
    · simp [hs, hf]
    · simp [hs, hf, List.lookup_cons, beq_eq_false_iff_ne.2 hf]

/-- A value that is left out when it is empty can still be told. -/
theorem eq_of_present {α : Type} [DecidableEq α] {empty s t : α} {f : α → Value} (hf : ∀ x y, f x = f y → x = y)
    (h : (if s = empty then none else some (f s)) = if t = empty then none else some (f t)) : s = t := by
  split at h
  · rename_i hs
    split at h
    · rename_i ht
      rw [hs, ht]
    · cases h
  · split at h
    · cases h
    · exact hf s t (Option.some.inj h)

/-! ### Reading the entries off the bytes -/

theorem varintDigits_of_lt {digits n : Nat} (h : n < 128) : varintDigits digits n = [UInt8.ofNat n] := by
  cases digits with
  | zero => rfl
  | succ digits => exact if_pos h

theorem varintDigits_of_le {digits n : Nat} (h : ¬n < 128) (hf : n < 128 ^ (digits + 1)) :
    ∃ d, varintDigits digits n = UInt8.ofNat (n % 128 + 128) :: varintDigits d (n / 128) ∧ digits = d + 1 ∧
      n / 128 < 128 ^ (d + 1) := by
  cases digits with
  | zero => omega
  | succ d => exact ⟨d, if_neg h, rfl, Nat.div_lt_of_lt_mul (by rwa [Nat.pow_succ, Nat.mul_comm] at hf)⟩

variable {a b : Nat} {x y : Bytes}

theorem ofNat_inj_of_lt (ha : a < 256) (hb : b < 256) (h : UInt8.ofNat a = UInt8.ofNat b) : a = b := by
  have hv := congrArg UInt8.toNat h
  simp only [UInt8.toNat_ofNat'] at hv
  omega

/-- One digit is cut off in one way only. -/
theorem digit_append_inj {e : Nat} (ha : a < 128) (hb : b < 128 ^ (e + 1))
    (h : UInt8.ofNat a :: x = varintDigits e b ++ y) : a = b ∧ x = y := by
  by_cases hs : b < 128
  · rw [varintDigits_of_lt hs] at h
    obtain ⟨hh, ht⟩ := List.cons.inj h
    exact ⟨ofNat_inj_of_lt (by omega) (by omega) hh, ht⟩
  · obtain ⟨_, hd, _⟩ := varintDigits_of_le hs hb
    rw [hd] at h
    have := ofNat_inj_of_lt (by omega) (by omega) (List.cons.inj h).1
    omega

/-- A varint is cut off in one way only. -/
theorem varintDigits_append_inj {d e : Nat} (ha : a < 128 ^ (d + 1)) (hb : b < 128 ^ (e + 1))
    (h : varintDigits d a ++ x = varintDigits e b ++ y) : a = b ∧ x = y := by
  induction d generalizing e a b with
  | zero => exact digit_append_inj (by simpa using ha) hb h
  | succ d ih =>
    by_cases ha' : a < 128
    · rw [varintDigits_of_lt ha'] at h
      exact digit_append_inj ha' hb h
    by_cases hb' : b < 128
    · rw [varintDigits_of_lt hb'] at h
      obtain ⟨hba, hyx⟩ := digit_append_inj hb' ha h.symm
      exact ⟨hba.symm, hyx.symm⟩
    obtain ⟨d', hdi, hd', hrest⟩ := varintDigits_of_le ha' ha
    obtain ⟨e', hdi', _, hrest'⟩ := varintDigits_of_le hb' hb
    obtain rfl : d = d' := Nat.succ.inj hd'
    rw [hdi, hdi'] at h
    obtain ⟨hh, ht⟩ := List.cons.inj h
    have hl := ofNat_inj_of_lt (by omega) (by omega) hh
    obtain ⟨hhi, hxy⟩ := ih hrest hrest' ht
    exact ⟨by omega, hxy⟩

theorem varint_append_inj (h : varint a ++ x = varint b ++ y) : a = b ∧ x = y := by
  have hf : ∀ n : Nat, n < 128 ^ (n + 1) := fun n =>
    Nat.lt_of_lt_of_le (Nat.lt_pow_self (by decide)) (Nat.pow_le_pow_right (by decide) (Nat.le_succ n))
  exact varintDigits_append_inj (hf a) (hf b) h

/-- The tag fixes the field and the wire type. -/
theorem tag_inj {m n : Nat} {v w : Value} (h : tag m v = tag n w) :
    m = n ∧ ((∃ a b, v = .uint a ∧ w = .uint b) ∨ ∃ s t, v = .bytes s ∧ w = .bytes t) := by
  cases v with
  | uint a =>
    cases w with
    | uint b =>
      simp only [tag] at h
      exact ⟨by omega, .inl ⟨a, b, rfl, rfl⟩⟩
    | bytes t =>
      simp only [tag] at h
      omega
  | bytes s =>
    cases w with
    | uint b =>
      simp only [tag] at h
      omega
    | bytes t =>
      simp only [tag] at h
      exact ⟨by omega, .inr ⟨s, t, rfl, rfl⟩⟩

theorem encode_entry_append_inj {e f : Nat × Value}
    (h : varint (tag e.1 e.2) ++ e.2.encode ++ x = varint (tag f.1 f.2) ++ f.2.encode ++ y) : e = f ∧ x = y := by
  obtain ⟨m, v⟩ := e
  obtain ⟨n, w⟩ := f
  simp only [append_assoc] at h
  obtain ⟨ht, hrest⟩ := varint_append_inj h
  obtain ⟨rfl, ⟨a, b, rfl, rfl⟩ | ⟨s, t, rfl, rfl⟩⟩ := tag_inj ht
  · obtain ⟨rfl, hxy⟩ := varint_append_inj hrest
    exact ⟨rfl, hxy⟩
  · simp only [Value.encode, append_assoc] at hrest
    obtain ⟨hlength, hrest⟩ := varint_append_inj hrest
    obtain ⟨rfl, hxy⟩ := append_inj hrest hlength
    exact ⟨rfl, hxy⟩

theorem varint_ne_nil (n : Nat) : varint n ≠ [] := by
  unfold varint
  cases n with
  | zero => exact cons_ne_nil _ _
  | succ n =>
    rw [varintDigits]
    split
    · exact cons_ne_nil _ _
    · exact cons_ne_nil _ _

/-- Messages with the same bytes have the same entries. -/
theorem encode_inj {xs ys : List (Nat × Value)} (h : encode xs = encode ys) : xs = ys := by
  induction xs generalizing ys with
  | nil =>
    cases ys with
    | nil => rfl
    | cons f ys =>
      have hni := (append_eq_nil_iff.1 (append_eq_nil_iff.1 h.symm).1).1
      exact absurd hni (varint_ne_nil _)
  | cons e xs ih =>
    cases ys with
    | nil =>
      have hni := (append_eq_nil_iff.1 (append_eq_nil_iff.1 h).1).1
      exact absurd hni (varint_ne_nil _)
    | cons f ys =>
      obtain ⟨rfl, ht⟩ := encode_entry_append_inj (show _ ++ encode xs = _ ++ encode ys from h)
      rw [ih ht]

example : encode (bytesField 1 (Bytes.str "ab") ++ uintField 2 0 ++ uintField 7 300) =
    [0x0a, 2, 97, 98, 0x38, 0xac, 0x02] := by decide

end Protobuf
