import Vera.Lib.Bytes

/-! # Base 32

The standard encoding of RFC 4648: five bits to a character of the alphabet, and padding up to a multiple of eight
characters. -/

namespace Base32

open List
open Bytes (str)

/-- The alphabet. -/
def alphabet : Bytes := str "ABCDEFGHIJKLMNOPQRSTUVWXYZ234567"

/-- The bits of a byte, from the highest one. -/
def bitsOf (b : UInt8) : List Bool := (List.range 8).map fun i => b.toNat.testBit (7 - i)

/-- The character of five bits. -/
def symbol (a b c d e : Bool) : UInt8 :=
  alphabet.getD (16 * a.toNat + 8 * b.toNat + 4 * c.toNat + 2 * d.toNat + e.toNat) 0

/-- The characters of a list of bits; what is missing of the last five bits is zero. -/
def symbols : List Bool → Bytes
  | a :: b :: c :: d :: e :: rest => symbol a b c d e :: symbols rest
  | [a, b, c, d] => [symbol a b c d false]
  | [a, b, c] => [symbol a b c false false]
  | [a, b] => [symbol a b false false false]
  | [a] => [symbol a false false false false]
  | [] => []

/-- The standard encoding. -/
def encode (s : Bytes) : Bytes :=
  let chars := symbols (s.flatMap bitsOf)
  chars ++ List.replicate ((8 - chars.length % 8) % 8) 0x3d

example : encode (str "foob") = str "MZXW6YQ=" := by decide

/-! ### Strings of one length are encoded differently -/

theorem length_bitsOf (b : UInt8) : (bitsOf b).length = 8 := by
  simp [bitsOf]

/-- The bits determine the byte. -/
theorem bitsOf_injective : Function.Injective bitsOf := by
  intro a b h
  refine UInt8.toNat_inj.1 (Nat.eq_of_testBit_eq fun i => ?_)
  by_cases hi : i < 8
  · have := congrArg (fun l => l[7 - i]?) h
    simp only [bitsOf, List.getElem?_map] at this
    rw [List.getElem?_range (by omega)] at this
    have hb : 7 - (7 - i) = i := by omega
    simpa [hb] using this
  · have hlt : ∀ c : UInt8, c.toNat < 2 ^ i := fun c =>
      Nat.lt_of_lt_of_le c.toNat_lt (Nat.pow_le_pow_right (by omega) (by omega))
    rw [Nat.testBit_lt_two_pow (hlt a), Nat.testBit_lt_two_pow (hlt b)]

theorem symbol_injective {a b c d e a' b' c' d' e' : Bool} (h : symbol a b c d e = symbol a' b' c' d' e') :
    a = a' ∧ b = b' ∧ c = c' ∧ d = d' ∧ e = e' := by
  revert a b c d e a' b' c' d' e'
  decide +kernel

/-- Lists of bits of one length have different characters. -/
theorem symbols_injective : ∀ {x y : List Bool}, x.length = y.length → symbols x = symbols y → x = y
  | a :: b :: c :: d :: e :: x, a' :: b' :: c' :: d' :: e' :: y, hl, h => by
    simp only [symbols, List.cons.injEq] at h
    obtain ⟨rfl, rfl, rfl, rfl, rfl⟩ := symbol_injective h.1
    rw [symbols_injective (by simpa using hl) h.2]
  | [a, b, c, d], [a', b', c', d'], _, h => by
    obtain ⟨rfl, rfl, rfl, rfl, -⟩ := symbol_injective (List.cons.inj h).1
    rfl
  | [a, b, c], [a', b', c'], _, h => by
    obtain ⟨rfl, rfl, rfl, -⟩ := symbol_injective (List.cons.inj h).1
    rfl
  | [a, b], [a', b'], _, h => by
    obtain ⟨rfl, rfl, -⟩ := symbol_injective (List.cons.inj h).1
    rfl
  | [a], [a'], _, h => by
    obtain ⟨rfl, -⟩ := symbol_injective (List.cons.inj h).1
    rfl
  | [], [], _, _ => rfl

theorem length_symbols_congr : ∀ {x y : List Bool}, x.length = y.length → (symbols x).length = (symbols y).length
  | a :: b :: c :: d :: e :: x, a' :: b' :: c' :: d' :: e' :: y, hl => by
    simp only [symbols, length_cons]
    rw [length_symbols_congr (x := x) (y := y) (by simpa using hl)]
  | [_, _, _, _], [_, _, _, _], _ => rfl
  | [_, _, _], [_, _, _], _ => rfl
  | [_, _], [_, _], _ => rfl
  | [_], [_], _ => rfl
  | [], [], _ => rfl

theorem length_flatMap_bitsOf (s : Bytes) : (s.flatMap bitsOf).length = 8 * s.length := by
  induction s with
  | nil => rfl
  | cons b rest ih =>
    rw [flatMap_cons, length_append, ih, length_bitsOf, length_cons]
    omega

theorem flatMap_bitsOf_injective {x y : Bytes} (hl : x.length = y.length) (h : x.flatMap bitsOf = y.flatMap bitsOf) :
    x = y := by
  induction x generalizing y with
  | nil => exact (length_eq_zero_iff.1 hl.symm).symm
  | cons a x ih =>
    cases y with
    | nil => cases hl
    | cons b y =>
      rw [flatMap_cons, flatMap_cons] at h
      obtain ⟨h1, h2⟩ := append_inj h (by rw [length_bitsOf, length_bitsOf])
      rw [bitsOf_injective h1, ih (Nat.succ.inj hl) h2]

/-- Different strings of one length have different encodings. -/
theorem encode_injective {x y : Bytes} (hl : x.length = y.length) (h : encode x = encode y) : x = y := by
  have hb : (x.flatMap bitsOf).length = (y.flatMap bitsOf).length := by
    rw [length_flatMap_bitsOf, length_flatMap_bitsOf, hl]
  obtain ⟨hch, -⟩ := append_inj h (length_symbols_congr hb)
  exact flatMap_bitsOf_injective hl (symbols_injective hb hch)

end Base32
