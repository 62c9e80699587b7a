import Mathlib.Algebra.Order.Ring.Int
import Mathlib.Data.List.Basic
import Mathlib.Data.List.Induction

/-! # Byte strings

Strings and byte slices of the modelled programs are lists of bytes: a string of a Go program need not be valid
UTF-8, and its length, its order and its concatenation are those of its bytes. -/

/-- A Go string or byte slice. -/
abbrev Bytes := List UInt8

namespace Bytes

instance lawfulBEq : LawfulBEq Bytes := inferInstance

instance lawfulBEq_prod : LawfulBEq (Bytes × Bytes) := inferInstance

open List

/-- The bytes of a string literal. -/
def str (s : String) : Bytes := s.toUTF8.data.toList

/-- The string without its leading bytes in the cut set. The cut sets used are ASCII, so cutting bytes and cutting
code points agree. -/
def trimLeft (cutset s : Bytes) : Bytes := s.dropWhile cutset.contains

/-- Whether a string starts with another. -/
def startsWith (p s : Bytes) : Bool := p.isPrefixOf s

/-- The string without a string it starts with; any other string as it is. -/
def trimStart (p s : Bytes) : Bytes := if startsWith p s then s.drop p.length else s

/-- Whether a byte continues a code point in UTF-8. -/
def utf8Continues (b : UInt8) : Bool := 0x80 ≤ b && b ≤ 0xbf

/-- Whether a string is valid UTF-8: no code point is written longer than it need be, none is a surrogate or too large. -/
def validUtf8 : Bytes → Bool
  | [] => true
  | a :: rest =>
    if a < 0x80 then validUtf8 rest
    else
      match rest with
      | [] => false
      | b :: rest =>
        if 0xc2 ≤ a && a ≤ 0xdf then utf8Continues b && validUtf8 rest
        else
          match rest with
          | [] => false
          | c :: rest =>
            if 0xe0 ≤ a && a ≤ 0xef then
              utf8Continues b && (a != 0xe0 || 0xa0 ≤ b) && (a != 0xed || b ≤ 0x9f) && utf8Continues c && validUtf8 rest
            else
              match rest with
              | [] => false
              | d :: rest =>
                0xf0 ≤ a && a ≤ 0xf4 && utf8Continues b && (a != 0xf0 || 0x90 ≤ b) && (a != 0xf4 || b ≤ 0x8f) &&
                  utf8Continues c && utf8Continues d && validUtf8 rest

/-- The big-endian bytes of a number, in a fixed width. -/
def bigEndian : Nat → Nat → Bytes
  | 0, _ => []
  | n + 1, x => bigEndian n (x / 256) ++ [UInt8.ofNat (x % 256)]

@[simp] theorem length_bigEndian (n x : Nat) : (bigEndian n x).length = n := by
  induction n generalizing x with
  | zero => rfl
  | succ n ih => simp [bigEndian, ih]

/-- The number with given big-endian bytes. -/
def ofBigEndian (s : Bytes) : Nat := s.foldl (fun acc b => 256 * acc + b.toNat) 0

theorem ofBigEndian_bigEndian (n x : Nat) : ofBigEndian (bigEndian n x) = x % 256 ^ n := by
  induction n generalizing x with
  | zero => simp [ofBigEndian, bigEndian, Nat.mod_one]
  | succ n ih =>
    have hs : ofBigEndian (bigEndian (n + 1) x) = 256 * ofBigEndian (bigEndian n (x / 256)) + x % 256 := by
      simp [ofBigEndian, bigEndian, foldl_append]
    rw [hs, ih, Nat.pow_succ, Nat.mul_comm (256 ^ n), Nat.mod_mul]
    omega

theorem ofBigEndian_append_singleton (s : Bytes) (b : UInt8) : ofBigEndian (s ++ [b]) = 256 * ofBigEndian s + b.toNat := by
  simp [ofBigEndian, foldl_append]

/-- Bytes are the big-endian bytes of their number. -/
theorem bigEndian_ofBigEndian (s : Bytes) : bigEndian s.length (ofBigEndian s) = s := by
  induction s using List.reverseRecOn with
  | nil => rfl
  | append_singleton s b ih =>
    have hlt := b.toNat_lt
    have hd : (256 * ofBigEndian s + b.toNat) / 256 = ofBigEndian s := by omega
    have hm : (256 * ofBigEndian s + b.toNat) % 256 = b.toNat := by omega
    rw [length_append, length_singleton, bigEndian, ofBigEndian_append_singleton, hd, hm, ih, UInt8.ofNat_toNat]

theorem ofBigEndian_lt (s : Bytes) : ofBigEndian s < 256 ^ s.length := by
  induction s using List.reverseRecOn with
  | nil => simp [ofBigEndian]
  | append_singleton s b ih =>
    have hlt := b.toNat_lt
    rw [length_append, length_singleton, ofBigEndian_append_singleton, Nat.pow_succ]
    omega

/-- One lower-case hexadecimal digit. -/
def hexDigit (n : Nat) : UInt8 := if n < 10 then UInt8.ofNat (48 + n) else UInt8.ofNat (87 + n)

/-- Lower-case hexadecimal, two digits a byte. -/
def hex (s : Bytes) : Bytes := s.flatMap fun b => [hexDigit (b.toNat / 16), hexDigit (b.toNat % 16)]

@[simp] theorem length_hex (s : Bytes) : (hex s).length = 2 * s.length := by
  induction s with
  | nil => rfl
  | cons b rest ih =>
    show (hex rest).length + 1 + 1 = 2 * (rest.length + 1)
    omega

theorem hexDigit_inj {m n : Nat} (hm : m < 16) (hn : n < 16) (h : hexDigit m = hexDigit n) : m = n := by
  have ha : ∀ a < 16, ∀ b < 16, hexDigit a = hexDigit b → a = b := by decide
  exact ha m hm n hn h

/-- Different strings have different hexadecimal forms. -/
theorem hex_inj {s t : Bytes} (h : hex s = hex t) : s = t := by
  induction s generalizing t with
  | nil =>
    cases t with
    | nil => rfl
    | cons b t => cases h
  | cons a s ih =>
    cases t with
    | nil => cases h
    | cons b t =>
      obtain ⟨hh, hrest⟩ := List.cons.inj h
      obtain ⟨hl, ht⟩ := List.cons.inj hrest
      have ha := a.toNat_lt
      have hb := b.toNat_lt
      have hd := hexDigit_inj (by omega) (by omega) hh
      have hm := hexDigit_inj (by omega) (by omega) hl
      rw [ih ht, UInt8.toNat_inj.1 (show a.toNat = b.toNat by omega)]

/-- No hexadecimal form starts with `0x`, which its second digit would have to be part of. -/
theorem trimStart_hex (s : Bytes) : trimStart (str "0x") (hex s) = hex s := by
  have hst : startsWith (str "0x") (hex s) = false := by
    cases s with
    | nil => rfl
    | cons b rest =>
      have hd : ∀ n < 16, ((120 : UInt8) == hexDigit n) = false := by decide
      have hl := hd (b.toNat % 16) (Nat.mod_lt _ (by decide))
      have hs : startsWith (str "0x") (hex (b :: rest)) =
          ((48 : UInt8) == hexDigit (b.toNat / 16) && ((120 : UInt8) == hexDigit (b.toNat % 16) &&
            List.isPrefixOf [] (hex rest))) := rfl
      rw [hs, hl, Bool.false_and, Bool.and_false]
  unfold trimStart
  rw [hst, if_neg Bool.false_ne_true]

/-- A string is cut in one way only at the first occurrence of a separator. -/
theorem append_sep_inj {c : UInt8} {x y u v : Bytes} (hx : c ∉ x) (hy : c ∉ y) (h : x ++ c :: u = y ++ c :: v) :
    x = y ∧ u = v := by
  induction x generalizing y with
  | nil =>
    cases y with
    | nil => exact ⟨rfl, (List.cons.inj h).2⟩
    | cons b y => exact absurd ((List.cons.inj h).1 ▸ mem_cons_self) hy
  | cons a x ih =>
    cases y with
    | nil => exact absurd ((List.cons.inj h).1 ▸ mem_cons_self) hx
    | cons b y =>
      obtain ⟨hab, hrest⟩ := List.cons.inj h
      obtain ⟨hxy, huv⟩ := ih (fun hm => hx (mem_cons_of_mem _ hm)) (fun hm => hy (mem_cons_of_mem _ hm)) hrest
      exact ⟨by rw [hab, hxy], huv⟩

/-- Strings laid end to end are cut in one way only into strings of given lengths. -/
theorem flatten_append_inj {xs ys : List Bytes} {u v : Bytes} (hl : xs.map List.length = ys.map List.length)
    (h : xs.flatten ++ u = ys.flatten ++ v) : xs = ys ∧ u = v := by
  induction xs generalizing ys with
  | nil =>
    obtain rfl := map_eq_nil_iff.1 hl.symm
    exact ⟨rfl, h⟩
  | cons x xs ih =>
    cases ys with
    | nil => cases hl
    | cons y ys =>
      obtain ⟨hxy, hrest⟩ := List.cons.inj hl
      rw [flatten_cons, flatten_cons, append_assoc, append_assoc] at h
      obtain ⟨rfl, ht⟩ := append_inj h hxy
      obtain ⟨rfl, rfl⟩ := ih hrest ht
      exact ⟨rfl, rfl⟩

/-- Strings whose first parts have one length compare by these first. -/
theorem compare_append {x y u v : Bytes} (h : x.length = y.length) :
    compare (x ++ u) (y ++ v) = (compare x y).then (compare u v) := by
  induction x generalizing y with
  | nil =>
    obtain rfl := length_eq_zero_iff.1 h.symm
    rfl
  | cons a x ih =>
    cases y with
    | nil => cases h
    | cons b y =>
      rw [cons_append, cons_append, List.compare_cons_cons, List.compare_cons_cons, ih (Nat.succ.inj h),
        Ordering.then_assoc]

/-- Bytes compare as numbers. -/
theorem compare_byte (x y : UInt8) : compare x y = compare x.toNat y.toNat := by
  simp only [compare, compareOfLessAndEq, UInt8.lt_iff_toNat_lt, UInt8.toNat_inj]

/-- Big-endian numbers of one width compare as the numbers do. -/
theorem compare_bigEndian {n a b : Nat} (ha : a < 256 ^ n) (hb : b < 256 ^ n) :
    compare (bigEndian n a) (bigEndian n b) = compare a b := by
  induction n generalizing a b with
  | zero =>
    obtain rfl : a = b := by omega
    simp
  | succ n ih =>
    have hl : compare [UInt8.ofNat (a % 256)] [UInt8.ofNat (b % 256)] = compare (a % 256) (b % 256) := by
      rw [List.compare_cons_cons, compare_byte, List.compare_nil_nil, Ordering.then_eq, UInt8.toNat_ofNat_of_lt' (Nat.mod_lt a (by decide)),
        UInt8.toNat_ofNat_of_lt' (Nat.mod_lt b (by decide))]
    rw [bigEndian, bigEndian, compare_append (by simp), ih (by omega) (by omega), hl]
    rcases Nat.lt_trichotomy (a / 256) (b / 256) with h | h | h
    · rw [Nat.compare_eq_lt.2 h, Nat.compare_eq_lt.2 (show a < b by omega)]
      rfl
    · rw [Nat.compare_eq_eq.2 h, Ordering.eq_then]
      rcases Nat.lt_trichotomy (a % 256) (b % 256) with h' | h' | h'
      · rw [Nat.compare_eq_lt.2 h', Nat.compare_eq_lt.2 (show a < b by omega)]
      · rw [Nat.compare_eq_eq.2 h', Nat.compare_eq_eq.2 (show a = b by omega)]
      · rw [Nat.compare_eq_gt.2 h', Nat.compare_eq_gt.2 (show b < a by omega)]
    · rw [Nat.compare_eq_gt.2 h, Nat.compare_eq_gt.2 (show b < a by omega)]
      rfl

example : trimLeft (str " \n\t\r") (str " \t x ") = str "x " := by decide

example : validUtf8 (str "aé€𝄞") = true ∧ validUtf8 [0xc0, 0x80] = false ∧ validUtf8 [0xed, 0xa0, 0x80] = false := by decide

example : hex [0, 0x2f, 0xff] = str "002fff" := by decide

end Bytes
