import Vera.Lib.Bytes

/-! # SHA-256

The hash of FIPS 180-4 over byte strings, on natural numbers below `2 ^ 32` so that the kernel can evaluate a digest. The
message schedule is a sliding window of sixteen words: a round takes the first word and appends the next one. -/

namespace Sha256

/-- Addition of words is modulo `2 ^ 32`. -/
def wordSize : Nat := 4294967296

/-- Rotation of a word to the right. -/
def rotr (n x : Nat) : Nat := (x >>> n) ||| ((x <<< (32 - n)) % wordSize)

/-- The function Σ₀ of the standard. -/
def bigSigma0 (x : Nat) : Nat := (rotr 2 x ^^^ rotr 13 x) ^^^ rotr 22 x

/-- The function Σ₁ of the standard. -/
def bigSigma1 (x : Nat) : Nat := (rotr 6 x ^^^ rotr 11 x) ^^^ rotr 25 x

/-- The function σ₀ of the standard. -/
def smallSigma0 (x : Nat) : Nat := (rotr 7 x ^^^ rotr 18 x) ^^^ (x >>> 3)

/-- The function σ₁ of the standard. -/
def smallSigma1 (x : Nat) : Nat := (rotr 17 x ^^^ rotr 19 x) ^^^ (x >>> 10)

/-- Choice: the bits of `y` where `x` is set, those of `z` elsewhere. -/
def ch (x y z : Nat) : Nat := (x &&& y) ^^^ ((x ^^^ (wordSize - 1)) &&& z)

/-- Majority of three words, bit by bit. -/
def maj (x y z : Nat) : Nat := ((x &&& y) ^^^ (x &&& z)) ^^^ (y &&& z)

/-- The eight working variables, also the chaining value between blocks. -/
structure Regs where
  a : Nat
  b : Nat
  c : Nat
  d : Nat
  e : Nat
  f : Nat
  g : Nat
  h : Nat

/-- The initial hash value. -/
def init : Regs :=
  ⟨0x6a09e667, 0xbb67ae85, 0x3c6ef372, 0xa54ff53a, 0x510e527f, 0x9b05688c, 0x1f83d9ab, 0x5be0cd19⟩

/-- The sixty-four round constants. -/
def constants : List Nat := [
  0x428a2f98, 0x71374491, 0xb5c0fbcf, 0xe9b5dba5, 0x3956c25b, 0x59f111f1, 0x923f82a4, 0xab1c5ed5,
  0xd807aa98, 0x12835b01, 0x243185be, 0x550c7dc3, 0x72be5d74, 0x80deb1fe, 0x9bdc06a7, 0xc19bf174,
  0xe49b69c1, 0xefbe4786, 0x0fc19dc6, 0x240ca1cc, 0x2de92c6f, 0x4a7484aa, 0x5cb0a9dc, 0x76f988da,
  0x983e5152, 0xa831c66d, 0xb00327c8, 0xbf597fc7, 0xc6e00bf3, 0xd5a79147, 0x06ca6351, 0x14292967,
  0x27b70a85, 0x2e1b2138, 0x4d2c6dfc, 0x53380d13, 0x650a7354, 0x766a0abb, 0x81c2c92e, 0x92722c85,
  0xa2bfe8a1, 0xa81a664b, 0xc24b8b70, 0xc76c51a3, 0xd192e819, 0xd6990624, 0xf40e3585, 0x106aa070,
  0x19a4c116, 0x1e376c08, 0x2748774c, 0x34b0bcb5, 0x391c0cb3, 0x4ed8aa4a, 0x5b9cca4f, 0x682e6ff3,
  0x748f82ee, 0x78a5636f, 0x84c87814, 0x8cc70208, 0x90befffa, 0xa4506ceb, 0xbef9a3f7, 0xc67178f2]

/-- One round, with its constant and its word of the schedule. -/
def round (r : Regs) (k w : Nat) : Regs :=
  let t1 := r.h + bigSigma1 r.e + ch r.e r.f r.g + k + w
  let t2 := bigSigma0 r.a + maj r.a r.b r.c
  ⟨(t1 + t2) % wordSize, r.a, r.b, r.c, (r.d + t1) % wordSize, r.e, r.f, r.g⟩

/-- The rounds for a list of constants, from a window of the sixteen next words of the schedule. -/
def rounds : List Nat → List Nat → Regs → Regs
  | [], _, r => r
  | k :: ks, ws, r =>
    let w := ws.headD 0
    let next := (smallSigma1 (ws.getD 14 0) + ws.getD 9 0 + smallSigma0 (ws.getD 1 0) + w) % wordSize
    rounds ks (ws.tail ++ [next]) (round r k w)

/-- The compression of one block of sixteen words into the chaining value. -/
def compress (r : Regs) (ws : List Nat) : Regs :=
  let s := rounds constants ws r
  ⟨(r.a + s.a) % wordSize, (r.b + s.b) % wordSize, (r.c + s.c) % wordSize, (r.d + s.d) % wordSize,
    (r.e + s.e) % wordSize, (r.f + s.f) % wordSize, (r.g + s.g) % wordSize, (r.h + s.h) % wordSize⟩

/-- The padded message: a one bit, zeros up to the last eight bytes of a block, and the length in bits. -/
def pad (m : Bytes) : Bytes :=
  m ++ 0x80 :: (List.replicate ((119 - m.length % 64) % 64) 0 ++ Bytes.bigEndian 8 (8 * m.length))

/-- The big-endian words of a byte string. -/
def wordsOf : Bytes → List Nat
  | a :: b :: c :: d :: rest => (((a.toNat * 256 + b.toNat) * 256 + c.toNat) * 256 + d.toNat) :: wordsOf rest
  | _ => []

/-- Compression of the first `n` blocks of a list of words. -/
def blocks : Nat → List Nat → Regs → Regs
  | 0, _, r => r
  | n + 1, ws, r => blocks n (ws.drop 16) (compress r (ws.take 16))

/-- The SHA-256 digest of a byte string. -/
def sum256 (m : Bytes) : Bytes :=
  let ws := wordsOf (pad m)
  let r := blocks (ws.length / 16) ws init
  [r.a, r.b, r.c, r.d, r.e, r.f, r.g, r.h].flatMap (Bytes.bigEndian 4)

/-- A digest has thirty-two bytes. -/
@[simp] theorem length_sum256 (m : Bytes) : (sum256 m).length = 32 := by
  simp [sum256, List.flatMap]

/-- No two of the messages have the same digest. -/
def CollisionFree (messages : List Bytes) : Prop := ∀ a ∈ messages, ∀ b ∈ messages, sum256 a = sum256 b → a = b

instance (messages : List Bytes) : Decidable (CollisionFree messages) :=
  inferInstanceAs (Decidable (∀ a ∈ messages, ∀ b ∈ messages, sum256 a = sum256 b → a = b))

example : Bytes.hex (sum256 (Bytes.str "abc")) =
    Bytes.str "ba7816bf8f01cfea414140de5dae2223b00361a396177a9cb410ff61f20015ad" := by decide +kernel

end Sha256
