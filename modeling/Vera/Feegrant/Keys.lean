import Vera.Lib.Bytes
import Vera.Lib.Effect
import Vera.Lib.KVStore
import Vera.Lib.Time

/-!
# Keys of the fee grants

The keys of `x/feegrant/key.go`. A grant is stored under its grantee and its granter, each with its length before it, and a
grant that expires is listed a second time under the time it expires at. The two parts of a key can be read back from it.
-/

namespace Vera.Feegrant

open List Outcome

/-- An address or a DID as part of a key: it has one to 255 bytes, so its length is written in one. -/
structure KeyPart where
  bytes : Bytes
  nonempty : bytes ≠ []
  short : bytes.length ≤ 255
  deriving Repr, DecidableEq

namespace KeyPart

def ofBytes (b : Bytes) : Option KeyPart := if h : b ≠ [] ∧ b.length ≤ 255 then some ⟨b, h.1, h.2⟩ else none

/-- `address.MustLengthPrefix`: the part with its length before it. -/
def lengthPrefixed (p : KeyPart) : Bytes := UInt8.ofNat p.bytes.length :: p.bytes

theorem ofBytes_bytes (p : KeyPart) : ofBytes p.bytes = some p := by
  unfold ofBytes
  rw [dif_pos ⟨p.nonempty, p.short⟩]

theorem ofBytes_eq_some {b : Bytes} {p : KeyPart} (h : ofBytes b = some p) : p.bytes = b := by
  unfold ofBytes at h
  split at h
  · exact (Option.some.inj h) ▸ rfl
  · cases h

theorem toNat_length (p : KeyPart) : (UInt8.ofNat p.bytes.length).toNat = p.bytes.length :=
  UInt8.toNat_ofNat_of_lt' (Nat.lt_succ_of_le p.short)

end KeyPart

/-! ### Keys of grants -/

def feeAllowanceScanByGrantee (grantee : KeyPart) : Bytes := 0x00 :: grantee.lengthPrefixed

def feeAllowanceKey (granter grantee : KeyPart) : Bytes := feeAllowanceScanByGrantee grantee ++ granter.lengthPrefixed

def feeAllowanceScanByDID (did : KeyPart) : Bytes := 0x02 :: did.lengthPrefixed

def feeAllowanceByDIDKey (granter did : KeyPart) : Bytes := feeAllowanceScanByDID did ++ granter.lengthPrefixed

/-! ### Keys of the expiry queues

`formatTimeBytes` is `sdk.FormatTimeBytes`. -/

section Queue

variable (formatTimeBytes : Time → Bytes)

def allowanceByExpTimeKey (exp : Time) : Bytes := 0x01 :: formatTimeBytes exp

def feeAllowanceQueueKey (exp : Time) (key : Bytes) : Bytes := allowanceByExpTimeKey formatTimeBytes exp ++ key

def didAllowanceByExpTimeKey (exp : Time) : Bytes := 0x03 :: formatTimeBytes exp

def didFeeAllowanceQueueKey (exp : Time) (key : Bytes) : Bytes := didAllowanceByExpTimeKey formatTimeBytes exp ++ key

end Queue

/-! ### Reading keys -/

section Parse

variable {ε : Type}

/-- `sdk.ParseLengthPrefixedBytes`: a slice of a key and the index of its last byte. -/
def parseLengthPrefixedBytes (key : Bytes) (startIndex sliceLength : Nat) : Outcome ε (Bytes × Nat) :=
  if key.length < startIndex + sliceLength then .panic "incorrect key length"
  else .ok ((key.drop startIndex).take sliceLength, startIndex + sliceLength - 1)

/-- One part of a key with its length before it, and the index of its last byte. No key is built from an empty part. -/
def parsePart (key : Bytes) (startIndex : Nat) : Outcome ε (KeyPart × Nat) := do
  let (len, lenEndIndex) ← parseLengthPrefixedBytes key startIndex 1
  let (part, endIndex) ← parseLengthPrefixedBytes key (lenEndIndex + 1) (len.headD 0).toNat
  match KeyPart.ofBytes part with
  | none => .panic "empty key part"
  | some part => pure (part, endIndex)

/-- The granter and the grantee of a key whose parts start at an index: `ParseAddressesFromFeeAllowanceQueueKey` and
`ParseGranterDIDFromDIDAllowanceQueueKey` for the index after the time. -/
def parseGranterGrantee (key : Bytes) (startIndex : Nat) : Outcome ε (KeyPart × KeyPart) := do
  let (grantee, endIndex) ← parsePart key startIndex
  let (granter, _) ← parsePart key (endIndex + 1)
  pure (granter, grantee)

theorem parseLengthPrefixedBytes_append (u x v : Bytes) :
    (parseLengthPrefixedBytes (u ++ x ++ v) u.length x.length : Outcome ε (Bytes × Nat)) =
      .ok (x, u.length + x.length - 1) := by
  unfold parseLengthPrefixedBytes
  rw [if_neg (by simp), append_assoc, drop_left, take_left]

theorem parsePart_append (u v : Bytes) (p : KeyPart) :
    (parsePart (u ++ p.lengthPrefixed ++ v) u.length : Outcome ε (KeyPart × Nat)) =
      .ok (p, u.length + p.lengthPrefixed.length - 1) := by
  have hl := parseLengthPrefixedBytes_append (ε := ε) u [UInt8.ofNat p.bytes.length] (p.bytes ++ v)
  have hp := parseLengthPrefixedBytes_append (ε := ε) (u ++ [UInt8.ofNat p.bytes.length]) p.bytes v
  have hke : u ++ p.lengthPrefixed ++ v = u ++ [UInt8.ofNat p.bytes.length] ++ (p.bytes ++ v) := by
    simp [KeyPart.lengthPrefixed]
  have hke' : u ++ p.lengthPrefixed ++ v = u ++ [UInt8.ofNat p.bytes.length] ++ p.bytes ++ v := by
    simp [KeyPart.lengthPrefixed]
  rw [← hke] at hl
  rw [← hke', length_append] at hp
  unfold parsePart
  rw [bind_eq_ok]
  refine ⟨_, hl, ?_⟩
  rw [bind_eq_ok]
  refine ⟨(p.bytes, u.length + 1 + p.bytes.length - 1), ?_, ?_⟩
  · simpa [p.toNat_length] using hp
  · simp only [KeyPart.ofBytes_bytes, KeyPart.lengthPrefixed, length_cons]
    show Outcome.ok _ = _
    congr 2
    omega

theorem parseGranterGrantee_append (u : Bytes) (granter grantee : KeyPart) :
    (parseGranterGrantee (u ++ grantee.lengthPrefixed ++ granter.lengthPrefixed) u.length : Outcome ε (KeyPart × KeyPart)) =
      .ok (granter, grantee) := by
  have hgr := parsePart_append (ε := ε) u granter.lengthPrefixed grantee
  have hg := parsePart_append (ε := ε) (u ++ grantee.lengthPrefixed) [] granter
  have hp : 0 < grantee.lengthPrefixed.length := Nat.succ_pos _
  rw [append_nil, length_append] at hg
  unfold parseGranterGrantee
  rw [bind_eq_ok]
  refine ⟨_, hgr, ?_⟩
  rw [bind_eq_ok]
  refine ⟨(granter, u.length + grantee.lengthPrefixed.length + granter.lengthPrefixed.length - 1), ?_, rfl⟩
  rw [show u.length + grantee.lengthPrefixed.length - 1 + 1 = u.length + grantee.lengthPrefixed.length by omega]
  exact hg

end Parse

/-- Two keys that end in their granter and grantee after equally many bytes agree in them if they are equal. -/
theorem key_inj {u v : Bytes} (hl : u.length = v.length) {granter granter' grantee grantee' : KeyPart}
    (h : u ++ grantee.lengthPrefixed ++ granter.lengthPrefixed = v ++ grantee'.lengthPrefixed ++ granter'.lengthPrefixed) :
    granter = granter' ∧ grantee = grantee' := by
  have hu := parseGranterGrantee_append (ε := Unit) u granter grantee
  rw [h, hl, parseGranterGrantee_append] at hu
  cases hu
  exact ⟨rfl, rfl⟩

theorem feeAllowanceKey_inj {granter granter' grantee grantee' : KeyPart}
    (h : feeAllowanceKey granter grantee = feeAllowanceKey granter' grantee') : granter = granter' ∧ grantee = grantee' :=
  key_inj (u := [0x00]) (v := [0x00]) rfl h

end Vera.Feegrant
