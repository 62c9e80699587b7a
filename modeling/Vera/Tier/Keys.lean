import Vera.Lib.Decimal
import Vera.Lib.Effect

/-!
# The keys of the tier module

The keys under which lockups, unlocking lockups, developers and subscriptions are stored, and the functions with which the
iterators read the addresses back from a key (`x/tier/types/keys.go`). A key is built from addresses of any length; a key is
read back as if every address in it had twenty bytes, and a key of another form makes the reader panic.
-/

namespace Vera.Tier

open List
open Bytes (str)

/-- The length of an address the readers expect. -/
def addressKeyLength : Nat := 20

def keySeparator : UInt8 := 0x2f

/-- The key of a lockup, and of an insurance lockup. -/
def lockupKey (delAddr valAddr : Bytes) : Bytes := delAddr ++ [keySeparator] ++ valAddr ++ [keySeparator]

def unlockingLockupKey (delAddr valAddr : Bytes) (creationHeight : Int) : Bytes :=
  delAddr ++ [keySeparator] ++ valAddr ++ [keySeparator] ++ Decimal.decInt creationHeight ++ [keySeparator]

def userSubscriptionKey (developerAddr userDid : Bytes) : Bytes :=
  developerAddr ++ [keySeparator] ++ userDid ++ [keySeparator]

def developerKey (developerAddr : Bytes) : Bytes := developerAddr ++ [keySeparator]

/-- The key of the amount a developer has granted in total. -/
def totalDevGrantedKey (developerAddr : Bytes) : Bytes := developerAddr ++ [keySeparator]

def slice (key : Bytes) (lo hi : Nat) : Bytes := (key.take hi).drop lo

section Readers

variable {ε : Type}

/-- The delegator and the validator of a lockup's key. -/
def lockupKeyToAddresses (key : Bytes) : Outcome ε (Bytes × Bytes) :=
  let expectedLength := addressKeyLength * 2 + 2
  if key.length ≠ expectedLength ∨ key[addressKeyLength]? ≠ some keySeparator ∨
      key[expectedLength - 1]? ≠ some keySeparator then
    .panic "invalid key format: expected format delAddr/valAddr/"
  else .ok (slice key 0 addressKeyLength, slice key (addressKeyLength + 1) (expectedLength - 1))

/-- The delegator, the validator and the creation height of an unlocking lockup's key. -/
def unlockingLockupKeyToAddressesAtHeight (key : Bytes) : Outcome ε (Bytes × Bytes × Int) :=
  let heightStart := addressKeyLength * 2 + 2
  if key.length ≤ heightStart ∨ key[addressKeyLength]? ≠ some keySeparator ∨
      key[heightStart - 1]? ≠ some keySeparator ∨ key[key.length - 1]? ≠ some keySeparator then
    .panic "invalid key format: expected format delAddr/valAddr/creationHeight/"
  else
    match Decimal.parseInt64 (slice key heightStart (key.length - 1)) with
    | some height => .ok (slice key 0 addressKeyLength, slice key (addressKeyLength + 1) (heightStart - 1), height)
    | none => .panic "unexpected creation height"

/-- The developer and the user of a subscription's key. -/
def userSubscriptionKeyToAddresses (key : Bytes) : Outcome ε (Bytes × Bytes) :=
  let valueStart := addressKeyLength + 1
  if key.length ≤ valueStart ∨ key[addressKeyLength]? ≠ some keySeparator ∨
      key[key.length - 1]? ≠ some keySeparator then
    .panic "invalid key format: expected format developerAddr/userDid/"
  else .ok (slice key 0 addressKeyLength, slice key valueStart (key.length - 1))

def developerKeyToAddress (key : Bytes) : Outcome ε Bytes :=
  let expectedLength := addressKeyLength + 1
  if key.length ≠ expectedLength ∨ key[expectedLength - 1]? ≠ some keySeparator then
    .panic "invalid key format: expected format developerAddr/"
  else .ok (slice key 0 addressKeyLength)

end Readers

/-! ## What the readers accept -/

namespace KeysAux

theorem slice_middle (a b c : Bytes) {lo hi : Nat} (hlo : a.length = lo) (hhi : lo + b.length = hi) :
    slice (a ++ b ++ c) lo hi = b := by
  subst hlo hhi
  simp [slice, take_append]

theorem slice_first (a rest : Bytes) {n : Nat} (h : a.length = n) : slice (a ++ rest) 0 n = a := by
  subst h
  simp [slice]

variable {key : Bytes} {c : UInt8}

theorem cut_at {n : Nat} (h : key[n]? = some c) : key = key.take n ++ c :: key.drop (n + 1) := by
  obtain ⟨hn, hc⟩ := List.getElem?_eq_some_iff.1 h
  rw [← hc, getElem_cons_drop hn, take_append_drop]

theorem cut_last (h : key[key.length - 1]? = some c) : key = key.take (key.length - 1) ++ [c] := by
  obtain ⟨hn, -⟩ := List.getElem?_eq_some_iff.1 h
  have hcu := cut_at h
  rwa [drop_eq_nil_of_le (by omega)] at hcu

theorem getElem?_last (x : Bytes) (c : UInt8) : (x ++ [c])[(x ++ [c]).length - 1]? = some c := by
  simp

theorem drop_eq_slice (h : key[key.length - 1]? = some c) {n : Nat} (hn : n ≤ key.length - 1) :
    key.drop n = slice key n (key.length - 1) ++ [c] := by
  have hcu := cut_last h
  have hl : n ≤ (key.take (key.length - 1)).length := by simpa using hn
  calc key.drop n = (key.take (key.length - 1) ++ [c]).drop n := by rw [← hcu]
    _ = slice key n (key.length - 1) ++ [c] := by rw [drop_append_of_le_length hl, slice]

end KeysAux

open KeysAux

section Readers

variable {ε : Type}

variable {key a b : Bytes}

theorem developerKeyToAddress_eq_ok :
    (developerKeyToAddress key : Outcome ε Bytes) = .ok a ↔ a.length = 20 ∧ key = developerKey a := by
  unfold developerKeyToAddress addressKeyLength developerKey
  dsimp only
  constructor
  · intro h
    split at h
    · cases h
    rename_i hc
    simp only [not_or, not_not] at hc
    obtain ⟨hl, hs⟩ := hc
    obtain rfl : slice key 0 20 = a := Outcome.ok.inj h
    have hcu := cut_last (c := keySeparator) (by rw [hl]; exact hs)
    refine ⟨by simp [slice, hl], ?_⟩
    rw [hl] at hcu
    exact hcu
  · rintro ⟨hl, rfl⟩
    rw [if_neg (by simp [hl]), slice_first a _ hl]

theorem lockupKeyToAddresses_eq_ok : (lockupKeyToAddresses key : Outcome ε (Bytes × Bytes)) = .ok (a, b) ↔
      a.length = 20 ∧ b.length = 20 ∧ key = lockupKey a b := by
  unfold lockupKeyToAddresses addressKeyLength lockupKey
  dsimp only
  constructor
  · intro h
    split at h
    · cases h
    rename_i hc
    simp only [not_or, not_not] at hc
    obtain ⟨hlen, hs, hl⟩ := hc
    obtain ⟨rfl, rfl⟩ := Prod.mk.inj (Outcome.ok.inj h)
    have hl' : key[key.length - 1]? = some keySeparator := by rw [hlen]; exact hl
    have hd := drop_eq_slice hl' (n := 21) (by omega)
    rw [hlen] at hd
    refine ⟨by simp [slice, hlen], by simp [slice, hlen], ?_⟩
    calc key = key.take 20 ++ keySeparator :: key.drop 21 := cut_at hs
      _ = _ := by rw [hd]; simp [slice]
  · rintro ⟨ha, hb, rfl⟩
    rw [if_neg (by simp [ha, hb]), append_assoc, append_assoc, slice_first a _ ha]
    congr 2
    rw [← append_assoc, ← append_assoc]
    exact slice_middle _ b _ (by simp [ha]) (by simp [hb])

theorem userSubscriptionKeyToAddresses_eq_ok :
    (userSubscriptionKeyToAddresses key : Outcome ε (Bytes × Bytes)) = .ok (a, b) ↔
      a.length = 20 ∧ key = userSubscriptionKey a b := by
  unfold userSubscriptionKeyToAddresses addressKeyLength userSubscriptionKey
  dsimp only
  constructor
  · intro h
    split at h
    · cases h
    rename_i hc
    simp only [not_or, not_not] at hc
    obtain ⟨hlen, hs, hl⟩ := hc
    obtain ⟨rfl, rfl⟩ := Prod.mk.inj (Outcome.ok.inj h)
    have hd := drop_eq_slice hl (n := 21) (by omega)
    refine ⟨by simp [slice]; omega, ?_⟩
    calc key = key.take 20 ++ keySeparator :: key.drop 21 := cut_at hs
      _ = _ := by rw [hd]; simp [slice]
  · rintro ⟨ha, rfl⟩
    rw [if_neg (by simp [ha]; omega), append_assoc, append_assoc, slice_first a _ ha]
    congr 2
    rw [← append_assoc, ← append_assoc]
    exact slice_middle _ b _ (by simp [ha]) (by simp [ha]; omega)

/-- The reader of unlocking keys accepts exactly two twenty-byte addresses followed by a number. -/
theorem unlockingLockupKeyToAddressesAtHeight_eq_ok {h : Int} :
    (unlockingLockupKeyToAddressesAtHeight key : Outcome ε (Bytes × Bytes × Int)) = .ok (a, b, h) ↔
      a.length = 20 ∧ b.length = 20 ∧
        ∃ digits, Decimal.parseInt64 digits = some h ∧ key = lockupKey a b ++ digits ++ [keySeparator] := by
  unfold unlockingLockupKeyToAddressesAtHeight addressKeyLength lockupKey
  dsimp only
  constructor
  · intro hok
    split at hok
    · cases hok
    rename_i hc
    simp only [not_or, not_not] at hc
    obtain ⟨hlen, hs, hs', hl⟩ := hc
    split at hok
    swap
    · cases hok
    rename_i height hp
    obtain ⟨rfl, hrest⟩ := Prod.mk.inj (Outcome.ok.inj hok)
    obtain ⟨rfl, rfl⟩ := Prod.mk.inj hrest
    have hdr := drop_eq_slice hl (n := 42) (by omega)
    refine ⟨by simp [slice]; omega, by simp [slice]; omega, _, hp, ?_⟩
    have h41 : key = key.take 41 ++ keySeparator :: key.drop 42 := cut_at hs'
    have h20 : key.take 41 = (key.take 41).take 20 ++ keySeparator :: (key.take 41).drop 21 :=
      cut_at (by rw [List.getElem?_take_of_lt (by omega)]; exact hs)
    rw [take_take] at h20
    calc key = key.take 41 ++ keySeparator :: key.drop 42 := h41
      _ = _ := by rw [h20, hdr]; simp [slice]
  · rintro ⟨ha, hb, digits, hp, rfl⟩
    have hd : digits ≠ [] := by
      rintro rfl
      cases hp
    have hpo := length_pos_iff.2 hd
    rw [if_neg]
    · have hsl : slice (a ++ [keySeparator] ++ b ++ [keySeparator] ++ digits ++ [keySeparator]) 42
          ((a ++ [keySeparator] ++ b ++ [keySeparator] ++ digits ++ [keySeparator]).length - 1) = digits :=
        slice_middle _ digits _ (by simp [ha, hb]) (by simp [ha, hb]; omega)
      have hb' : slice (a ++ [keySeparator] ++ b ++ [keySeparator] ++ digits ++ [keySeparator]) 21 41 = b := by
        rw [append_assoc (_ ++ b), append_assoc (_ ++ b)]
        exact slice_middle _ b _ (by simp [ha]) (by simp [hb])
      have ha' : slice (a ++ [keySeparator] ++ b ++ [keySeparator] ++ digits ++ [keySeparator]) 0 20 = a := by
        simp only [append_assoc]
        exact slice_first a _ ha
      rw [hsl, hp, ha', hb']
    · simp only [not_or, not_not]
      refine ⟨by simp [ha, hb]; omega, by simp [ha], ?_, getElem?_last _ _⟩
      rw [append_assoc _ digits, List.getElem?_append_left (by simp [ha, hb])]
      simp [ha, hb]

end Readers

/-! ## Keys of different records -/

theorem unlockingLockupKey_eq (d v : Bytes) (h : Int) :
    unlockingLockupKey d v h = lockupKey d v ++ Decimal.decInt h ++ [keySeparator] := rfl

theorem keySeparator_notMem_decInt (h : Int) : keySeparator ∉ Decimal.decInt h := by
  intro hm
  rcases Decimal.mem_decInt hm with hm | hm
  · exact absurd hm (by decide)
  · exact absurd hm (by decide)

/-- What is before the last separator of two equal strings is equal, if neither has one in what follows it. -/
theorem last_sep_inj {a a' x x' : Bytes} (hx : keySeparator ∉ x) (hx' : keySeparator ∉ x')
    (h : a ++ [keySeparator] ++ x ++ [keySeparator] = a' ++ [keySeparator] ++ x' ++ [keySeparator]) : a = a' ∧ x = x' := by
  have hr : x.reverse ++ keySeparator :: a.reverse = x'.reverse ++ keySeparator :: a'.reverse := by
    have := congrArg List.reverse (append_cancel_right h)
    simpa using this
  obtain ⟨h1, h2⟩ := Bytes.append_sep_inj (fun hm => hx (mem_reverse.1 hm)) (fun hm => hx' (mem_reverse.1 hm)) hr
  exact ⟨reverse_injective h2, reverse_injective h1⟩

variable {d v d' v' : Bytes} {h' : Int} {ε : Type}

theorem unlockingLockupKey_inj {h : Int} :
    unlockingLockupKey d v h = unlockingLockupKey d' v' h' ↔ lockupKey d v = lockupKey d' v' ∧ h = h' := by
  refine ⟨fun heq => ?_, fun ⟨h1, h2⟩ => by rw [unlockingLockupKey_eq, unlockingLockupKey_eq, h1, h2]⟩
  obtain ⟨h1, h2⟩ := last_sep_inj (keySeparator_notMem_decInt h) (keySeparator_notMem_decInt h') heq
  exact ⟨congrArg (· ++ [keySeparator]) h1, Decimal.decInt_injective h2⟩

/-- What is read from an unlocking key is the height, and two addresses with the same lockup key. -/
theorem unlockingLockupKey_read {h : Int}
    (hr : (unlockingLockupKeyToAddressesAtHeight (unlockingLockupKey d v h) : Outcome ε (Bytes × Bytes × Int)) =
      .ok (d', v', h')) :
    (lockupKeyToAddresses (lockupKey d v) : Outcome ε (Bytes × Bytes)) = .ok (d', v') ∧
      lockupKey d v = lockupKey d' v' ∧ h' = h := by
  obtain ⟨hd, hv, digits, hp, hke⟩ := unlockingLockupKeyToAddressesAtHeight_eq_ok.1 hr
  have hdi : keySeparator ∉ digits := by
    intro hm
    rcases Decimal.mem_of_parseInt64 hp hm with hm | hm | hm <;> exact absurd hm (by decide)
  obtain ⟨h1, rfl⟩ := last_sep_inj (keySeparator_notMem_decInt h) hdi hke
  have h2 : lockupKey d v = lockupKey d' v' := congrArg (· ++ [keySeparator]) h1
  exact ⟨lockupKeyToAddresses_eq_ok.2 ⟨hd, hv, h2⟩, h2, Decimal.eq_of_parseInt64_decInt hp⟩

theorem unlockingLockupKey_roundTrip {h : Int} (h1 : -2 ^ 63 ≤ h) (h2 : h < 2 ^ 63) :
    (unlockingLockupKeyToAddressesAtHeight (unlockingLockupKey d v h) : Outcome ε (Bytes × Bytes × Int)) = .ok (d, v, h) ↔
      d.length = 20 ∧ v.length = 20 := by
  rw [unlockingLockupKeyToAddressesAtHeight_eq_ok]
  exact ⟨fun ⟨hd, hv, _⟩ => ⟨hd, hv⟩, fun ⟨hd, hv⟩ => ⟨hd, hv, _, Decimal.parseInt64_decInt h1 h2, rfl⟩⟩

/-! ## What a key was built from -/

/-- The key of a record, with what it is built from. -/
inductive RecordKey where
  | lockup (delAddr valAddr : Bytes)
  | unlockingLockup (delAddr valAddr : Bytes) (creationHeight : Int)
  | developer (developerAddr : Bytes)
  | userSubscription (developerAddr userDid : Bytes)
  deriving Repr, DecidableEq

/-- The iterator over the records of a kind reads from the key what it was built from. -/
def RecordKey.ReadsBack : RecordKey → Prop
  | .lockup d v => (lockupKeyToAddresses (lockupKey d v) : Outcome Unit (Bytes × Bytes)) = .ok (d, v)
  | .unlockingLockup d v h =>
    (unlockingLockupKeyToAddressesAtHeight (unlockingLockupKey d v h) : Outcome Unit (Bytes × Bytes × Int)) = .ok (d, v, h)
  | .developer a => (developerKeyToAddress (developerKey a) : Outcome Unit Bytes) = .ok a
  | .userSubscription a did =>
    (userSubscriptionKeyToAddresses (userSubscriptionKey a did) : Outcome Unit (Bytes × Bytes)) = .ok (a, did)

def RecordKey.addresses : RecordKey → List Bytes
  | .lockup d v => [d, v]
  | .unlockingLockup d v _ => [d, v]
  | .developer a => [a]
  | .userSubscription a _ => [a]

/-- The height in a key, if there is one, has 64 bits. -/
def RecordKey.HeightInRange : RecordKey → Prop
  | .unlockingLockup _ _ h => -2 ^ 63 ≤ h ∧ h < 2 ^ 63
  | _ => True

theorem RecordKey.readsBack_iff {k : RecordKey} (hk : k.HeightInRange) : k.ReadsBack ↔ ∀ a ∈ k.addresses, a.length = 20 := by
  cases k with
  | lockup d v => simp [ReadsBack, addresses, lockupKeyToAddresses_eq_ok]
  | unlockingLockup d v h => simp [ReadsBack, addresses, unlockingLockupKey_roundTrip hk.1 hk.2]
  | developer a => simp [ReadsBack, addresses, developerKeyToAddress_eq_ok]
  | userSubscription a did => simp [ReadsBack, addresses, userSubscriptionKeyToAddresses_eq_ok]

end Vera.Tier
