import Vera.Lib.KVStore
import Vera.Tier.Keys

/-!
# One store for all records

All records of the tier module are in one key-value store. Lockups, unlocking lockups, insurance lockups, subscriptions and
developers are each kept in a store of their own within it, under the constants of `x/tier/types/keys.go`, and an iterator over
one of them scans the keys that begin with its constant. The parameters and the two running totals have fixed keys. The total
that a developer has granted is written straight under the developer's address, although a constant
`TotalDevGrantedKeyPrefix` exists for it: an address that begins with the constant of a store puts the total into that store.
-/

namespace Vera.Tier

open List
open Bytes (str)

/-- The kinds of records. -/
inductive Kind where
  | lockup
  | unlockingLockup
  | insuranceLockup
  | userSubscription
  | developer
  | totalDevGranted
  | params
  | totalLockups
  | totalCredits
  deriving Repr, DecidableEq

/-- What the keys of a kind begin with, for a kind with a store of its own. -/
def Kind.store : Kind → Option Bytes
  | .lockup => some (str "lockup/")
  | .unlockingLockup => some (str "unlockingLockup/")
  | .insuranceLockup => some (str "insuranceLockup/")
  | .userSubscription => some (str "userSub/")
  | .developer => some (str "developer/")
  | .totalDevGranted | .params | .totalLockups | .totalCredits => none

/-- Whether the iterator over a kind meets a key. -/
def Kind.scans (c : Kind) (key : Bytes) : Bool := c.store.any fun p => p.isPrefixOf key

/-- The key of a record, with what it is built from. -/
inductive StoreKey where
  | lockup (delAddr valAddr : Bytes)
  | unlockingLockup (delAddr valAddr : Bytes) (creationHeight : Int)
  | insuranceLockup (delAddr valAddr : Bytes)
  | userSubscription (developerAddr userDid : Bytes)
  | developer (developerAddr : Bytes)
  | totalDevGranted (developerAddr : Bytes)
  | params
  | totalLockups
  | totalCredits
  deriving Repr, DecidableEq

namespace StoreKey

def kind : StoreKey → Kind
  | lockup .. => .lockup
  | unlockingLockup .. => .unlockingLockup
  | insuranceLockup .. => .insuranceLockup
  | userSubscription .. => .userSubscription
  | developer _ => .developer
  | totalDevGranted _ => .totalDevGranted
  | params => .params
  | totalLockups => .totalLockups
  | totalCredits => .totalCredits

def key : StoreKey → Bytes
  | lockup delAddr valAddr => str "lockup/" ++ lockupKey delAddr valAddr
  | unlockingLockup delAddr valAddr creationHeight =>
    str "unlockingLockup/" ++ unlockingLockupKey delAddr valAddr creationHeight
  | insuranceLockup delAddr valAddr => str "insuranceLockup/" ++ lockupKey delAddr valAddr
  | userSubscription developerAddr userDid => str "userSub/" ++ userSubscriptionKey developerAddr userDid
  | developer developerAddr => str "developer/" ++ developerKey developerAddr
  | totalDevGranted developerAddr => totalDevGrantedKey developerAddr
  | params => str "p_tier"
  | totalLockups => str "total_lockups"
  | totalCredits => str "total_credits"

/-- Every address in the key has at least twenty bytes, and the developer is one of a set. -/
def Over (D : Bytes → Prop) : StoreKey → Prop
  | lockup delAddr valAddr | unlockingLockup delAddr valAddr _ | insuranceLockup delAddr valAddr =>
    20 ≤ delAddr.length ∧ 20 ≤ valAddr.length
  | userSubscription developerAddr _ | developer developerAddr | totalDevGranted developerAddr =>
    D developerAddr ∧ 20 ≤ developerAddr.length
  | params | totalLockups | totalCredits => True

end StoreKey

/-- Keys of different kinds are different, and the iterator over a kind meets no key of another. -/
def KindsApart (D : Bytes → Prop) : Prop :=
  ∀ k k' : StoreKey, k.Over D → k'.Over D → k.kind ≠ k'.kind → k.key ≠ k'.key ∧ k'.kind.scans k.key = false

/-- The store after a list of writes, with the kind of the record under every key. -/
def written (ks : List StoreKey) : KVStore Bytes Kind := KVStore.empty.setAll (ks.map fun k => (k.key, k.kind))

/-- After any writes every key that was written has a record of its kind, and an iterator meets only records of its kind. -/
def RecordsKept (D : Bytes → Prop) : Prop :=
  ∀ ks : List StoreKey, (∀ k ∈ ks, k.Over D) →
    (∀ k ∈ ks, (written ks).get k.key = some k.kind) ∧
    ∀ c key c', c.scans key = true → (written ks).get key = some c' → c' = c

/-! ## Stores of their own -/

variable {c : Kind} {key : Bytes}

theorem Kind.scans_iff : c.scans key = true ↔ ∃ p, c.store = some p ∧ p <+: key := by
  unfold Kind.scans
  rw [Option.any_eq_true]
  simp only [ isPrefixOf_iff_prefix]

theorem Kind.store_apart (c c' : Kind) (h : c ≠ c') :
    (c.store.all fun p => c'.store.all fun p' => !p.isPrefixOf p') = true := by
  cases c <;> cases c' <;> first | exact absurd rfl h | decide

theorem Kind.scans_unique {c' : Kind} (h : c.scans key = true) (h' : c'.scans key = true) : c = c' := by
  obtain ⟨p, hp, hke⟩ := Kind.scans_iff.1 h
  obtain ⟨p', hp', hke'⟩ := Kind.scans_iff.1 h'
  by_contra hne
  rcases prefix_or_prefix_of_prefix hke hke' with hle | hle
  · have ha := Kind.store_apart c c' hne
    rw [hp, hp', Option.all_some, Option.all_some, isPrefixOf_iff_prefix.2 hle] at ha
    cases ha
  · have ha := Kind.store_apart c' c (Ne.symm hne)
    rw [hp, hp', Option.all_some, Option.all_some, isPrefixOf_iff_prefix.2 hle] at ha
    cases ha

theorem StoreKey.scans_own {k : StoreKey} (h : k.kind.store.isSome = true) : k.kind.scans k.key = true := by
  rw [Kind.scans_iff]
  cases k with
  | lockup d v => exact ⟨_, rfl, prefix_append _ _⟩
  | unlockingLockup d v height => exact ⟨_, rfl, prefix_append _ _⟩
  | insuranceLockup d v => exact ⟨_, rfl, prefix_append _ _⟩
  | userSubscription a did => exact ⟨_, rfl, prefix_append _ _⟩
  | developer a => exact ⟨_, rfl, prefix_append _ _⟩
  | totalDevGranted a => cases h
  | params => cases h
  | totalLockups => cases h
  | totalCredits => cases h

theorem Kind.store_length {p : Bytes} (h : c.store = some p) : p.length ≤ 20 := by
  cases c with
  | lockup => cases h; decide
  | unlockingLockup => cases h; decide
  | insuranceLockup => cases h; decide
  | userSubscription => cases h; decide
  | developer => cases h; decide
  | totalDevGranted => cases h
  | params => cases h
  | totalLockups => cases h
  | totalCredits => cases h

theorem Kind.scans_totalDevGrantedKey {a : Bytes} (ha : 20 ≤ a.length) : c.scans (totalDevGrantedKey a) = c.scans a := by
  rw [Bool.eq_iff_iff, Kind.scans_iff, Kind.scans_iff]
  constructor
  · rintro ⟨p, hp, hke⟩
    have hl : p.length ≤ a.length := (Kind.store_length hp).trans ha
    exact ⟨p, hp, prefix_of_prefix_length_le hke (prefix_append a _) hl⟩
  · rintro ⟨p, hp, hke⟩
    exact ⟨p, hp, hke.trans (prefix_append a _)⟩

/-! ## The condition on the addresses -/

section Apart

variable {D : Bytes → Prop}

variable {c : Kind} {a : Bytes}

theorem StoreKey.not_scans (hD : ∀ a, D a → 20 ≤ a.length → ∀ c : Kind, c.scans a = false) {k : StoreKey} (hk : k.Over D)
    (hne : k.kind ≠ c) : c.scans k.key = false := by
  by_cases how : k.kind.store.isSome = true
  · refine Bool.eq_false_iff.2 fun hs => hne ?_
    exact Kind.scans_unique (StoreKey.scans_own how) hs
  · cases k with
    | totalDevGranted a =>
      obtain ⟨ha, hl⟩ := hk
      exact (Kind.scans_totalDevGrantedKey hl).trans (hD a ha hl c)
    | params => cases c <;> decide
    | totalLockups => cases c <;> decide
    | totalCredits => cases c <;> decide
    | lockup d v => exact absurd rfl how
    | unlockingLockup d v height => exact absurd rfl how
    | insuranceLockup d v => exact absurd rfl how
    | userSubscription a did => exact absurd rfl how
    | developer a => exact absurd rfl how

theorem StoreKey.plain_cases {k : StoreKey} (h : k.kind.store = none) :
    (∃ a, k = .totalDevGranted a) ∨ k = .params ∨ k = .totalLockups ∨ k = .totalCredits := by
  cases k with
  | lockup d v => cases h
  | unlockingLockup d v height => cases h
  | insuranceLockup d v => cases h
  | userSubscription a did => cases h
  | developer a => cases h
  | totalDevGranted a => exact .inl ⟨a, rfl⟩
  | params => exact .inr (.inl rfl)
  | totalLockups => exact .inr (.inr (.inl rfl))
  | totalCredits => exact .inr (.inr (.inr rfl))

theorem StoreKey.totalDevGranted_key_ne {k : StoreKey} (h : k.key.getLast? ≠ some keySeparator) :
    (StoreKey.totalDevGranted a).key ≠ k.key := by
  intro heq
  rw [← heq] at h
  exact h (by simp [StoreKey.key, totalDevGrantedKey])

theorem StoreKey.key_ne_of_plain {k k' : StoreKey} (h : k.kind.store = none) (h' : k'.kind.store = none)
    (hne : k.kind ≠ k'.kind) : k.key ≠ k'.key := by
  rcases StoreKey.plain_cases h with ⟨a, rfl⟩ | rfl | rfl | rfl
  · rcases StoreKey.plain_cases h' with ⟨a', rfl⟩ | rfl | rfl | rfl
    · exact absurd rfl hne
    all_goals exact StoreKey.totalDevGranted_key_ne (by decide)
  all_goals rcases StoreKey.plain_cases h' with ⟨a', rfl⟩ | rfl | rfl | rfl
  all_goals first
    | exact absurd rfl hne
    | exact (StoreKey.totalDevGranted_key_ne (by decide)).symm
    | decide

theorem kindsApart_of (hD : ∀ a, D a → 20 ≤ a.length → ∀ c : Kind, c.scans a = false) : KindsApart D := by
  intro k k' hk hk' hne
  refine ⟨fun heq => ?_, StoreKey.not_scans hD hk hne⟩
  by_cases how : k.kind.store.isSome = true
  · have hs := StoreKey.scans_own how
    rw [heq, StoreKey.not_scans hD hk' hne.symm] at hs
    cases hs
  · by_cases how' : k'.kind.store.isSome = true
    · have hs := StoreKey.scans_own how'
      rw [← heq, StoreKey.not_scans hD hk hne] at hs
      cases hs
    · rw [Option.not_isSome_iff_eq_none] at how how'
      exact StoreKey.key_ne_of_plain how how' hne heq

theorem recordsKept_of (hD : ∀ a, D a → 20 ≤ a.length → ∀ c : Kind, c.scans a = false) : RecordsKept D := by
  intro ks hks
  have hw : ∀ key ∈ ks.map StoreKey.key, ∃ k ∈ ks, k.key = key ∧ (written ks).get key = some k.kind := by
    intro key hke
    obtain ⟨c, hmem, hget⟩ := KVStore.get_setAll_mem (KVStore.empty : KVStore Bytes Kind)
      (l := ks.map fun k => (k.key, k.kind)) (k := key) (by simpa [Function.comp_def] using hke)
    obtain ⟨k, hk, hp⟩ := mem_map.1 hmem
    obtain ⟨rfl, rfl⟩ := Prod.mk.inj hp
    exact ⟨k, hk, rfl, hget⟩
  refine ⟨fun k hk => ?_, fun c key c' hs hget => ?_⟩
  · obtain ⟨k', hk', hke, hget⟩ := hw k.key (mem_map_of_mem hk)
    rw [hget]
    by_contra hne
    exact (kindsApart_of hD k' k (hks k' hk') (hks k hk) fun hki => hne (congrArg some hki)).1 hke
  · by_cases hke : key ∈ ks.map StoreKey.key
    · obtain ⟨k, hk, rfl, hget'⟩ := hw key hke
      obtain rfl := Option.some.inj (hget'.symm.trans hget)
      by_contra hne
      rw [StoreKey.not_scans hD (hks k hk) hne] at hs
      cases hs
    · have hnone : (written ks).get key = none :=
        KVStore.get_setAll_of_notMem _ (by simpa [Function.comp_def] using hke)
      cases hnone.symm.trans hget

theorem StoreKey.exists_of_store (hc : c.store.isSome = true) (ha : D a) (hl : 20 ≤ a.length) :
    ∃ k : StoreKey, k.Over D ∧ k.kind = c := by
  have h20 : 20 ≤ (List.replicate 20 0 : Bytes).length := Nat.le_of_eq length_replicate.symm
  cases c with
  | lockup => exact ⟨.lockup (List.replicate 20 0) (List.replicate 20 0), ⟨h20, h20⟩, rfl⟩
  | unlockingLockup => exact ⟨.unlockingLockup (List.replicate 20 0) (List.replicate 20 0) 0, ⟨h20, h20⟩, rfl⟩
  | insuranceLockup => exact ⟨.insuranceLockup (List.replicate 20 0) (List.replicate 20 0), ⟨h20, h20⟩, rfl⟩
  | userSubscription => exact ⟨.userSubscription a [], ⟨ha, hl⟩, rfl⟩
  | developer => exact ⟨.developer a, ⟨ha, hl⟩, rfl⟩
  | totalDevGranted => cases hc
  | params => cases hc
  | totalLockups => cases hc
  | totalCredits => cases hc

end Apart

/-- For every set of developers: records of different kinds never meet exactly if no developer's address of at least twenty
bytes begins with the constant of one of the five stores. -/
theorem store_kinds_apart_iff (D : Bytes → Prop) :
    KindsApart D ∧ RecordsKept D ↔ ∀ a, D a → 20 ≤ a.length → ∀ c : Kind, c.scans a = false := by
  constructor
  · rintro ⟨hap, -⟩ a ha hl c
    refine Bool.eq_false_iff.2 fun hs => ?_
    obtain ⟨p, hp, -⟩ := Kind.scans_iff.1 hs
    obtain ⟨k, hk, rfl⟩ := StoreKey.exists_of_store (by rw [hp]; rfl) ha hl
    have hne : (StoreKey.totalDevGranted a).kind ≠ k.kind := by
      intro heq
      rw [← heq] at hp
      cases hp
    have hf := (hap (.totalDevGranted a) k ⟨ha, hl⟩ hk hne).2
    rw [show (StoreKey.totalDevGranted a).key = totalDevGrantedKey a from rfl, Kind.scans_totalDevGrantedKey hl, hs] at hf
    cases hf
  · intro hD
    exact ⟨kindsApart_of hD, recordsKept_of hD⟩

namespace StoreKeysExample

/-- An address that begins like the store of lockups. -/
def likeLockup : Bytes := str "lockup/aaaaaaaaaaaaa"

def delegator : Bytes := List.replicate 20 0x64

def validator : Bytes := List.replicate 20 0x76

/-- An address that is, but for the last separator, the key of their lockup. -/
def lockupAddress : Bytes := str "lockup/" ++ delegator ++ [keySeparator] ++ validator

end StoreKeysExample

open StoreKeysExample in
/-- The total of a developer of twenty bytes lies among the lockups, where the iterator panics on its key, and the total of a
developer of 48 bytes has the key of a lockup. -/
theorem store_kinds_apart_false :
    likeLockup.length = 20 ∧ Kind.lockup.scans (StoreKey.totalDevGranted likeLockup).key = true ∧
    (lockupKeyToAddresses ((StoreKey.totalDevGranted likeLockup).key.drop 7) : Outcome Unit (Bytes × Bytes)) =
      .panic "invalid key format: expected format delAddr/valAddr/" ∧
    lockupAddress.length = 48 ∧
    (StoreKey.totalDevGranted lockupAddress).key = (StoreKey.lockup delegator validator).key := by
  decide

open StoreKeysExample in
/-- A developer whose address begins like no store. -/
theorem store_kinds_apart_delegator : KindsApart (· = delegator) ∧ RecordsKept (· = delegator) := by
  refine (store_kinds_apart_iff (· = delegator)).2 ?_
  rintro a rfl - c
  cases c <;> decide

end Vera.Tier
