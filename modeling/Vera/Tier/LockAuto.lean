import Mathlib
import Vera.Tier.System

/-!
# The validator that is chosen

`LockAuto` looks for the smallest lockup of the delegator first and asks only then whether its validator is bonded; if it is
not, the other lockups are not looked at, and the validator with the smallest delegation of the tier module is taken.
-/

namespace Vera.Tier

open Eff List Outcome
open Bytes (str)

variable {Γ : StakingEnv} {s : State Γ.toEnv} {d v : Bytes}

/-- Whether the staking module knows a bonded validator under an address. -/
def Bonded (env : Γ.σ) (v : Bytes) : Bool :=
  match Γ.getValidator env v with
  | .ok validator => Γ.isBonded validator
  | .error _ => false

/-- The whole shares of the tier module with a validator. -/
def tierDelegation (env : Γ.σ) (v : Bytes) : Int :=
  match Γ.getDelegation env v with
  | .error _ => 0
  | .ok shares => (Γ.sharesDec shares).truncateInt

/-- The lockups of a delegator: the validators and the amounts, in the order of the store. -/
def State.locksOf (s : State Γ.toEnv) (d : Bytes) : List (Bytes × Int) :=
  match readLockups s.lockups.entries with
  | .ok lockups => (lockups.filter (·.1 = d)).map fun l => (l.2.1, l.2.2.amount)
  | _ => []

/-- The bonded validators with the delegations of the tier module. -/
def State.delegations (s : State Γ.toEnv) : List (Bytes × Int) :=
  match Γ.iterateValidators s.env with
  | .ok validators => validatorDelegations s.env validators
  | .error _ => []

/-- The validator is the one of the smallest lockup with a bonded validator. -/
def SmallestBonded (s : State Γ.toEnv) (d v : Bytes) : Prop :=
  ∃ amount, (v, amount) ∈ s.locksOf d ∧ ∀ l ∈ s.locksOf d, Bonded s.env l.1 = true → amount ≤ l.2

/-- A bonded validator: the one with the smallest lockup if there is a lockup with a bonded one, else one with the smallest
delegation of the tier module. -/
def RightChoice (s : State Γ.toEnv) (d v : Bytes) : Prop :=
  Bonded s.env v = true ∧ ((∃ l ∈ s.locksOf d, Bonded s.env l.1 = true) → SmallestBonded s d v) ∧
    ((¬ ∃ l ∈ s.locksOf d, Bonded s.env l.1 = true) →
      ∀ w, Bonded s.env w = true → tierDelegation s.env v ≤ tierDelegation s.env w)

/-- The staking module walks over all validators, and finds each by its operator's address. -/
structure StakingLaws (Γ : StakingEnv) : Prop where
  walks : ∀ env, ∃ validators, Γ.iterateValidators env = .ok validators ∧ ∀ validator v,
    Γ.getValidator env v = .ok validator ↔
      validator ∈ validators ∧ Γ.valAddressFromBech32 (Γ.operatorAddress validator) = .ok v

/-! ## The two searches -/

/-- The loop over the delegations keeps the first of the smallest. -/
theorem smallestDelegation_eq {before rest : List (Bytes × Int)} {chosen : Bytes × Int}
    (h : before.argmin Prod.snd = some chosen) :
    (before ++ rest).argmin Prod.snd = some (smallestDelegation rest chosen) := by
  induction rest generalizing before chosen with
  | nil => rwa [append_nil]
  | cons l rest ih =>
    rw [smallestDelegation, append_cons]
    refine ih ?_
    rw [argmin_concat, h]
    dsimp only
    split <;> rfl

/-- The loop over the lockups keeps the first of the smallest of the delegator. -/
theorem smallestLockup_eq {lockups : List (Bytes × Bytes × Lockup)} {before : List (Bytes × Int)}
    {chosen : Option (Bytes × Int)} (h : before.argmin Prod.snd = chosen) :
    smallestLockup d lockups chosen =
      (before ++ (lockups.filter (·.1 = d)).map fun l => (l.2.1, l.2.2.amount)).argmin Prod.snd := by
  induction lockups generalizing before chosen with
  | nil => rw [smallestLockup, filter_nil, map_nil, append_nil, h]
  | cons l rest ih =>
    obtain ⟨d', v', lockup⟩ := l
    by_cases hd : d' = d
    · rw [filter_cons_of_pos (by simpa using hd), map_cons, append_cons, smallestLockup.eq_def]
      dsimp only
      rw [if_neg (not_not.2 hd)]
      have hne := argmin_concat Prod.snd (v', lockup.amount) before
      rw [h] at hne
      cases chosen with
      | none => exact ih hne
      | some c =>
        refine ih (hne.trans ?_)
        dsimp only
        split <;> rfl
    · rw [filter_cons_of_neg (by simpa using hd), smallestLockup.eq_def]
      dsimp only
      rw [if_pos hd]
      exact ih h

theorem mem_validatorDelegations {env : Γ.σ} {validators : List Γ.Validator} {l : Bytes × Int} :
    l ∈ validatorDelegations env validators ↔ ∃ validator ∈ validators, Γ.isBonded validator = true ∧
      Γ.valAddressFromBech32 (Γ.operatorAddress validator) = .ok l.1 ∧ l.2 = tierDelegation env l.1 := by
  induction validators with
  | nil => simp [validatorDelegations]
  | cons validator rest ih =>
    rw [validatorDelegations, exists_mem_cons_iff, ← ih]
    cases hb : Γ.isBonded validator with
    | false => simp
    | true =>
      cases ha : Γ.valAddressFromBech32 (Γ.operatorAddress validator) with
      | error e => simp
      | ok v =>
        simp only [Bool.true_eq_false, if_false, mem_cons, true_and, Except.ok.injEq]
        refine or_congr_left ⟨?_, ?_⟩
        · rintro rfl
          exact ⟨rfl, rfl⟩
        · rintro ⟨rfl, hn⟩
          exact Prod.ext rfl hn

/-- The validators that the second search looks at are the bonded ones. -/
theorem StakingLaws.mem_delegations (laws : StakingLaws Γ) {l : Bytes × Int} :
    l ∈ s.delegations ↔ Bonded s.env l.1 = true ∧ l.2 = tierDelegation s.env l.1 := by
  obtain ⟨validators, hit, hget⟩ := laws.walks s.env
  rw [State.delegations, hit, mem_validatorDelegations, Bonded]
  constructor
  · rintro ⟨validator, hmem, hb, ha, hn⟩
    rw [(hget _ _).2 ⟨hmem, ha⟩]
    exact ⟨hb, hn⟩
  · rintro ⟨hb, hn⟩
    cases hv : Γ.getValidator s.env l.1 with
    | error e =>
      rw [hv] at hb
      cases hb
    | ok validator =>
      rw [hv] at hb
      obtain ⟨hmem, ha⟩ := (hget _ _).1 hv
      exact ⟨validator, hmem, hb, ha, hn⟩

/-! ## The choice -/

/-- A key that cannot be read is a panic, not an error. -/
theorem readLockups_ne_err (entries : List (Bytes × Lockup)) (e : Error) : readLockups entries ≠ .err e := by
  induction entries with
  | nil => exact nofun
  | cons entry rest ih =>
    intro h
    rcases bind_eq_err h with hke | ⟨_, -, h⟩
    · unfold lockupKeyToAddresses at hke
      dsimp only at hke
      split at hke <;> nomatch hke
    · rcases bind_eq_err h with hrest | ⟨_, -, h⟩
      · exact ih hrest
      · cases h

/-- The first search finds the smallest lockup of all if its validator is bonded, and nothing otherwise. -/
theorem selectValidatorFromExistingLockups_cases (d : Bytes) (s : State Γ.toEnv) :
    (∃ m, selectValidatorFromExistingLockups d s = (.panic m, s)) ∨ selectValidatorFromExistingLockups d s =
        (.ok ((((s.locksOf d).argmin Prod.snd).filter fun l => Bonded s.env l.1).map Prod.fst), s) := by
  unfold selectValidatorFromExistingLockups Eff.query
  dsimp only
  cases hr : readLockups s.lockups.entries with
  | err e => exact absurd hr (readLockups_ne_err _ _)
  | panic m => exact .inl ⟨m, rfl⟩
  | ok lockups =>
    have hl : smallestLockup d lockups none = (s.locksOf d).argmin Prod.snd := by
      rw [State.locksOf, hr]
      exact smallestLockup_eq (argmin_nil _)
    rw [← hl]
    rw [ok_bind]
    cases smallestLockup d lockups none with
    | none => exact .inr rfl
    | some l =>
      rw [Option.filter_some, Bonded]
      dsimp only
      cases Γ.getValidator s.env l.1 with
      | error e => exact .inr rfl
      | ok validator => cases hb : Γ.isBonded validator <;> exact .inr (by simp [hb]; rfl)

/-- The second search finds the first of the smallest delegations, and fails only if no validator is bonded. -/
theorem selectValidatorWithSmallestDelegation_apply (laws : StakingLaws Γ) (s : State Γ.toEnv) :
    selectValidatorWithSmallestDelegation s = (match s.delegations.argmin Prod.snd with
        | some l => .ok l.1
        | none => .err ⟨.invalidAddress, str "no bonded validators available"⟩, s) := by
  obtain ⟨validators, hit, -⟩ := laws.walks s.env
  unfold selectValidatorWithSmallestDelegation Eff.query State.delegations
  simp only [hit]
  cases validatorDelegations s.env validators with
  | nil => rfl
  | cons l rest =>
    rw [show l :: rest = [l] ++ rest from rfl, smallestDelegation_eq argmin_singleton]
    rfl

/-- What the two searches find: the first of the smallest lockups if its validator is bonded, else the first of the smallest
delegations. -/
theorem selectValidator_ok (laws : StakingLaws Γ) {t : State Γ.toEnv} (h : (selectValidator d).Succeeds s v t) :
    t = s ∧ ((Bonded s.env v = true ∧ ∃ amount, (s.locksOf d).argmin Prod.snd = some (v, amount)) ∨
      (∀ l, (s.locksOf d).argmin Prod.snd = some l → Bonded s.env l.1 = false) ∧
        ∃ n, s.delegations.argmin Prod.snd = some (v, n)) := by
  unfold selectValidator at h
  obtain ⟨chosen, s₁, hf, h⟩ := bind_ok.1 h
  rcases selectValidatorFromExistingLockups_cases d s with ⟨m, hp⟩ | hok
  · cases hp.symm.trans hf
  obtain ⟨hch, rfl⟩ := Prod.mk.inj (hok.symm.trans hf)
  obtain rfl := Outcome.ok.inj hch
  cases hs : ((s.locksOf d).argmin Prod.snd).filter fun l => Bonded s.env l.1 with
  | some l =>
    rw [hs] at h
    obtain ⟨rfl, rfl⟩ := pure_ok.1 h
    obtain ⟨hl, hb⟩ := Option.filter_eq_some_iff.1 hs
    exact ⟨rfl, .inl ⟨hb, l.2, hl⟩⟩
  | none =>
    rw [hs] at h
    change selectValidatorWithSmallestDelegation s = _ at h
    rw [selectValidatorWithSmallestDelegation_apply laws] at h
    cases hlea : s.delegations.argmin Prod.snd with
    | none =>
      rw [hlea] at h
      cases h
    | some l =>
      rw [hlea] at h
      obtain ⟨hv, rfl⟩ := Prod.mk.inj h
      refine ⟨rfl, .inr ⟨fun l' hl' => ?_, l.2, by rw [← Outcome.ok.inj hv]⟩⟩
      rw [hl', Option.filter_eq_none_iff] at hs
      simpa using hs

/-! ### Three validators, one of them not bonded -/

def second : Bytes := str "validator address 21"

def third : Bytes := str "validator address 22"

def threeValidators : List LocalValidator :=
  [⟨operator, 0, Dec.ofInt 1⟩, ⟨second, 1, Dec.ofInt 1⟩, ⟨third, 1, Dec.ofInt 1⟩]

/-- The local chain where a validator with tokens is bonded. -/
def someBonded : StakingEnv :=
  { localStaking threeValidators with isBonded := fun w : LocalValidator => decide (0 < w.tokens) }

theorem someBonded_laws : StakingLaws someBonded := by
  have hp : ∀ w ∈ threeValidators, Chain.parseAddress w.operatorAddress = .ok w.operatorAddress := by decide
  have hf : ∀ w ∈ threeValidators,
      threeValidators.find? (fun w' => w'.operatorAddress = w.operatorAddress) = some w := by decide
  refine ⟨fun env => ⟨threeValidators, rfl, fun validator v => ⟨fun h => ?_, ?_⟩⟩⟩
  · dsimp only [someBonded, localStaking] at h
    split at h
    · rename_i w hw
      obtain rfl := Except.ok.inj h
      have hop : w.operatorAddress = v := by simpa using List.find?_some hw
      exact ⟨mem_of_find?_eq_some hw, hop ▸ hp w (mem_of_find?_eq_some hw)⟩
    · cases h
  · rintro ⟨hmem, h⟩
    obtain rfl := Except.ok.inj ((hp validator hmem).symm.trans h)
    dsimp only [someBonded, localStaking]
    rw [hf validator hmem]

/-- A delegator with a lockup of one with a validator, and of five with the second one. -/
def twoLocks (first : Bytes) : State someBonded.toEnv :=
  { emptyState someBonded.toEnv { oneDelegator with delegated := Function.update (fun _ => 0) second 5 } with
    lockups := (KVStore.empty.set (lockupKey alice first) ⟨alice, first, 1⟩).set (lockupKey alice second) ⟨alice, second, 5⟩ }

end Vera.Tier
