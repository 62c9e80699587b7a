import Vera.Lib.Run
import Vera.Tier.Epoch
import Vera.Tier.LocalChain
import Vera.Tier.Slashing

/-!
# The tier module as a state machine

The messages, the hooks at the epochs and the reaction to slashing, as the steps of one machine. Between them the other
modules may change their own state.
-/

namespace Vera.Tier

open Bytes (str)

/-- What can happen to the tier module. -/
inductive TierStep (Γ : StakingEnv) where
  | lock (ctx : Ctx) (delAddr valAddr : Bytes) (amt : Int)
  | lockAuto (ctx : Ctx) (delAddr : Bytes) (amt : Int)
  | unlock (ctx : Ctx) (delAddr valAddr : Bytes) (amt : Int)
  | redelegate (delAddr srcValAddr dstValAddr : Bytes) (amt : Int)
  | cancelUnlocking (ctx : Ctx) (delAddr valAddr : Bytes) (creationHeight amt : Int)
  | beforeEpochStart (ctx : Ctx) (identifier : Bytes)
  | afterEpochEnd (ctx : Ctx) (identifier : Bytes)
  | adjustLockups (validatorAddr : Bytes) (slashingRate coverageRate : Dec)
  | slashingEvent (event : BlockEvent)
  | others (env : Γ.σ)

variable {Γ : StakingEnv}

/-- A message or a hook that fails changes nothing. An adjustment that returns an error keeps what it wrote, as the block
goes on; a panic drops the block. -/
def tierStep (s : State Γ.toEnv) : TierStep Γ → State Γ.toEnv
  | .lock ctx delAddr valAddr amt => (lock ctx delAddr valAddr amt).commit s
  | .lockAuto ctx delAddr amt => (lockAuto ctx delAddr amt).commit s
  | .unlock ctx delAddr valAddr amt => (unlock ctx delAddr valAddr amt).commit s
  | .redelegate delAddr srcValAddr dstValAddr amt => (redelegate delAddr srcValAddr dstValAddr amt).commit s
  | .cancelUnlocking ctx delAddr valAddr creationHeight amt =>
    (cancelUnlocking ctx delAddr valAddr creationHeight amt).commit s
  | .beforeEpochStart ctx identifier => (beforeEpochStart ctx identifier).commit s
  | .afterEpochEnd ctx identifier => (afterEpochEnd ctx identifier).commit s
  | .adjustLockups validatorAddr slashingRate coverageRate =>
    (adjustLockups validatorAddr slashingRate coverageRate).attempt.commit s
  | .slashingEvent event => (handleSlashingEvent event).commit s
  | .others env => { s with env := env }

/-! ## A local chain with validators -/

/-- What the staking module says of a validator. -/
structure LocalValidator where
  operatorAddress : Bytes
  tokens : Int
  delegatorShares : Dec
  deriving Repr, DecidableEq

/-- The number that a text of digits stands for. -/
def parseDigits (text : Bytes) : Except Bytes Dec :=
  if text = [] ∨ ∃ c ∈ text, c < 48 ∨ 57 < c then .error (str "failed to set decimal string")
  else .ok (Dec.ofInt (text.foldl (fun n c => 10 * n + ((c.toNat : Int) - 48)) 0))

namespace Chain

/-- The address of the insurance pool's account. -/
def insurancePool : Bytes := str "insurance pool acct."

/-- Move delegated stake of the tier module from one validator to another. -/
def beginRedelegation (src dst : Bytes) (shares : Int) : Eff Chain Bytes Time := do
  let c ← Eff.read
  Eff.modify fun c => { c with delegated := move c.delegated src dst shares }
  pure (c.now.add unbondingTime)

end Chain

/-- The local chain with some bonded validators, and an insurance pool that delegates to them. -/
def localStaking (validators : List LocalValidator) : StakingEnv :=
  { localChain with
    Validator := LocalValidator
    getValidator := fun _ v =>
      match validators.find? fun w => w.operatorAddress = v with
      | some w => .ok w
      | none => .error (str "validator does not exist")
    delegate := fun amount _ w subtractAccount => Chain.delegate amount w.operatorAddress subtractAccount
    validateUnbondAmount := fun c v amount =>
      if (∃ w ∈ validators, w.operatorAddress = v) ∧ amount ≤ c.delegated v then .ok amount
      else .error (str "invalid shares amount")
    getUnbondingDelegation := fun c v =>
      if (∃ w ∈ validators, w.operatorAddress = v) ∧ c.unbonding v ≠ [] then .ok (c.unbonding v)
      else .error (str "no unbonding delegation found")
    tokens := LocalValidator.tokens
    delegatorShares := LocalValidator.delegatorShares
    operatorAddress := LocalValidator.operatorAddress
    isBonded := fun _ => true
    sharesDec := Dec.ofInt
    iterateValidators := fun _ => .ok validators
    beginRedelegation := Chain.beginRedelegation
    insurancePoolAddress := Chain.insurancePool
    delegateInsurance := fun amount _ => do
      Chain.send Chain.insurancePool (str "bonded tokens pool..") amount
      pure amount
    newDecFromStr := parseDigits }

def emptyState (Γ : Env) (env : Γ.σ) : State Γ where
  env := env
  lockups := KVStore.empty
  unlockings := KVStore.empty
  insurance := KVStore.empty
  developers := KVStore.empty
  subscriptions := KVStore.empty
  totalDevGranted := KVStore.empty
  totalLockups := none
  totalCredits := none
  params := defaultParams
  events := []
  writes := []

end Vera.Tier
