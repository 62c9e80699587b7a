import Vera.Lib.KVStore
import Vera.Lib.Time
import Vera.Tier.Keys

/-!
# The state of the tier module

The records of `x/tier`, its parameters and its errors, with the keepers of other modules it calls. The bank, the staking
module, the epochs and the fee grants are a state of their own, `σ`, and functions on it.
-/

namespace Vera.Tier

open Bytes (str)

/-- The two denominations the module handles: the stake `uopen` and the credit `ucredit`. -/
inductive Denom where
  | uopen
  | ucredit
  deriving Repr, DecidableEq

/-- An amount locked by a delegator with a validator; insurance lockups have the same form. -/
structure Lockup where
  delegatorAddress : Bytes
  validatorAddress : Bytes
  amount : Int
  deriving Repr, DecidableEq

/-- An amount on its way back to a delegator. -/
structure UnlockingLockup where
  delegatorAddress : Bytes
  validatorAddress : Bytes
  creationHeight : Int
  amount : Int
  completionTime : Time
  unlockTime : Time
  deriving Repr, DecidableEq

/-- A developer and whether missing credits are locked automatically. -/
structure Developer where
  address : Bytes
  autoLockEnabled : Bool
  deriving Repr, DecidableEq

/-- The credits a developer grants a user in every period. -/
structure UserSubscription where
  developer : Bytes
  userDid : Bytes
  creditAmount : UInt64
  startDate : Time
  period : UInt64
  lastRenewed : Time
  deriving Repr, DecidableEq

/-- A reward rate in per cent, from an amount on. -/
structure Rate where
  amount : Int
  rate : Int
  deriving Repr, DecidableEq

/-- The parameters that locking, unlocking and subscriptions read. -/
structure Params where
  epochDuration : Option Int
  unlockingEpochs : Int
  rewardRates : List Rate
  deriving Repr, DecidableEq

def defaultParams : Params where
  epochDuration := some (5 * 60 * 1000000000)
  unlockingEpochs := 2
  rewardRates := [⟨300, 150⟩, ⟨200, 120⟩, ⟨100, 110⟩, ⟨0, 100⟩]

/-- The sentinel errors of the module. -/
inductive Sentinel where
  | notFound
  | invalidAddress
  | invalidDenom
  | invalidAmount
  | invalidDID
  | invalidSubscriptionPeriod
  | insufficientShares
  | noUnbondingDelegation
  /-- An error of another module, or one that wraps no sentinel. -/
  | plain
  deriving Repr, DecidableEq

/-- An error: the sentinel it wraps and its message. -/
structure Error where
  sentinel : Sentinel
  msg : Bytes
  deriving Repr, DecidableEq

def Sentinel.text : Sentinel → Bytes
  | .notFound => str "not found"
  | .invalidAddress => str "invalid address"
  | .invalidDenom => str "invalid denom"
  | .invalidAmount => str "invalid amount"
  | .invalidDID => str "invalid DID"
  | .invalidSubscriptionPeriod => str "invalid subscription period"
  | .insufficientShares => str "insufficient delegation shares"
  | .noUnbondingDelegation => str "no unbonding delegation found"
  | .plain => []

/-- Two texts with a colon between them, unless one is empty. -/
def joinText (a b : Bytes) : Bytes := if a = [] then b else if b = [] then a else a ++ str ": " ++ b

/-- The text of an error: its message, then that of the sentinel. -/
def Error.text (e : Error) : Bytes := joinText e.msg e.sentinel.text

/-- An error with a text in front; the sentinel stays. -/
def Error.wrap (text : Bytes) (e : Error) : Error := { e with msg := joinText text e.msg }

/-- An error of another module, with the text it is wrapped in. -/
def wrap (text cause : Bytes) : Error := ⟨.plain, text ++ str ": " ++ cause⟩

/-- What the module reports of its actions. -/
inductive Event where
  | lock (delegator validator : Bytes) (amount credit : Int)
  | unlock (delegator validator : Bytes) (creationHeight amount : Int) (completionTime unlockTime : Time)
  | cancelUnlocking (delegator validator : Bytes) (creationHeight amount : Int)
  | completeUnlocking (delegator validator : Bytes) (creationHeight amount : Int)
  | redelegate (delegator srcValidator dstValidator : Bytes) (amount : Int) (completionTime : Time)
  | developerCreated (developer : Bytes) (autoLockEnabled : Bool)
  | userSubscriptionCreated (developer userDid : Bytes) (amount period : UInt64)
  | developerInsufficientCredits (developer : Bytes) (currentBalance totalGranted : Int)
  | developerInsufficientOpenForAutoLock (developer : Bytes) (currentBalance totalGranted uopenBalance lockAmount : Int)
  | developerAutoLockFailed (developer : Bytes) (error : Error)
  | developerAutoLockSuccess (developer : Bytes) (lockAmount : Int)
  | developerUpdated (developer : Bytes) (autoLockEnabled : Bool)
  | developerRemoved (developer : Bytes)
  | userSubscriptionUpdated (developer userDid : Bytes) (amount period : UInt64)
  | userSubscriptionRemoved (developer userDid : Bytes)
  deriving Repr, DecidableEq

/-- What a call reads of its context. -/
structure Ctx where
  blockHeight : Int
  int64_height : -2 ^ 63 ≤ blockHeight ∧ blockHeight < 2 ^ 63
  blockTime : Time
  extractedDID : Option Bytes := none
  deriving Repr

/-- The running epoch. -/
structure EpochInfo where
  currentEpochStartTime : Time
  duration : Int
  deriving Repr, DecidableEq

/-- One entry of an unbonding delegation. -/
structure UnbondingEntry where
  creationHeight : Int
  completionTime : Time
  balance : Int
  deriving Repr, DecidableEq

/-- The pool a delegation takes its tokens from. -/
inductive TokenSource where
  | unbonded
  | unbonding
  deriving Repr, DecidableEq

/-- The modules that `x/tier` calls, over a state `σ` of theirs. A call may write to it even when it returns an error. -/
structure Env where
  σ : Type
  Validator : Type
  Shares : Type
  /-- The address of the tier module's account. -/
  moduleAddress : Bytes
  accAddressFromBech32 : Bytes → Except Bytes Bytes
  valAddressFromBech32 : Bytes → Except Bytes Bytes
  accAddressString : Bytes → Bytes
  valAddressString : Bytes → Bytes
  /-- `sdk.ValidateDenom`. -/
  validDenom : Bytes → Bool
  /-- `acpKeeper.GetAddressFromDID`. -/
  getAddressFromDID : Bytes → Except Bytes Bytes
  getBalance : σ → Bytes → Denom → Int
  delegateCoinsFromAccountToModule : Bytes → Int → Eff σ Bytes Unit
  undelegateCoinsFromModuleToAccount : Bytes → Int → Eff σ Bytes Unit
  /-- Minting and burning of credits, and their transfer between the module and an account. -/
  mintCoins : Int → Eff σ Bytes Unit
  burnCoins : Int → Eff σ Bytes Unit
  sendCoinsFromModuleToAccount : Bytes → Int → Eff σ Bytes Unit
  sendCoinsFromAccountToModule : Bytes → Int → Eff σ Bytes Unit
  getValidator : σ → Bytes → Except Bytes Validator
  /-- The operators of all validators. -/
  getAllValidators : σ → Except Bytes (List Bytes)
  /-- Delegation by the tier module. -/
  delegate : Int → TokenSource → Validator → Bool → Eff σ Bytes Shares
  /-- The shares the tier module holds with a validator. -/
  getDelegation : σ → Bytes → Except Bytes Shares
  validateUnbondAmount : σ → Bytes → Int → Except Bytes Shares
  isPositive : Shares → Bool
  undelegate : Bytes → Shares → Eff σ Bytes (Time × Int)
  getUnbondingDelegation : σ → Bytes → Except Bytes (List UnbondingEntry)
  setUnbondingDelegation : Bytes → List UnbondingEntry → Eff σ Bytes Unit
  removeUnbondingDelegation : Bytes → Eff σ Bytes Unit
  getEpochInfo : σ → EpochInfo
  /-- Fee grants to a DID: the granter, the DID, the amount and the period. -/
  updateDIDAllowance : Bytes → Bytes → Int → Int → Time → Eff σ Bytes Unit
  grantDIDAllowance : Bytes → Bytes → Int → Int → Time → Eff σ Bytes Unit
  /-- The order in which Go walks a map. -/
  rangeOrder : List (Bytes × Int) → List (Bytes × Int)

/-- The store of `x/tier`, with the state of the other modules and the events reported so far. -/
structure State (Γ : Env) where
  env : Γ.σ
  lockups : KVStore Bytes Lockup
  unlockings : KVStore Bytes UnlockingLockup
  insurance : KVStore Bytes Lockup
  developers : KVStore Bytes Developer
  subscriptions : KVStore Bytes UserSubscription
  totalDevGranted : KVStore Bytes UInt64
  totalLockups : Option Int
  totalCredits : Option Int
  params : Params
  events : List Event
  /-- The keys written so far; no part of the program reads them. -/
  writes : List RecordKey

abbrev M (Γ : Env) (α : Type) : Type := Eff (State Γ) Error α

variable {Γ : Env}

def callEnv {α : Type} (wrapErr : Bytes → Error) (x : Eff Γ.σ Bytes α) : M Γ α := fun s =>
  ((x s.env).1.mapErr wrapErr, { s with env := (x s.env).2 })

def emit (e : Event) : M Γ Unit := Eff.modify fun s => { s with events := s.events ++ [e] }

/-- Whether a number fits into 64 bits; `Int64()` panics on others. -/
def isInt64 (n : Int) : Bool := -2 ^ 63 ≤ n && n < 2 ^ 63

variable {α β : Type} {wrapErr : Bytes → Error} {x : Eff Γ.σ Bytes α} {s t : State Γ} {f : α → M Γ β}

theorem callEnv_ok {a : α} :
    (callEnv wrapErr x).Succeeds s a t ↔ ∃ env, x.Succeeds s.env a env ∧ t = { s with env := env } := by
  simp only [callEnv, Eff.Succeeds]
  generalize x s.env = r
  obtain ⟨o, env⟩ := r
  cases o with
  | ok b => simp [Outcome.mapErr, eq_comm]
  | err e => simp [Outcome.mapErr]
  | panic m => simp [Outcome.mapErr]

theorem callEnv_bind_ok {b : β} : (callEnv wrapErr x >>= f).Succeeds s b t ↔
      ∃ a env, x.Succeeds s.env a env ∧ (f a).Succeeds { s with env := env } b t := by
  rw [Eff.bind_ok]
  constructor
  · rintro ⟨a, _, hcall, h⟩
    obtain ⟨env, hx, rfl⟩ := callEnv_ok.1 hcall
    exact ⟨a, env, hx, h⟩
  · rintro ⟨a, env, hx, h⟩
    exact ⟨a, _, callEnv_ok.2 ⟨env, hx, rfl⟩, h⟩

/-- A call of another module that returns an error may have changed the state of the other modules. -/
theorem callEnv_eq_err {e : Error}
    (h : callEnv wrapErr x s = (.err e, t)) : ∃ e' env, x s.env = (.err e', env) ∧ t = { s with env := env } := by
  unfold callEnv at h
  generalize x s.env = r at h ⊢
  obtain ⟨o, env⟩ := r
  cases o with
  | ok b => cases h
  | err e' => exact ⟨e', env, rfl, (congrArg Prod.snd h).symm⟩
  | panic m => cases h

theorem callEnv_bind_apply : (callEnv wrapErr x >>= f) s = match x s.env with
      | (.ok a, env) => f a { s with env := env }
      | (.err e, env) => (.err (wrapErr e), { s with env := env })
      | (.panic m, env) => (.panic m, { s with env := env }) := by
  show Eff.andThen (callEnv wrapErr x) f s = _
  unfold Eff.andThen callEnv
  rcases x s.env with ⟨_ | _ | _, env⟩ <;> rfl

theorem emit_ok {e : Event} {u : Unit} : (emit e).Succeeds s u t ↔ t = { s with events := s.events ++ [e] } := Eff.modify_ok

end Vera.Tier
