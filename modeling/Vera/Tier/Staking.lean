import Vera.Lib.Dec
import Vera.Tier.Keeper

/-!
# Redelegation, and the choice of a validator

What `Redelegate` and `LockAuto` (`x/tier/keeper/keeper.go`) need of the staking module beyond the other calls, with the
insurance lockups that go along with a redelegation (`insurance.go`).
-/

namespace Vera.Tier

open Bytes (str)

/-- More of the staking module, and the account of the insurance pool. -/
structure StakingEnv extends Env where
  /-- The tokens of a validator, and the shares of all who delegate to it. -/
  tokens : Validator → Int
  delegatorShares : Validator → Dec
  operatorAddress : Validator → Bytes
  isBonded : Validator → Bool
  sharesDec : Shares → Dec
  /-- The validators in the order in which the staking module walks them. -/
  iterateValidators : σ → Except Bytes (List Validator)
  beginRedelegation : Bytes → Bytes → Shares → Eff σ Bytes Time
  insurancePoolAddress : Bytes
  /-- Delegation by the insurance pool, from its account. -/
  delegateInsurance : Int → Validator → Eff σ Bytes Shares
  /-- `math.LegacyNewDecFromStr`. -/
  newDecFromStr : Bytes → Except Bytes Dec

variable {Γ : StakingEnv}

def setInsuranceLockup {Γ : Env} (delAddr valAddr : Bytes) (amount : Int) : M Γ Unit :=
  Eff.modify fun s => { s with
    insurance := s.insurance.set (lockupKey delAddr valAddr)
      ⟨Γ.accAddressString delAddr, Γ.valAddressString valAddr, amount⟩
    writes := s.writes ++ [.lockup delAddr valAddr] }

def addInsuranceLockup {Γ : Env} (delAddr valAddr : Bytes) (amount : Int) : M Γ Unit := do
  let s ← Eff.read
  setInsuranceLockup delAddr valAddr (amount + s.getInsuranceLockupAmount delAddr valAddr)

/-- Move the insurance lockup when the lockup is gone; an insurance lockup of zero stays where it is. -/
def moveInsurance {Γ : Env} (delAddr srcValAddr dstValAddr : Bytes) : M Γ Unit := do
  let s ← Eff.read
  if (s.getLockup delAddr srcValAddr).isNone ∧ 0 < s.getInsuranceLockupAmount delAddr srcValAddr then do
    removeInsuranceLockup delAddr srcValAddr
    addInsuranceLockup delAddr dstValAddr (s.getInsuranceLockupAmount delAddr srcValAddr)
  else pure ()

/-- Move an amount of a lockup from one validator to another. -/
def redelegate (delAddr srcValAddr dstValAddr : Bytes) (amt : Int) : M Γ.toEnv Time := do
  Eff.require (0 < amt) ⟨.invalidAmount, str "redelegate non-positive amount"⟩
  (subtractLockup delAddr srcValAddr amt).mapErr (Error.wrap (str "subtract lockup from source validator"))
  (addLockup delAddr dstValAddr amt).mapErr (Error.wrap (str "add lockup to destination validator"))
  moveInsurance delAddr srcValAddr dstValAddr
  let shares ← Eff.query fun s : State Γ.toEnv =>
    Outcome.ofExcept (wrap (str "validate unbond amount")) (Γ.validateUnbondAmount s.env srcValAddr amt)
  let completionTime ← callEnv (wrap (str "begin redelegation")) (Γ.beginRedelegation srcValAddr dstValAddr shares)
  emit (.redelegate delAddr srcValAddr dstValAddr amt completionTime)
  pure completionTime

/-- The first of the smallest lockups of a delegator: its validator and its amount. -/
def smallestLockup (delAddr : Bytes) : List (Bytes × Bytes × Lockup) → Option (Bytes × Int) → Option (Bytes × Int)
  | [], chosen => chosen
  | (d, v, lockup) :: rest, chosen =>
    if d ≠ delAddr then smallestLockup delAddr rest chosen
    else
      match chosen with
      | none => smallestLockup delAddr rest (some (v, lockup.amount))
      | some (v', amount) => smallestLockup delAddr rest (some (if lockup.amount < amount then (v, lockup.amount) else (v', amount)))

/-- The validator of the smallest lockup of a delegator, if it is bonded. -/
def selectValidatorFromExistingLockups (delAddr : Bytes) : M Γ.toEnv (Option Bytes) :=
  Eff.query fun s => do
    let lockups ← readLockups s.lockups.entries
    match smallestLockup delAddr lockups none with
    | none => pure none
    | some (valAddr, _) =>
      match Γ.getValidator s.env valAddr with
      | .error _ => pure none
      | .ok validator => pure (if Γ.isBonded validator then some valAddr else none)

/-- The bonded validators whose address can be read, with the whole shares that the tier module has with them. -/
def validatorDelegations (env : Γ.σ) : List Γ.Validator → List (Bytes × Int)
  | [] => []
  | validator :: rest =>
    if Γ.isBonded validator = false then validatorDelegations env rest
    else
      match Γ.valAddressFromBech32 (Γ.operatorAddress validator) with
      | .error _ => validatorDelegations env rest
      | .ok valAddr =>
        let delegation :=
          match Γ.getDelegation env valAddr with
          | .error _ => 0
          | .ok shares => (Γ.sharesDec shares).truncateInt
        (valAddr, delegation) :: validatorDelegations env rest

/-- The first of the smallest of some delegations. -/
def smallestDelegation : List (Bytes × Int) → Bytes × Int → Bytes × Int
  | [], chosen => chosen
  | d :: rest, chosen => smallestDelegation rest (if d.2 < chosen.2 then d else chosen)

/-- The bonded validator with the smallest delegation of the tier module. -/
def selectValidatorWithSmallestDelegation : M Γ.toEnv Bytes :=
  Eff.query fun s =>
    match Γ.iterateValidators s.env with
    | .error _ => .err ⟨.invalidAddress, str "failed to iterate validators"⟩
    | .ok validators =>
      match validatorDelegations s.env validators with
      | [] => .err ⟨.invalidAddress, str "no bonded validators available"⟩
      | d :: rest => .ok (smallestDelegation rest d).1

/-- The validator that stake is locked with when the delegator names none. -/
def selectValidator (delAddr : Bytes) : M Γ.toEnv Bytes := do
  match ← selectValidatorFromExistingLockups delAddr with
  | some valAddr => pure valAddr
  | none => selectValidatorWithSmallestDelegation

/-- Lock stake of a delegator with a validator that is selected for them. -/
def lockAuto (ctx : Ctx) (delAddr : Bytes) (amt : Int) : M Γ.toEnv Bytes := do
  let valAddr ← selectValidator delAddr
  lock ctx delAddr valAddr amt
  pure valAddr

/-! ### What the calls write when they succeed -/

end Vera.Tier
