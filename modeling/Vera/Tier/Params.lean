import Vera.Tier.Credit

/-!
# Parameters

The checks that new parameters pass (`x/tier/types/params.go`).
-/

namespace Vera.Tier

open Bytes (str)

/-- The parameters of the pools and of the rewards, which locking and unlocking do not read. -/
structure PoolParams where
  developerPoolFee : Int
  insurancePoolFee : Int
  insurancePoolThreshold : Int
  processRewardsInterval : Int
  deriving Repr, DecidableEq

/-- The defaults: fees in per cent, the threshold in `uopen`, the interval in blocks. -/
def defaultPoolParams : PoolParams where
  developerPoolFee := 2
  insurancePoolFee := 1
  insurancePoolThreshold := 100000000000
  processRewardsInterval := 1000

/-- A check of a number that names it when it fails. -/
def checkNumber (n : Int) (holds : Bool) (text : Bytes) : Except Bytes Unit :=
  if holds then .ok () else .error (text ++ Decimal.decInt n)

/-- The duration is there and positive. The source's message goes on with the address of the duration. -/
def validateEpochDuration : Option Int → Except Bytes Unit
  | none => .error (str "invalid epoch duration: ")
  | some duration => if duration ≤ 0 then .error (str "invalid epoch duration: ") else .ok ()

def validateUnlockingEpochs (epochs : Int) : Except Bytes Unit :=
  checkNumber epochs (0 < epochs) (str "invalid unlocking epochs: ")

def validateDeveloperPoolFee (fee : Int) : Except Bytes Unit :=
  checkNumber fee (0 ≤ fee) (str "invalid developer pool fee: ")

def validateInsurancePoolFee (fee : Int) : Except Bytes Unit :=
  checkNumber fee (0 ≤ fee) (str "invalid insurance pool fee: ")

def validateInsurancePoolThreshold (threshold : Int) : Except Bytes Unit :=
  checkNumber threshold (0 ≤ threshold) (str "invalid insurance pool threshold: ")

def validateProcessRewardsInterval (interval : Int) : Except Bytes Unit :=
  checkNumber interval (0 < interval) (str "invalid process rewards interval: ")

/-- Rates start at amounts that are not negative, and are positive. -/
def validateRewardRates : List Rate → Except Bytes Unit
  | [] => .ok ()
  | r :: rest => do
    checkNumber r.amount (0 ≤ r.amount) (str "invalid locked stake: ")
    checkNumber r.rate (0 < r.rate) (str "invalid rate: ")
    validateRewardRates rest

def Params.validate (p : Params) (pools : PoolParams) : Except Bytes Unit := do
  validateEpochDuration p.epochDuration
  validateUnlockingEpochs p.unlockingEpochs
  validateDeveloperPoolFee pools.developerPoolFee
  validateInsurancePoolFee pools.insurancePoolFee
  if 100 < pools.developerPoolFee + pools.insurancePoolFee then
    .error (str "combined developer pool fee and insurance pool fee must not exceed 100, got developer: " ++
      Decimal.decInt pools.developerPoolFee ++ str ", insurance: " ++ Decimal.decInt pools.insurancePoolFee)
  validateInsurancePoolThreshold pools.insurancePoolThreshold
  validateProcessRewardsInterval pools.processRewardsInterval
  validateRewardRates p.rewardRates

theorem defaultParams_valid : defaultParams.validate defaultPoolParams = .ok () := rfl

/-- The rates that pass are positive, from amounts that are not negative on; their order is not looked at. -/
theorem validateRewardRates_eq_ok {rates : List Rate} :
    validateRewardRates rates = .ok () ↔ ∀ r ∈ rates, 0 ≤ r.amount ∧ 0 < r.rate := by
  induction rates with
  | nil => simp [validateRewardRates]
  | cons r rest ih =>
    rw [List.forall_mem_cons, ← ih, validateRewardRates]
    unfold checkNumber
    by_cases ha : 0 ≤ r.amount <;> by_cases hr : 0 < r.rate <;> simp [ha, hr, bind, Except.bind]

theorem calculateCreditLoop_zero (rates : List Rate) (credit : Int) : calculateCreditLoop 0 rates credit 0 0 = credit := by
  induction rates with
  | nil => rfl
  | cons r rest ih =>
    unfold calculateCreditLoop
    split
    · exact ih
    · rename_i hr
      have hm : max r.amount 0 = 0 := max_eq_right (by omega)
      simp [hm, creditAtRate]

theorem calculateCredit_zero (rates : List Rate) : calculateCredit rates 0 0 = 0 := calculateCreditLoop_zero rates 0

end Vera.Tier
