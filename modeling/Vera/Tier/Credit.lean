import Vera.Tier.Lockup

/-!
# Credits

The credits earned on locked stake (`x/tier/keeper/calculate_credit.go`) and their minting (`credit.go`).
-/

namespace Vera.Tier

open Eff
open Bytes (str)

variable {Γ : Env}

/-- The credit for a part of the stake at a rate in per cent. The decimals of the source hold these values exactly, so only
the final truncation rounds. -/
def creditAtRate (diff rate : Int) : Int := (diff * rate).tdiv 100

/-- The loop of `calculateCredit` over the rates, with the credit so far, the stake not yet rewarded and its new part. -/
def calculateCreditLoop (lockedAmt : Int) : List Rate → (credit stakedAmt lockingAmt : Int) → Int
  | [], credit, _, _ => credit
  | r :: rest, credit, stakedAmt, lockingAmt =>
    if stakedAmt < r.amount then calculateCreditLoop lockedAmt rest credit stakedAmt lockingAmt
    else
      let diff := stakedAmt - max r.amount lockedAmt
      let credit' := credit + creditAtRate diff r.rate
      if lockingAmt - diff = 0 then credit'
      else calculateCreditLoop lockedAmt rest credit' (stakedAmt - diff) (lockingAmt - diff)

/-- The credit earned on an amount that is locked on top of a locked amount. -/
def calculateCredit (rateList : List Rate) (lockedAmt lockingAmt : Int) : Int :=
  calculateCreditLoop lockedAmt rateList 0 (lockedAmt + lockingAmt) lockingAmt

/-- The credit in proportion to the time that has passed in the running epoch. -/
def calculateProratedCredit (rates : List Rate) (lockedAmt lockingAmt : Int) (currentEpochStartTime currentBlockTime : Time)
    (epochDuration : Int) : Int :=
  let credit := calculateCredit rates lockedAmt lockingAmt
  let sinceCurrentEpoch := Time.milliseconds (currentBlockTime.sub currentEpochStartTime)
  let epochDurationMs := Time.milliseconds epochDuration
  if epochDurationMs = 0 then 0
  else if sinceCurrentEpoch < epochDurationMs then (credit * sinceCurrentEpoch).tdiv epochDurationMs
  else credit

/-- The credit for an amount a delegator locks now. -/
def proratedCredit (ctx : Ctx) (delAddr : Bytes) (lockingAmt : Int) : M Γ Int := do
  let s ← Eff.read
  let lockedAmt ← totalLockedAmountByAddr delAddr
  let insuredAmt ← totalInsuredAmountByAddr delAddr
  let epochInfo := Γ.getEpochInfo s.env
  pure (calculateProratedCredit s.params.rewardRates (lockedAmt + insuredAmt) lockingAmt epochInfo.currentEpochStartTime
    ctx.blockTime epochInfo.duration)

/-- The stored total of all credits; nothing stored, or a negative number, counts as zero. -/
def State.getTotalCreditAmount (s : State Γ) : Int := max 0 (s.totalCredits.getD 0)

/-- Store the total of all credits; a positive total goes to a gauge, as a 64-bit number. -/
def setTotalCreditAmount (total : Int) : M Γ Unit := do
  Eff.modify fun s => { s with totalCredits := some total }
  if 0 < total ∧ isInt64 total = false then Eff.crash "Int64() out of bound" else pure ()

/-- Mint credits and send them to an account. -/
def mintCredit (addr : Bytes) (amount : Int) : M Γ Unit := do
  Eff.lift (Outcome.ofExcept (wrap (str "invalid address"))
    ((Γ.accAddressFromBech32 (Γ.accAddressString addr)).map fun _ => ()))
  Eff.require (0 < amount) ⟨.plain, str "invalid amount"⟩
  callEnv (wrap (str "mint coins")) (Γ.mintCoins amount)
  callEnv (wrap (str "send coins from module to account")) (Γ.sendCoinsFromModuleToAccount addr amount)

/-! ### What the calls write when they succeed -/

variable {s t : State Γ} {total : Int} {u : Unit}

theorem proratedCredit_ok {ctx : Ctx} {delAddr : Bytes} {lockingAmt credit : Int}
    (h : (proratedCredit ctx delAddr lockingAmt).Succeeds s credit t) : t = s := by
  unfold proratedCredit totalLockedAmountByAddr totalInsuredAmountByAddr iterateLockups iterateInsuranceLockups at h
  simp only [bind_ok, read_ok, query_ok, pure_ok] at h
  obtain ⟨_, _, ⟨-, rfl⟩, _, _, ⟨_, _, ⟨-, rfl⟩, -, rfl⟩, _, _, ⟨_, _, ⟨-, rfl⟩, -, rfl⟩, -, rfl⟩ := h
  rfl

theorem setTotalCreditAmount_ok
    (h : (setTotalCreditAmount total).Succeeds s u t) : t = { s with totalCredits := some total } := by
  unfold setTotalCreditAmount at h
  simp only [bind_ok, modify_ok] at h
  obtain ⟨_, _, rfl, h⟩ := h
  split at h
  · exact absurd h crash_ok
  · exact (pure_ok.1 h).2

theorem setTotalCreditAmount_fits (h : (setTotalCreditAmount total).Succeeds s u t) : total < 2 ^ 63 := by
  unfold setTotalCreditAmount at h
  rw [modify_bind_ok] at h
  split at h
  · exact absurd h crash_ok
  · rename_i hf
    simp only [isInt64, not_and, Bool.not_eq_false, Bool.and_eq_true, decide_eq_true_eq] at hf
    by_cases hp : 0 < total
    · exact (hf hp).2
    · omega

theorem mintCredit_ok {addr : Bytes} {amount : Int}
    (h : (mintCredit addr amount).Succeeds s u t) : ∃ env, t = { s with env := env } := by
  unfold mintCredit at h
  simp only [bind_ok, lift_ok, require_ok, callEnv_ok] at h
  obtain ⟨_, _, ⟨-, rfl⟩, _, _, ⟨-, rfl⟩, _, _, ⟨_, -, rfl⟩, env, -, rfl⟩ := h
  exact ⟨env, rfl⟩

end Vera.Tier
