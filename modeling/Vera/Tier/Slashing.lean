import Vera.Tier.Staking

/-!
# Slashing

What the module does when a validator was slashed (`x/tier/keeper/slashing.go`): it reads the `slash` events of the block,
works out the module's part of the loss, lets the insurance pool cover it unless the validator signed twice, and adjusts the
lockups with the validator (`adjustLockups` of `lockup.go`). The staking module has taken the tokens by then.
-/

namespace Vera.Tier

open Eff Outcome
open Bytes (str)

/-! ## Adjusting lockups -/

section Adjust

variable {Γ : Env}

def amountAtRate (amount : Int) (rate : Dec) : Int := ((Dec.ofInt amount).mul rate).truncateInt

/-- Insure a part of a lockup, on top of what is insured, if there is a rate for it. -/
def coverLockup (delAddr valAddr : Bytes) (amount : Int) (coverageRate : Dec) : M Γ Unit :=
  if coverageRate.isPositive then do
    let s ← Eff.read
    setInsuranceLockup delAddr valAddr (amountAtRate amount coverageRate + s.getInsuranceLockupAmount delAddr valAddr)
  else pure ()

/-- Adjust a lockup and the total to a rate. A lockup of which nothing is left goes, with its insurance. -/
def adjustLockup (delAddr valAddr : Bytes) (slashingRate coverageRate : Dec) : M Γ Unit := do
  let s ← Eff.read
  match s.getLockup delAddr valAddr with
  | none => Eff.fail ⟨.notFound, str "adjust lockup"⟩
  | some lockup =>
    if amountAtRate lockup.amount slashingRate = lockup.amount then pure ()
    else do
      setTotalLockupsAmount (s.getTotalLockupsAmount - lockup.amount + amountAtRate lockup.amount slashingRate)
      if amountAtRate lockup.amount slashingRate = 0 then do
        removeLockup delAddr valAddr
        removeInsuranceLockup delAddr valAddr
      else do
        setLockup delAddr valAddr (amountAtRate lockup.amount slashingRate)
        coverLockup delAddr valAddr lockup.amount coverageRate

/-- One step of the iterator of `adjustLockups`: the lockups with other validators are passed over. -/
def adjustEntry (validatorAddr : Bytes) (slashingRate coverageRate : Dec) (e : Bytes × Lockup) : M Γ Unit := do
  let (delAddr, valAddr) ← Eff.lift (lockupKeyToAddresses e.1)
  if valAddr ≠ validatorAddr then pure () else adjustLockup delAddr valAddr slashingRate coverageRate

/-- Adjust all lockups with a validator. The iterator meets the records that were there when it was opened; each is written
or removed only when it is met. -/
def adjustLockups (validatorAddr : Bytes) (slashingRate coverageRate : Dec) : M Γ Unit := do
  let s ← Eff.read
  Eff.forEach s.lockups.entries (adjustEntry validatorAddr slashingRate coverageRate)

end Adjust

/-! ## The handlers -/

variable {Γ : StakingEnv}

/-- The stake that some shares with a validator are worth, rounded down; a validator without shares makes it panic. -/
def tokensFromSharesTruncated (validator : Γ.Validator) (shares : Dec) : Dec :=
  (shares.mulInt (Γ.tokens validator)).quoTruncate (Γ.delegatorShares validator)

/-- What the handlers read of a slashed validator. -/
structure SlashedStake (Γ : StakingEnv) where
  valAddr : Bytes
  validator : Γ.Validator
  totalSlashed : Dec
  totalStake : Dec
  tierStake : Dec

/-- The first part of both handlers: the slashed amount, the validator's stake and the module's part of it. -/
def slashedStake (validatorAddr slashedAmount : Bytes) (s : State Γ.toEnv) : Outcome Error (SlashedStake Γ) := do
  let valAddr ← Outcome.ofExcept (fun e => ⟨.plain, e⟩) (Γ.valAddressFromBech32 validatorAddr)
  let totalSlashed ← Outcome.ofExcept (fun e => ⟨.plain, e⟩) (Γ.newDecFromStr slashedAmount)
  Outcome.require (totalSlashed.isZero = false) ⟨.plain, str "Total slashed amount is zero"⟩
  let validator ← Outcome.ofExcept (fun e => ⟨.plain, e⟩) (Γ.getValidator s.env valAddr)
  Outcome.require ((Dec.ofInt (Γ.tokens validator)).isZero = false)
    ⟨.plain, str "No stake for the validator: " ++ validatorAddr⟩
  let shares ← Outcome.ofExcept (fun e => ⟨.plain, e⟩) (Γ.getDelegation s.env valAddr)
  Outcome.require ((Γ.sharesDec shares).isZero = false) ⟨.plain, str "No delegation from the tier module"⟩
  if (Γ.delegatorShares validator).isZero then .panic "division by zero"
  else
    pure ⟨valAddr, validator, totalSlashed, Dec.ofInt (Γ.tokens validator),
      tokensFromSharesTruncated validator (Γ.sharesDec shares)⟩

def SlashedStake.tierSlashed (d : SlashedStake Γ) : Dec := d.totalSlashed.mul (d.tierStake.quo d.totalStake)

/-- The rate that lockups are adjusted to when a part of the module's stake was slashed. -/
def SlashedStake.slashingRate (d : SlashedStake Γ) (slashed : Dec) : Dec := (d.tierStake.sub slashed).quo d.tierStake

/-- Adjust the lockups with a validator that signed twice. -/
def handleDoubleSign (validatorAddr slashedAmount : Bytes) : M Γ.toEnv Unit := do
  let d ← Eff.query (slashedStake validatorAddr slashedAmount)
  Eff.require (d.tierSlashed.isZero = false) ⟨.plain, str "Tier module slashed amount is zero"⟩
  adjustLockups d.valAddr (d.slashingRate d.tierSlashed) ⟨0⟩

/-- The module's part of the slashed amount in whole tokens, rounded up. -/
def SlashedStake.tierSlashedTokens (d : SlashedStake Γ) : Int := d.tierSlashed.ceil.truncateInt

/-- What the insurance pool covers: the module's part, or as much as the pool holds. -/
def SlashedStake.coveredAmount (d : SlashedStake Γ) (s : State Γ.toEnv) : Int :=
  if Γ.getBalance s.env Γ.insurancePoolAddress .uopen < d.tierSlashedTokens then
    Γ.getBalance s.env Γ.insurancePoolAddress .uopen
  else d.tierSlashedTokens

/-- Adjust the lockups with a validator that missed signatures, after the insurance pool has delegated what it covers. -/
def handleMissingSignature (validatorAddr slashedAmount : Bytes) : M Γ.toEnv Unit := do
  let d ← Eff.query (slashedStake validatorAddr slashedAmount)
  Eff.require (d.tierSlashedTokens ≠ 0) ⟨.plain, str "Tier module slashed amount is zero"⟩
  let s ← Eff.read
  let _ ← callEnv (fun e => ⟨.plain, e⟩) (Γ.delegateInsurance (d.coveredAmount s) d.validator)
  adjustLockups d.valAddr (d.slashingRate (Dec.ofInt d.tierSlashedTokens)) ((Dec.ofInt (d.coveredAmount s)).quo d.tierStake)

/-- An event of the block: its type, and its attributes by key. -/
structure BlockEvent where
  eventType : Bytes
  attributes : List (Bytes × Bytes)
  deriving Repr, DecidableEq

/-- The value of an attribute, the last one if there are several; empty if there is none. -/
def BlockEvent.attribute (e : BlockEvent) (key : Bytes) : Bytes :=
  (((e.attributes.filter fun a => a.1 = key).getLast?).map Prod.snd).getD []

/-- Handle an event if it reports a slash. An error is logged only, and what was written before it stays. -/
def handleSlashingEvent (event : BlockEvent) : M Γ.toEnv Unit :=
  if event.eventType = str "slash" then do
    let _ ← (if event.attribute (str "reason") = str "double_sign" then
        handleDoubleSign (event.attribute (str "address")) (event.attribute (str "burned"))
      else handleMissingSignature (event.attribute (str "address")) (event.attribute (str "burned"))).attempt
    pure ()
  else pure ()

/-- Handle the slash events among the events of the block. -/
def handleSlashingEvents (events : List BlockEvent) : M Γ.toEnv Unit := Eff.forEach events handleSlashingEvent

theorem slashedStake_eq_ok {validatorAddr slashedAmount : Bytes} {s : State Γ.toEnv} {d : SlashedStake Γ} :
    slashedStake validatorAddr slashedAmount s = .ok d ↔ Γ.valAddressFromBech32 validatorAddr = .ok d.valAddr ∧
      Γ.newDecFromStr slashedAmount = .ok d.totalSlashed ∧ d.totalSlashed.isZero = false ∧
      Γ.getValidator s.env d.valAddr = .ok d.validator ∧
      d.totalStake = Dec.ofInt (Γ.tokens d.validator) ∧ d.totalStake.isZero = false ∧
      ∃ shares, Γ.getDelegation s.env d.valAddr = .ok shares ∧ (Γ.sharesDec shares).isZero = false ∧
        (Γ.delegatorShares d.validator).isZero = false ∧
        d.tierStake = tokensFromSharesTruncated d.validator (Γ.sharesDec shares) := by
  unfold slashedStake
  simp only [bind_eq_ok, ofExcept_eq_ok, require_eq_ok]
  constructor
  · rintro ⟨valAddr, ha, slashed, hs, _, hz, validator, hv, _, hst, shares, hsh, _, ht, h⟩
    split at h
    · cases h
    rename_i hd
    obtain rfl := pure_eq_ok.1 h
    exact ⟨ha, hs, hz, hv, rfl, hst, shares, hsh, ht, Bool.eq_false_iff.2 hd, rfl⟩
  · rintro ⟨ha, hs, hz, hv, hst, hsta, shares, hsh, ht, hd, hw⟩
    refine ⟨_, ha, _, hs, (), hz, _, hv, (), hst ▸ hsta, shares, hsh, (), ht, ?_⟩
    rw [if_neg (Bool.eq_false_iff.1 hd), ← hst, ← hw]
    rfl

/-! ### What an adjustment writes -/

section Adjust

variable {Γ : Env}

theorem amountAtRate_eq (amount : Int) (rate : Dec) : amountAtRate amount rate = (amount * rate.raw).tdiv Dec.precision :=
  Dec.truncateInt_ofInt_mul amount rate

theorem amountAtRate_ofInt (amount n : Int) : amountAtRate amount (Dec.ofInt n) = amount * n := by
  rw [amountAtRate_eq, Dec.ofInt, ← mul_assoc]
  exact Int.mul_tdiv_cancel _ Dec.precision_pos.ne'

variable {delAddr valAddr : Bytes} {coverageRate slashingRate : Dec} {s t : State Γ} {u : Unit}

theorem coverLockup_ok {amount : Int} : (coverLockup delAddr valAddr amount coverageRate).Succeeds s u t ↔
      t = if coverageRate.isPositive then
        { s with
          insurance := s.insurance.set (lockupKey delAddr valAddr) ⟨Γ.accAddressString delAddr, Γ.valAddressString valAddr,
              amountAtRate amount coverageRate + s.getInsuranceLockupAmount delAddr valAddr⟩
          writes := s.writes ++ [.lockup delAddr valAddr] }
        else s := by
  unfold coverLockup setInsuranceLockup
  split
  · rw [read_bind_ok, modify_ok]
  · simp

/-- An adjustment finds a lockup, and leaves it, removes it with its insurance, or writes what is left and insures it. -/
theorem adjustLockup_ok (h : (adjustLockup delAddr valAddr slashingRate coverageRate).Succeeds s u t) :
    ∃ lockup after, s.getLockup delAddr valAddr = some lockup ∧ after = amountAtRate lockup.amount slashingRate ∧
      (after = lockup.amount ∧ t = s ∨ after ≠ lockup.amount ∧ after = 0 ∧ t = { s with
            totalLockups := some (s.getTotalLockupsAmount - lockup.amount + after)
            lockups := s.lockups.delete (lockupKey delAddr valAddr)
            insurance := s.insurance.delete (lockupKey delAddr valAddr) } ∨
        after ≠ lockup.amount ∧ after ≠ 0 ∧ (coverLockup delAddr valAddr lockup.amount coverageRate).Succeeds { s with
              totalLockups := some (s.getTotalLockupsAmount - lockup.amount + after)
              lockups := s.withLockup delAddr valAddr after
              writes := s.writes ++ [.lockup delAddr valAddr] } () t) := by
  unfold adjustLockup removeLockup removeInsuranceLockup setLockup at h
  rw [read_bind_ok] at h
  split at h
  · exact absurd h fail_ok
  rename_i lockup hl
  refine ⟨lockup, _, hl, rfl, ?_⟩
  split at h
  · rename_i heq
    exact .inl ⟨heq, (pure_ok.1 h).2⟩
  rename_i hne
  obtain ⟨_, s₁, ht, h⟩ := bind_ok.1 h
  obtain ⟨-, rfl⟩ := setTotalLockupsAmount_ok.1 ht
  split at h
  · rename_i hz
    rw [modify_bind_ok, modify_ok] at h
    exact .inr (.inl ⟨hne, hz, h⟩)
  · rename_i hz
    rw [modify_bind_ok] at h
    exact .inr (.inr ⟨hne, hz, h⟩)

/-- A lockup of which something else than all is left is written and insured, if the new total fits into 64 bits. -/
theorem adjustLockup_writes {lockup : Lockup}
    (hl : s.getLockup delAddr valAddr = some lockup) (hne : amountAtRate lockup.amount slashingRate ≠ lockup.amount)
    (hz : amountAtRate lockup.amount slashingRate ≠ 0)
    (ht : isInt64 (s.getTotalLockupsAmount - lockup.amount + amountAtRate lockup.amount slashingRate) = true)
    (hco : (coverLockup delAddr valAddr lockup.amount coverageRate).Succeeds { s with
        totalLockups := some (s.getTotalLockupsAmount - lockup.amount + amountAtRate lockup.amount slashingRate)
        lockups := s.withLockup delAddr valAddr (amountAtRate lockup.amount slashingRate)
        writes := s.writes ++ [.lockup delAddr valAddr] } () t) :
    (adjustLockup delAddr valAddr slashingRate coverageRate).Succeeds s () t := by
  unfold adjustLockup
  rw [read_bind_ok]
  simp only [hl, if_neg hne, if_neg hz]
  exact bind_ok.2 ⟨(), _, setTotalLockupsAmount_ok.2 ⟨ht, rfl⟩, modify_bind_ok.2 hco⟩

theorem coverLockup_noError (delAddr valAddr : Bytes) (amount : Int) (coverageRate : Dec) :
    (coverLockup delAddr valAddr amount coverageRate : M Γ Unit).NoError :=
  .ite (fun _ _ _ h => nomatch h) (.pure ())

/-- An adjustment returns an error only if there is no lockup, before it has written anything. -/
theorem adjustLockup_err {e : Error} (h : adjustLockup delAddr valAddr slashingRate coverageRate s = (.err e, t)) :
    s.getLockup delAddr valAddr = none ∧ t = s := by
  unfold adjustLockup at h
  rw [read_bind] at h
  cases hl : s.getLockup delAddr valAddr with
  | none =>
    rw [hl] at h
    exact ⟨rfl, (congrArg Prod.snd h).symm⟩
  | some lockup =>
    rw [hl] at h
    refine absurd h (Eff.NoError.ite (.pure ()) ?_ _ _ _)
    refine (setTotalLockupsAmount_noError _).bind fun _ => .ite ?_ ?_
    · exact (Eff.NoError.modify _).bind fun _ => .modify _
    · exact (Eff.NoError.modify _).bind fun _ => coverLockup_noError _ _ _ _

end Adjust

end Vera.Tier
