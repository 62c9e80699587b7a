import Vera.Tier.Credit

/-!
# Locking and unlocking of stake

The keeper calls behind `Lock`, `Unlock` and `CancelUnlocking`, and the redemption of matured lockups
(`x/tier/keeper/keeper.go`). A message runs in a transaction and the redemption in the hook at the end of an epoch; both are
undone as a whole by an error or a panic.
-/

namespace Vera.Tier

open Eff
open Bytes (str)

variable {Γ : Env}

def stakeText (amount : Int) : Bytes := Decimal.decInt amount ++ str "uopen"

def newCoin (amount : Int) : M Γ Int := if 0 ≤ amount then pure amount else Eff.crash "negative coin amount"

def requireValidator (valAddr : Bytes) : M Γ Γ.Validator :=
  Eff.query fun s => Outcome.ofExcept
    (fun e => ⟨.invalidAddress, str "validator address " ++ Γ.valAddressString valAddr ++ str ": " ++ e⟩)
    (Γ.getValidator s.env valAddr)

/-- Lock stake of a delegator with a validator: move the stake to the module, delegate it, mint the credits it earns, and
record the lockup and the totals. -/
def lock (ctx : Ctx) (delAddr valAddr : Bytes) (amt : Int) : M Γ Unit := do
  Eff.require (0 < amt) ⟨.invalidAmount, str "lock non-positive amount"⟩
  let validator ← requireValidator valAddr
  let stake ← newCoin amt
  callEnv (wrap (str "delegate " ++ stakeText stake ++ str " from account to module"))
    (Γ.delegateCoinsFromAccountToModule delAddr stake)
  let _ ← callEnv (wrap (str "delegate " ++ stakeText stake)) (Γ.delegate stake .unbonded validator true)
  let creditAmt ← proratedCredit ctx delAddr amt
  (mintCredit delAddr creditAmt).mapErr (Error.wrap (str "mint credit"))
  (addLockup delAddr valAddr stake).mapErr (Error.wrap (str "add lockup"))
  let s ← Eff.read
  (setTotalCreditAmount (s.getTotalCreditAmount + creditAmt)).mapErr (Error.wrap (str "set total credit amount"))
  emit (.lock delAddr valAddr amt creditAmt)

/-- Remove the insurance lockup when the lockup is gone. -/
def removeInsuranceIfUnlocked (delAddr valAddr : Bytes) : M Γ Unit := do
  let s ← Eff.read
  if (s.getLockup delAddr valAddr).isNone then removeInsuranceLockup delAddr valAddr else pure ()

/-- The shares of an amount that the module wants to undelegate. -/
def requireShares (valAddr : Bytes) (amt : Int) : M Γ Γ.Shares := do
  let shares ← Eff.query fun s =>
    Outcome.ofExcept (wrap (str "validate unbond amount")) (Γ.validateUnbondAmount s.env valAddr amt)
  Eff.require (Γ.isPositive shares = true) ⟨.insufficientShares, str "shares are not positive"⟩
  pure shares

/-- The time at which stake unlocked now may be redeemed; a duration is a 64-bit number of nanoseconds. -/
def unlockTimeOf (ctx : Ctx) : M Γ Time :=
  Eff.query fun s =>
    match s.params.epochDuration with
    | none => .panic "invalid memory address or nil pointer dereference"
    | some d => .ok (ctx.blockTime.add (Int.bmod (d * s.params.unlockingEpochs) (2 ^ 64)))

/-- Start to unlock an amount of a lockup: undelegate it and record it under the current height. -/
def unlock (ctx : Ctx) (delAddr valAddr : Bytes) (amt : Int) : M Γ (Int × Time × Time) := do
  Eff.require (0 < amt) ⟨.invalidAmount, str "unlock non-positive amount"⟩
  (subtractLockup delAddr valAddr amt).mapErr (Error.wrap (str "subtract lockup"))
  removeInsuranceIfUnlocked delAddr valAddr
  let shares ← requireShares valAddr amt
  let (completionTime, returnAmount) ← callEnv (wrap (str "undelegate")) (Γ.undelegate valAddr shares)
  let amt := if returnAmount < amt then returnAmount else amt
  let unlockTime ← unlockTimeOf ctx
  setUnlockingLockup delAddr valAddr ctx.blockHeight amt completionTime unlockTime
  emit (.unlock delAddr valAddr ctx.blockHeight amt completionTime unlockTime)
  pure (ctx.blockHeight, completionTime, unlockTime)

/-- The unbonding entries of the module with a validator. -/
def requireUnbondingDelegation (valAddr : Bytes) : M Γ (List UnbondingEntry) :=
  Eff.query fun s => Outcome.ofExcept
    (wrap (str "unbonding delegation not found for delegator " ++ Γ.accAddressString Γ.moduleAddress ++
      str " and validator " ++ Γ.valAddressString valAddr))
    (Γ.getUnbondingDelegation s.env valAddr)

/-- The first entry of a height that has not completed, with its place. -/
def findEntry (ctx : Ctx) (creationHeight : Int) : List UnbondingEntry → Nat → Option (Nat × UnbondingEntry)
  | [], _ => none
  | e :: rest, i =>
    if e.creationHeight = creationHeight ∧ e.completionTime.after ctx.blockTime then some (i, e)
    else findEntry ctx creationHeight rest (i + 1)

/-- That entry; without one there is nothing to cancel. -/
def requireEntry (ctx : Ctx) (creationHeight : Int) (entries : List UnbondingEntry) : M Γ (Nat × UnbondingEntry) :=
  match findEntry ctx creationHeight entries 0 with
  | none => Eff.fail ⟨.noUnbondingDelegation, str "no valid entry for height " ++ Decimal.decInt creationHeight⟩
  | some found => pure found

/-- The entries after an amount was taken from one of them. -/
def takeFromEntry (entries : List UnbondingEntry) (i : Nat) (e : UnbondingEntry) (amt : Int) : List UnbondingEntry :=
  if e.balance - amt = 0 then entries.eraseIdx i else entries.set i { e with balance := e.balance - amt }

/-- Take back an amount that is being unlocked: delegate it again and move it from the unlocking lockup to the lockup. -/
def cancelUnlocking (ctx : Ctx) (delAddr valAddr : Bytes) (creationHeight amt : Int) : M Γ Unit := do
  Eff.require (0 < amt) ⟨.invalidAmount, str "cancel unlocking non-positive amount"⟩
  let validator ← requireValidator valAddr
  let entries ← requireUnbondingDelegation valAddr
  let (i, e) ← requireEntry ctx creationHeight entries
  Eff.require (amt ≤ e.balance) ⟨.invalidAmount, str "cancel unlocking amount exceeds unbonding entry balance"⟩
  let _ ← callEnv (wrap (str "failed to delegate tokens back to validator")) (Γ.delegate amt .unbonding validator false)
  callEnv (wrap (str "failed to update unbonding delegation"))
    (if takeFromEntry entries i e amt = [] then Γ.removeUnbondingDelegation valAddr
      else Γ.setUnbondingDelegation valAddr (takeFromEntry entries i e amt))
  (subtractUnlockingLockup delAddr valAddr creationHeight amt).mapErr (Error.wrap (str "subtract unlocking lockup"))
  (addLockup delAddr valAddr amt).mapErr (Error.wrap (str "add lockup"))
  emit (.cancelUnlocking delAddr valAddr creationHeight amt)

/-- Whether an unlocking lockup is passed over: its time has not come, or the module's account holds too little. -/
def State.notRedeemable (s : State Γ) (ctx : Ctx) (u : UnlockingLockup) : Bool :=
  ctx.blockTime.before u.completionTime || ctx.blockTime.before u.unlockTime ||
    Γ.getBalance s.env Γ.moduleAddress .uopen < u.amount

/-- The callback of `CompleteUnlocking`: redeem one unlocking lockup for stake. -/
def redeem (ctx : Ctx) (delAddr valAddr : Bytes) (creationHeight : Int) (u : UnlockingLockup) : M Γ Unit := do
  let s ← Eff.read
  if s.notRedeemable ctx u then pure ()
  else do
    let coins ← newCoin u.amount
    callEnv (wrap (str "undelegate coins to " ++ Γ.accAddressString delAddr ++ str " for amount " ++ stakeText coins))
      (Γ.undelegateCoinsFromModuleToAccount delAddr coins)
    removeUnlockingLockup delAddr valAddr creationHeight
    emit (.completeUnlocking delAddr valAddr creationHeight u.amount)

/-- One step of the iterator: read the key of a record and call back. -/
def redeemEntry (ctx : Ctx) (e : Bytes × UnlockingLockup) : M Γ Unit := do
  let (delAddr, valAddr, creationHeight) ← Eff.lift (unlockingLockupKeyToAddressesAtHeight e.1)
  (redeem ctx delAddr valAddr creationHeight e.2).mapErr (Error.wrap
    (Γ.accAddressString delAddr ++ str "/" ++ Γ.valAddressString valAddr ++ str "/" ++ Decimal.decInt creationHeight ++
      str ", amount: " ++ Decimal.decInt e.2.amount))

/-- Redeem all unlocking lockups whose time has come. The iterator meets the records that were there when it was opened; the
callback removes no other record than its own. -/
def completeUnlocking (ctx : Ctx) : M Γ Unit := do
  let s ← Eff.read
  (Eff.forEach s.unlockings.entries (redeemEntry ctx)).mapErr (Error.wrap (str "iterate unlocking lockups"))

/-! ### What the calls write when they succeed -/

variable {s t : State Γ} {ctx : Ctx} {delAddr valAddr : Bytes} {amt creationHeight : Int} {u : Unit}

theorem newCoin_bind_ok {β : Type} {amount : Int} {f : Int → M Γ β} {b : β} :
    (newCoin amount >>= f).Succeeds s b t ↔ 0 ≤ amount ∧ (f amount).Succeeds s b t := by
  unfold newCoin
  split
  · rename_i h
    simp [h]
  · rename_i h
    simp [h]

theorem lock_ok (h : (lock ctx delAddr valAddr amt).Succeeds s u t) : ∃ env totalLockups totalCredits credit, t = { s with
      env := env
      lockups := s.withLockup delAddr valAddr (amt + s.getLockupAmount delAddr valAddr)
      totalLockups := totalLockups
      totalCredits := totalCredits
      events := s.events ++ [.lock delAddr valAddr amt credit]
      writes := s.writes ++ [.lockup delAddr valAddr] } := by
  unfold lock requireValidator at h
  simp only [require_bind_ok, query_bind_ok, newCoin_bind_ok, callEnv_bind_ok] at h
  obtain ⟨-, _, -, -, _, env₁, -, _, env₂, -, h⟩ := h
  obtain ⟨credit, s₁, hcr, h⟩ := bind_ok.1 h
  obtain ⟨_, s₂, hm, h⟩ := bind_ok.1 h
  obtain ⟨_, s₃, ha, h⟩ := bind_ok.1 h
  rw [read_bind_ok] at h
  obtain ⟨_, s₄, ht, h⟩ := bind_ok.1 h
  have h₁ := proratedCredit_ok hcr
  obtain ⟨env, h₂⟩ := mintCredit_ok (mapErr_ok.1 hm)
  have h₃ := (addLockup_ok.1 (mapErr_ok.1 ha)).2
  have h₄ := setTotalCreditAmount_ok (mapErr_ok.1 ht)
  subst h₁ h₂ h₃ h₄
  exact ⟨env, _, _, credit, emit_ok.1 h⟩

theorem removeInsuranceIfUnlocked_ok
    (h : (removeInsuranceIfUnlocked delAddr valAddr).Succeeds s u t) : ∃ insurance, t = { s with insurance := insurance } := by
  unfold removeInsuranceIfUnlocked at h
  rw [read_bind_ok] at h
  split at h
  · exact ⟨_, modify_ok.1 h⟩
  · exact ⟨s.insurance, (pure_ok.1 h).2⟩

theorem requireShares_ok {shares : Γ.Shares}
    (h : (requireShares valAddr amt).Succeeds s shares t) : Γ.validateUnbondAmount s.env valAddr amt = .ok shares ∧ t = s := by
  unfold requireShares at h
  simp only [query_bind_ok, require_bind_ok, Outcome.ofExcept_eq_ok, pure_ok] at h
  obtain ⟨_, hs, -, rfl, rfl⟩ := h
  exact ⟨hs, rfl⟩

/-- An unlock takes the amount from the lockup, and records what was undelegated under the current height. -/
theorem unlock_ok {r : Int × Time × Time} (h : (unlock ctx delAddr valAddr amt).Succeeds s r t) :
    ∃ (s₁ : State Γ) (shares : Γ.Shares) (completionTime unlockTime : Time) (returnAmount : Int),
      (subtractLockup delAddr valAddr amt).Succeeds s () s₁ ∧
      Γ.validateUnbondAmount s₁.env valAddr amt = .ok shares ∧
      (Γ.undelegate valAddr shares).Succeeds s₁.env (completionTime, returnAmount) t.env ∧
      t.lockups = s₁.lockups ∧
      t.unlockings = s₁.unlockings.set (unlockingLockupKey delAddr valAddr ctx.blockHeight)
        ⟨Γ.accAddressString delAddr, Γ.valAddressString valAddr, ctx.blockHeight,
          if returnAmount < amt then returnAmount else amt, completionTime, unlockTime⟩ ∧
      t.events = s₁.events ++ [.unlock delAddr valAddr ctx.blockHeight
        (if returnAmount < amt then returnAmount else amt) completionTime unlockTime] ∧
      t.writes = s₁.writes ++ [.unlockingLockup delAddr valAddr ctx.blockHeight] := by
  unfold unlock unlockTimeOf at h
  rw [require_bind_ok] at h
  obtain ⟨_, s₁, hsu, h⟩ := bind_ok.1 h.2
  obtain ⟨_, s₂, hin, h⟩ := bind_ok.1 h
  obtain ⟨shares, s₃, hs, h⟩ := bind_ok.1 h
  simp only [callEnv_bind_ok, query_bind_ok] at h
  obtain ⟨⟨completionTime, returnAmount⟩, env, hu, unlockTime, -, h⟩ := h
  obtain ⟨_, s₄, hse, h⟩ := bind_ok.1 h
  obtain ⟨_, s₅, hem, h⟩ := bind_ok.1 h
  obtain ⟨insurance, h₂⟩ := removeInsuranceIfUnlocked_ok hin
  obtain ⟨hv, h₃⟩ := requireShares_ok hs
  have h₄ := (setUnlockingLockup_ok.1 hse).2
  have h₅ := emit_ok.1 hem
  have h₆ := (pure_ok.1 h).2
  subst h₂ h₃ h₄ h₅ h₆
  exact ⟨s₁, shares, completionTime, unlockTime, returnAmount, mapErr_ok.1 hsu, hv, hu, rfl, rfl, rfl, rfl⟩

theorem requireEntry_ok {entries : List UnbondingEntry} {r : Nat × UnbondingEntry}
    (h : (requireEntry ctx creationHeight entries).Succeeds s r t) : t = s := by
  unfold requireEntry at h
  split at h
  · exact absurd h fail_ok
  · exact (pure_ok.1 h).2

theorem cancelUnlocking_ok (h : (cancelUnlocking ctx delAddr valAddr creationHeight amt).Succeeds s u t) :
    ∃ env, ∃ s₂ : State Γ, (subtractUnlockingLockup delAddr valAddr creationHeight amt).Succeeds { s with env := env } () s₂ ∧
      t = { s₂ with
        totalLockups := some (s₂.getTotalLockupsAmount + amt)
        lockups := s₂.withLockup delAddr valAddr (amt + s₂.getLockupAmount delAddr valAddr)
        events := s₂.events ++ [.cancelUnlocking delAddr valAddr creationHeight amt]
        writes := s₂.writes ++ [.lockup delAddr valAddr] } := by
  unfold cancelUnlocking requireValidator requireUnbondingDelegation at h
  simp only [require_bind_ok, query_bind_ok] at h
  obtain ⟨-, _, -, _, -, h⟩ := h
  obtain ⟨⟨i, e⟩, s₁, hen, h⟩ := bind_ok.1 h
  simp only [require_bind_ok, callEnv_bind_ok] at h
  obtain ⟨-, _, env₁, -, _, env₂, -, h⟩ := h
  obtain ⟨_, s₂, hs, h⟩ := bind_ok.1 h
  obtain ⟨_, s₃, ha, h⟩ := bind_ok.1 h
  have h₁ := requireEntry_ok hen
  have h₃ := (addLockup_ok.1 (mapErr_ok.1 ha)).2
  have h₄ := emit_ok.1 h
  subst h₁ h₃ h₄
  exact ⟨env₂, s₂, mapErr_ok.1 hs, rfl⟩

/-- A redemption removes the unlocking lockup and reports its amount, or leaves everything as it is. -/
theorem redeem_ok {u : UnlockingLockup} {r : Unit} (h : (redeem ctx delAddr valAddr creationHeight u).Succeeds s r t) :
    t = s ∨ ∃ env, 0 ≤ u.amount ∧ (Γ.undelegateCoinsFromModuleToAccount delAddr u.amount).Succeeds s.env () env ∧ t = { s with
      env := env
      unlockings := s.unlockings.delete (unlockingLockupKey delAddr valAddr creationHeight)
      events := s.events ++ [.completeUnlocking delAddr valAddr creationHeight u.amount] } := by
  unfold redeem removeUnlockingLockup at h
  rw [read_bind_ok] at h
  split at h
  · exact .inl (pure_ok.1 h).2
  · simp only [newCoin_bind_ok, callEnv_bind_ok, modify_bind_ok] at h
    obtain ⟨hno, _, env, hp, h⟩ := h
    exact .inr ⟨env, hno, hp, emit_ok.1 h⟩

end Vera.Tier
