import Vera.Tier.Developers
import Vera.Tier.Params
import Vera.Tier.System

/-!
# What the parts of a step keep

The messages, the hooks and the reaction to slashing are made of a few calls that write to the store. A property of the store
that these calls keep is kept by every step of the module. With the messages on developers and subscriptions and the change of
the parameters the steps are all that can happen to the module's store.
-/

namespace Vera.Tier

open Outcome
open Bytes (str)

section Parts

variable {Γ : Env}

/-- The calls of which the steps on lockups are made keep a property. A lockup is added with a positive amount only, and
adjusted to a rate that is not negative. -/
structure StepParts (P : State Γ → Prop) : Prop where
  callEnv : ∀ {α : Type} (wrapErr : Bytes → Error) (x : Eff Γ.σ Bytes α), (callEnv wrapErr x).Keeps P
  emit : ∀ e, (emit e : M Γ Unit).Keeps P
  setTotalCreditAmount : ∀ total, (setTotalCreditAmount total : M Γ Unit).Keeps P
  addLockup : ∀ d v amount, 0 < amount → (addLockup d v amount : M Γ Unit).Keeps P
  subtractLockup : ∀ d v amount, (subtractLockup d v amount : M Γ Unit).Keeps P
  adjustLockup : ∀ d v slashingRate coverageRate, 0 ≤ slashingRate.raw →
    (adjustLockup d v slashingRate coverageRate : M Γ Unit).Keeps P
  removeInsuranceLockup : ∀ d v, (removeInsuranceLockup d v : M Γ Unit).Keeps P
  moveInsurance : ∀ d src dst, (moveInsurance d src dst : M Γ Unit).Keeps P
  setUnlockingLockup : ∀ d v h amt completionTime unlockTime,
    (setUnlockingLockup d v h amt completionTime unlockTime : M Γ Unit).Keeps P
  removeUnlockingLockup : ∀ d v h, (removeUnlockingLockup d v h : M Γ Unit).Keeps P

theorem newCoin_bind_keeps {β : Type} {amount : Int} {f : Int → M Γ β} {P : State Γ → Prop} (hf : (f amount).Keeps P) :
    (newCoin amount >>= f).Keeps P := by
  unfold newCoin
  split
  · exact hf
  · exact .of_unchanged fun _ => rfl

theorem proratedCredit_keeps {P : State Γ → Prop} (ctx : Ctx) (d : Bytes) (amt : Int) :
    (proratedCredit ctx d amt : M Γ Int).Keeps P :=
  .bind .read fun _ => .bind (.bind (.query _) fun _ => .pure _) fun _ =>
    .bind (.bind (.query _) fun _ => .pure _) fun _ => .pure _

theorem requireEntry_keeps {P : State Γ → Prop} (ctx : Ctx) (h : Int) (entries : List UnbondingEntry) :
    (requireEntry ctx h entries : M Γ _).Keeps P := by
  unfold requireEntry
  split
  · exact .fail _
  · exact .pure _

namespace StepParts

variable {P : State Γ → Prop} (parts : StepParts P)

include parts

/-! ## The messages -/

theorem mintCredit (d : Bytes) (amount : Int) : (mintCredit d amount : M Γ Unit).Keeps P :=
  .bind (.lift _) fun _ => .require_bind fun _ => .bind (parts.callEnv _ _) fun _ => parts.callEnv _ _

theorem lock (ctx : Ctx) (d v : Bytes) (amt : Int) : (lock ctx d v amt : M Γ Unit).Keeps P := by
  refine .require_bind fun hp => .bind (.query _) fun validator => newCoin_bind_keeps ?_
  refine .bind (parts.callEnv _ _) fun _ => .bind (parts.callEnv _ _) fun _ => ?_
  refine .bind (proratedCredit_keeps ctx d amt) fun credit => .bind (parts.mintCredit d credit).mapErr fun _ => ?_
  refine .bind (parts.addLockup d v amt hp).mapErr fun _ => .bind .read fun s => ?_
  exact .bind (parts.setTotalCreditAmount _).mapErr fun _ => parts.emit _

theorem removeInsuranceIfUnlocked (d v : Bytes) : (removeInsuranceIfUnlocked d v : M Γ Unit).Keeps P :=
  .bind .read fun _ => .ite (fun _ => parts.removeInsuranceLockup d v) fun _ => .pure ()

theorem unlock (ctx : Ctx) (d v : Bytes) (amt : Int) : (unlock ctx d v amt : M Γ _).Keeps P := by
  refine .require_bind fun _ => .bind (parts.subtractLockup d v amt).mapErr fun _ => ?_
  refine .bind (parts.removeInsuranceIfUnlocked d v) fun _ => ?_
  refine .bind (.bind (.query _) fun _ => .require_bind fun _ => .pure _) fun shares => ?_
  refine .bind (parts.callEnv _ _) fun (completionTime, returnAmount) => .bind (.query _) fun unlockTime => ?_
  exact .bind (parts.setUnlockingLockup _ _ _ _ _ _) fun _ => .bind (parts.emit _) fun _ => .pure _

theorem subtractUnlockingLockup (d v : Bytes) (h amt : Int) : (subtractUnlockingLockup d v h amt : M Γ Unit).Keeps P := by
  refine .bind .read fun s => ?_
  cases s.getUnlockingLockup d v h with
  | none => exact .fail _
  | some u =>
    refine .ite (fun _ => .fail _) fun _ => .ite (fun _ => ?_) fun _ => parts.setUnlockingLockup _ _ _ _ _ _
    exact parts.removeUnlockingLockup d v h

theorem cancelUnlocking (ctx : Ctx) (d v : Bytes) (h amt : Int) : (cancelUnlocking ctx d v h amt : M Γ Unit).Keeps P := by
  refine .require_bind fun hp => .bind (.query _) fun validator => .bind (.query _) fun entries => ?_
  refine .bind (requireEntry_keeps ctx h entries) fun (i, e) => ?_
  refine .require_bind fun _ => .bind (parts.callEnv _ _) fun _ => .bind (parts.callEnv _ _) fun _ => ?_
  refine .bind (parts.subtractUnlockingLockup d v h amt).mapErr fun _ => ?_
  exact .bind (parts.addLockup d v amt hp).mapErr fun _ => parts.emit _

/-! ## The hooks -/

theorem completeUnlocking (ctx : Ctx) : (completeUnlocking ctx : M Γ Unit).Keeps P := by
  refine .bind .read fun s => (Eff.Keeps.forEach (fun e => ?_) _).mapErr
  refine .bind (.lift _) fun (d, v, h) => (Eff.Keeps.bind .read fun s => .ite (fun _ => .pure ()) fun _ => ?_).mapErr
  refine newCoin_bind_keeps (.bind (parts.callEnv _ _) fun _ => ?_)
  exact .bind (parts.removeUnlockingLockup d v h) fun _ => parts.emit _

theorem hookParts : HookParts (Γ := Γ) P fun _ => True where
  burnCredit _ _ := .bind (parts.callEnv _ _) fun _ => parts.callEnv _ _
  mintCredit := parts.mintCredit
  setTotalCreditAmount := parts.setTotalCreditAmount
  lock ctx d v amt _ := parts.lock ctx d v amt
  emit := parts.emit
  developers _ _ _ _ _ _ _ := trivial

theorem afterEpochEnd (ctx : Ctx) (identifier : Bytes) : (afterEpochEnd ctx identifier : M Γ Unit).Keeps P :=
  .ite (fun _ => .pure ()) fun _ => (parts.completeUnlocking ctx).mapErr

theorem adjustLockups (validatorAddr : Bytes) {slashingRate : Dec} (coverageRate : Dec) (hr : 0 ≤ slashingRate.raw) :
    (adjustLockups validatorAddr slashingRate coverageRate : M Γ Unit).Keeps P := by
  refine .bind .read fun s => .forEach (fun e => ?_) _
  exact .bind (.lift _) fun _ => .ite (fun _ => .pure ()) fun _ => parts.adjustLockup _ _ _ _ hr

end StepParts

def InUnit (rate : Dec) : Prop := 0 ≤ rate.raw ∧ rate.raw ≤ Dec.precision

instance (rate : Dec) : Decidable (InUnit rate) := inferInstanceAs (Decidable (_ ∧ _))

end Parts

/-! ## Redelegation and slashing -/

section Steps

variable {Γ : StakingEnv}

/-- The rate that a handler adjusts the lockups to when it handles an event. -/
def eventRate (s : State Γ.toEnv) (event : BlockEvent) : Outcome Error Dec := do
  let d ← slashedStake (event.attribute (Bytes.str "address")) (event.attribute (Bytes.str "burned")) s
  pure (if event.attribute (Bytes.str "reason") = Bytes.str "double_sign" then d.slashingRate d.tierSlashed
    else d.slashingRate (Dec.ofInt d.tierSlashedTokens))

/-- The lockups are adjusted to rates between zero and one only. -/
def RatesInUnit (s : State Γ.toEnv) : TierStep Γ → Prop
  | .adjustLockups _ slashingRate _ => InUnit slashingRate
  | .slashingEvent event => ∀ rate, eventRate s event = .ok rate → InUnit rate
  | _ => True

namespace StepParts

variable {P : State Γ.toEnv → Prop} (parts : StepParts P)

include parts

theorem redelegate (d src dst : Bytes) (amt : Int) : (redelegate d src dst amt : M Γ.toEnv Time).Keeps P := by
  refine .require_bind fun hp => .bind (parts.subtractLockup d src amt).mapErr fun _ => ?_
  refine .bind (parts.addLockup d dst amt hp).mapErr fun _ => .bind (parts.moveInsurance d src dst) fun _ => ?_
  exact .bind (.query _) fun _ => .bind (parts.callEnv _ _) fun _ => .bind (parts.emit _) fun _ => .pure _

theorem lockAuto (ctx : Ctx) (d : Bytes) (amt : Int) : (lockAuto ctx d amt : M Γ.toEnv Bytes).Keeps P := by
  refine .bind (.bind (.query _) fun chosen => ?_) fun v => .bind (parts.lock ctx d v amt) fun _ => .pure _
  cases chosen with
  | some v => exact .pure v
  | none => exact .query _

theorem handleSlashingEvent {s : State Γ.toEnv} {event : BlockEvent}
    (hra : ∀ rate, eventRate s event = .ok rate → InUnit rate) : Eff.KeepsAt P (handleSlashingEvent event) s := by
  unfold Tier.handleSlashingEvent
  split
  · refine Eff.KeepsAt.bind (Eff.KeepsAt.attempt ?_) fun _ t _ => Eff.Keeps.pure () t
    split
    · rename_i hr
      refine Eff.KeepsAt.query_bind fun d hd => ?_
      have hu := hra (d.slashingRate d.tierSlashed) (bind_eq_ok.2 ⟨d, hd, by rw [if_pos hr]; rfl⟩)
      exact Eff.KeepsAt.require_bind fun _ => parts.adjustLockups _ _ hu.1 s
    · rename_i hr
      refine Eff.KeepsAt.query_bind fun d hd => ?_
      have hu := hra (d.slashingRate (Dec.ofInt d.tierSlashedTokens)) (bind_eq_ok.2 ⟨d, hd, by rw [if_neg hr]; rfl⟩)
      refine Eff.KeepsAt.require_bind fun _ => Eff.Keeps.bind .read (fun s => ?_) s
      exact .bind (parts.callEnv _ _) fun _ => parts.adjustLockups _ _ hu.1
  · exact Eff.Keeps.pure () s

/-- Every step on lockups keeps the property, if the state of the other modules does not matter for it. -/
theorem tierStep (hot : ∀ (s : State Γ.toEnv) env, P s → P { s with env := env }) (s : State Γ.toEnv) (m : TierStep Γ)
    (hs : P s) (hr : RatesInUnit s m) : P (tierStep s m) := by
  cases m with
  | lock ctx d v amt => exact (parts.lock ctx d v amt).commit hs
  | lockAuto ctx d amt => exact (parts.lockAuto ctx d amt).commit hs
  | unlock ctx d v amt => exact (parts.unlock ctx d v amt).commit hs
  | redelegate d src dst amt => exact (parts.redelegate d src dst amt).commit hs
  | cancelUnlocking ctx d v h amt => exact (parts.cancelUnlocking ctx d v h amt).commit hs
  | beforeEpochStart ctx identifier => exact (parts.hookParts.beforeEpochStart ctx identifier).commit hs
  | afterEpochEnd ctx identifier => exact (parts.afterEpochEnd ctx identifier).commit hs
  | adjustLockups v rate coverage => exact (parts.adjustLockups v coverage hr.1).attempt.commit hs
  | slashingEvent event => exact (parts.handleSlashingEvent hr).commit hs
  | others env => exact hot s env hs

end StepParts

end Steps

/-! ## Developers and subscriptions -/

section Developers

variable {Γ : Env}

/-- The calls of which the messages on developers and subscriptions are made keep a property, too. A record is new, or it takes
the place of one that was found under the same key. -/
structure DeveloperParts (P : State Γ → Prop) : Prop extends StepParts P where
  newDeveloper : ∀ d autoLockEnabled, (setDeveloper d ⟨Γ.accAddressString d, autoLockEnabled⟩ : M Γ Unit).Keeps P
  changedDeveloper : ∀ s d developer autoLockEnabled, s.getDeveloper d = some developer →
    Eff.KeepsAt P (setDeveloper d { developer with autoLockEnabled := autoLockEnabled }) s
  deleteDeveloper : ∀ d, (deleteDeveloper d : M Γ Unit).Keeps P
  newSubscription : ∀ d u amount start period renewed,
    (setUserSubscription d u ⟨Γ.accAddressString d, u, amount, start, period, renewed⟩ : M Γ Unit).Keeps P
  changedSubscription : ∀ s d u sub amount period renewed, P s → s.getUserSubscription d u = some sub →
    (setUserSubscription d u { sub with creditAmount := amount, period := period, lastRenewed := renewed } : M Γ Unit).Keeps P
  deleteUserSubscription : ∀ d u, (deleteUserSubscription d u : M Γ Unit).Keeps P
  setTotalDevGranted : ∀ d total, (setTotalDevGranted d total : M Γ Unit).Keeps P

namespace DeveloperParts

variable {P : State Γ → Prop} (parts : DeveloperParts P)

include parts

theorem updateDeveloperTotalGranted (d : Bytes) (delta : Int) (add : Bool) :
    (updateDeveloperTotalGranted d delta add : M Γ Unit).Keeps P := by
  refine .bind .read fun s => .require_bind fun _ => .bind (parts.setTotalDevGranted _ _) fun _ => ?_
  exact .ite (fun _ => .pure ()) fun _ => .crash _

theorem grantPeriodicDIDAllowance (ctx : Ctx) (d u : Bytes) (spendLimit period : Int) :
    (grantPeriodicDIDAllowance ctx d u spendLimit period : M Γ Unit).Keeps P := by
  refine .bind (parts.callEnv _ _).attempt fun updated => ?_
  cases updated with
  | ok _ => exact .pure ()
  | error _ => exact parts.callEnv _ _

theorem coverSubscription (ctx : Ctx) (developer : Developer) (d : Bytes) (amount : Int) :
    (coverSubscription ctx developer d amount : M Γ Unit).Keeps P := by
  refine .bind .read fun s => ?_
  cases s.validateDeveloperCredits d amount with
  | ok _ => exact .pure ()
  | error e =>
    refine .require_bind fun _ => .bind (.query _) fun lockAmt => (Eff.Keeps.bind .read fun s => ?_).mapErr
    refine .ite (fun _ => .pure ()) fun _ => .bind (.query _) fun v => ?_
    exact (parts.lock ctx d v _).mapErr

theorem createDeveloper (d : Bytes) (autoLockEnabled : Bool) : (createDeveloper d autoLockEnabled : M Γ Unit).Keeps P :=
  .bind .read fun _ => .require_bind fun _ => .bind (parts.newDeveloper d autoLockEnabled) fun _ => parts.emit _

theorem updateDeveloper (d : Bytes) (autoLockEnabled : Bool) : (updateDeveloper d autoLockEnabled : M Γ Unit).Keeps P := by
  refine fun s => Eff.KeepsAt.query_bind fun developer hf => ?_
  exact Eff.KeepsAt.bind (parts.changedDeveloper s d developer autoLockEnabled (ofOption_eq_ok.1 hf))
    fun _ t _ => parts.emit _ t

theorem addUserSubscription (ctx : Ctx) (d u : Bytes) (amount period : UInt64) :
    (addUserSubscription ctx d u amount period : M Γ Unit).Keeps P := by
  refine .bind (.query _) fun acting => .bind .read fun s => .require_bind fun _ => .bind (.query _) fun developer => ?_
  refine .bind (parts.coverSubscription ctx developer acting _) fun _ => ?_
  refine .bind (parts.newSubscription acting u amount _ period _) fun _ => .bind (.query _) fun grantPeriod => ?_
  refine .bind (parts.grantPeriodicDIDAllowance ctx acting u _ grantPeriod).mapErr fun _ => ?_
  exact .bind (parts.updateDeveloperTotalGranted acting _ true).mapErr fun _ => parts.emit _

theorem adjustTotalGranted (d : Bytes) (oldAmount amount : UInt64) :
    (adjustTotalGranted d oldAmount amount : M Γ Unit).Keeps P := by
  refine .ite (fun _ => parts.updateDeveloperTotalGranted _ _ _) fun _ => ?_
  exact .ite (fun _ => parts.updateDeveloperTotalGranted _ _ _) fun _ => .pure ()

theorem updateUserSubscription (ctx : Ctx) (d u : Bytes) (amount period : UInt64) :
    (updateUserSubscription ctx d u amount period : M Γ Unit).Keeps P := by
  refine .bind (.query _) fun acting s hs => ?_
  -- the subscription that is changed was found in a state with the property
  refine Eff.KeepsAt.query_bind (fun sub hf => ?_) hs
  have hse := parts.changedSubscription s acting u sub amount period ctx.blockTime hs (ofOption_eq_ok.1 hf)
  refine Eff.Keeps.bind (parts.adjustTotalGranted acting _ amount) (fun _ => .bind hse fun _ => ?_) s
  refine .bind (.query _) fun updatePeriod => ?_
  exact .bind (parts.grantPeriodicDIDAllowance ctx acting u _ updatePeriod).mapErr fun _ => parts.emit _

end DeveloperParts

end Developers

section Removal

variable {Γ : GrantEnv} {P : State Γ.toEnv → Prop} (parts : DeveloperParts P)

namespace DeveloperParts

include parts

theorem removeUserSubscription (ctx : Ctx) (d u : Bytes) : (removeUserSubscription ctx d u : M Γ.toEnv Unit).Keeps P := by
  refine .bind (.query _) fun acting => .bind (.query _) fun sub => ?_
  refine .bind (parts.updateDeveloperTotalGranted acting _ false) fun _ => ?_
  refine .bind (parts.deleteUserSubscription acting u) fun _ => ?_
  exact .bind (parts.callEnv _ _).attempt fun _ => parts.emit _

theorem removeDeveloper (ctx : Ctx) (d : Bytes) : (removeDeveloper ctx d : M Γ.toEnv Unit).Keeps P := by
  refine .bind (.query _) fun _ => .bind (.query _) fun subs => ?_
  refine .bind (.forEach (fun sub => .bind (parts.removeUserSubscription ctx _ _).attempt fun _ => .pure ()) subs) fun _ => ?_
  exact .bind (parts.deleteDeveloper d) fun _ => parts.emit _

end DeveloperParts

end Removal

/-! ## All steps of the module -/

/-- The modules that `x/tier` calls, for all of its messages and hooks. -/
structure ModuleEnv extends StakingEnv, GrantEnv

/-- What can happen to the module's store: the steps on lockups, the messages on developers and subscriptions, and new
parameters from the module's authority. -/
inductive ModuleStep (Γ : ModuleEnv) where
  | lockups (step : TierStep Γ.toStakingEnv)
  | createDeveloper (developerAddr : Bytes) (autoLockEnabled : Bool)
  | updateDeveloper (developerAddr : Bytes) (autoLockEnabled : Bool)
  | removeDeveloper (ctx : Ctx) (developerAddr : Bytes)
  | addUserSubscription (ctx : Ctx) (developerAddr userDid : Bytes) (amount period : UInt64)
  | updateUserSubscription (ctx : Ctx) (developerAddr userDid : Bytes) (amount period : UInt64)
  | removeUserSubscription (ctx : Ctx) (developerAddr userDid : Bytes)
  | updateParams (params : Params) (pools : PoolParams)

section Module

variable {Γ : ModuleEnv}

/-- Parameters that pass their checks are stored. -/
def updateParams {Γ : Env} (params : Params) (pools : PoolParams) : M Γ Unit := do
  Eff.lift (Outcome.ofExcept (fun e => ⟨.plain, e⟩) (params.validate pools))
  Eff.modify fun s => { s with params := params }

/-- A step; a message that fails changes nothing. -/
def moduleStep (s : State Γ.toEnv) : ModuleStep Γ → State Γ.toEnv
  | .lockups step => tierStep (Γ := Γ.toStakingEnv) s step
  | .createDeveloper developerAddr autoLockEnabled => (createDeveloper developerAddr autoLockEnabled).commit s
  | .updateDeveloper developerAddr autoLockEnabled => (updateDeveloper developerAddr autoLockEnabled).commit s
  | .removeDeveloper ctx developerAddr => (removeDeveloper (Γ := Γ.toGrantEnv) ctx developerAddr).commit s
  | .addUserSubscription ctx developerAddr userDid amount period =>
    (addUserSubscription ctx developerAddr userDid amount period).commit s
  | .updateUserSubscription ctx developerAddr userDid amount period =>
    (updateUserSubscription ctx developerAddr userDid amount period).commit s
  | .removeUserSubscription ctx developerAddr userDid =>
    (removeUserSubscription (Γ := Γ.toGrantEnv) ctx developerAddr userDid).commit s
  | .updateParams params pools => (updateParams params pools).commit s

/-- The lockups are adjusted to rates between zero and one only. -/
def ModuleRatesInUnit (s : State Γ.toEnv) : ModuleStep Γ → Prop
  | .lockups step => RatesInUnit (Γ := Γ.toStakingEnv) s step
  | _ => True

/-- Every step keeps the property, if neither the state of the other modules nor the parameters matter for it. -/
theorem DeveloperParts.moduleStep {P : State Γ.toEnv → Prop} (parts : DeveloperParts P)
    (hot : ∀ (s : State Γ.toEnv) env, P s → P { s with env := env })
    (hp : ∀ (s : State Γ.toEnv) params, P s → P { s with params := params }) (s : State Γ.toEnv) (m : ModuleStep Γ)
    (hs : P s) (hr : ModuleRatesInUnit s m) : P (moduleStep s m) := by
  cases m with
  | lockups step => exact parts.toStepParts.tierStep (Γ := Γ.toStakingEnv) hot s step hs hr
  | createDeveloper d autoLockEnabled => exact (parts.createDeveloper d autoLockEnabled).commit hs
  | updateDeveloper d autoLockEnabled => exact (parts.updateDeveloper d autoLockEnabled).commit hs
  | removeDeveloper ctx d => exact (parts.removeDeveloper (Γ := Γ.toGrantEnv) ctx d).commit hs
  | addUserSubscription ctx d u amount period => exact (parts.addUserSubscription ctx d u amount period).commit hs
  | updateUserSubscription ctx d u amount period => exact (parts.updateUserSubscription ctx d u amount period).commit hs
  | removeUserSubscription ctx d u => exact (parts.removeUserSubscription (Γ := Γ.toGrantEnv) ctx d u).commit hs
  | updateParams params pools =>
    exact (Eff.Keeps.bind (.lift _) fun _ => .modify fun s hs => hp s params hs).commit hs

end Module

end Vera.Tier
