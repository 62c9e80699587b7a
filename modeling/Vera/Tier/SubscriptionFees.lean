import Vera.Feegrant.Budget
import Vera.Feegrant.Pruning
import Vera.Tier.LocalChain
import Vera.Tier.Subscription

/-!
# What a subscription pays

A subscription is a fee grant of the developer to the DID of the user. Here the fee grants that `x/tier` calls are those of the
model of `x/feegrant`, so that the payments of the user can be followed from the subscription on. The allowance that is granted
has the amount of a period as its limit in total too, so it pays that amount once.
-/

namespace Vera.Tier

open Eff
open Bytes (str)
open Feegrant (KeyPart CreditCoins Payment Left Budget OnlyGrant didGrantOf payFrom payFirst)

variable {Γ : Env} {Φ : Feegrant.Env}

/-! ## The two modules together -/

def subscriptionAllowance (C : CreditCoins Φ) (spendLimit period : Int) (periodReset : Time) : Feegrant.Allowance Φ :=
  .periodic ⟨⟨C.credits spendLimit.toNat, none⟩, period, C.credits spendLimit.toNat, C.credits spendLimit.toNat, periodReset⟩

/-- A call of `x/feegrant` for a granter and a DID, beside the state of the other modules. A part of a key that is too long
makes it panic, and no message has an empty one. -/
def callFees {σ : Type} (granter granteeDID : Bytes) (call : KeyPart → KeyPart → Feegrant.M Φ Unit) :
    Eff (σ × Feegrant.State Φ) Bytes Unit :=
  match KeyPart.ofBytes granter, KeyPart.ofBytes granteeDID with
  | some granter, some granteeDID => ((call granter granteeDID).mapErr (·.msg)).onSnd
  | _, _ => Eff.crash "address length should be max 255 bytes"

/-- The modules that `x/tier` calls, with `x/feegrant` as it is modelled. An allowance of a subscription does not expire, so
the time of the block is not looked at when it is granted. -/
def Env.withFeegrants (Γ : Env) (C : CreditCoins Φ) : Env where
  σ := Γ.σ × Feegrant.State Φ
  Validator := Γ.Validator
  Shares := Γ.Shares
  moduleAddress := Γ.moduleAddress
  accAddressFromBech32 := Γ.accAddressFromBech32
  valAddressFromBech32 := Γ.valAddressFromBech32
  accAddressString := Γ.accAddressString
  valAddressString := Γ.valAddressString
  validDenom := Γ.validDenom
  getAddressFromDID := Γ.getAddressFromDID
  getBalance s := Γ.getBalance s.1
  delegateCoinsFromAccountToModule a amount := (Γ.delegateCoinsFromAccountToModule a amount).onFst
  undelegateCoinsFromModuleToAccount a amount := (Γ.undelegateCoinsFromModuleToAccount a amount).onFst
  mintCoins amount := (Γ.mintCoins amount).onFst
  burnCoins amount := (Γ.burnCoins amount).onFst
  sendCoinsFromModuleToAccount a amount := (Γ.sendCoinsFromModuleToAccount a amount).onFst
  sendCoinsFromAccountToModule a amount := (Γ.sendCoinsFromAccountToModule a amount).onFst
  getValidator s := Γ.getValidator s.1
  getAllValidators s := Γ.getAllValidators s.1
  delegate amount source validator subtractAccount := (Γ.delegate amount source validator subtractAccount).onFst
  getDelegation s := Γ.getDelegation s.1
  validateUnbondAmount s := Γ.validateUnbondAmount s.1
  isPositive := Γ.isPositive
  undelegate v shares := (Γ.undelegate v shares).onFst
  getUnbondingDelegation s := Γ.getUnbondingDelegation s.1
  setUnbondingDelegation v entries := (Γ.setUnbondingDelegation v entries).onFst
  removeUnbondingDelegation v := (Γ.removeUnbondingDelegation v).onFst
  getEpochInfo s := Γ.getEpochInfo s.1
  updateDIDAllowance granter granteeDID spendLimit period periodReset :=
    callFees granter granteeDID fun granter granteeDID =>
      Feegrant.updateDIDAllowance granter granteeDID (subscriptionAllowance C spendLimit period periodReset)
  grantDIDAllowance granter granteeDID spendLimit period periodReset :=
    callFees granter granteeDID fun granter granteeDID =>
      Feegrant.grantDIDAllowance ⟨⟨0, 0⟩, rfl⟩ granter granteeDID (subscriptionAllowance C spendLimit period periodReset)
  rangeOrder := Γ.rangeOrder

def State.fees {C : CreditCoins Φ} (s : State (Γ.withFeegrants C)) : Feegrant.State Φ := s.env.2

theorem callFees_ok {σ : Type} {granter granteeDID : Bytes} {call : KeyPart → KeyPart → Feegrant.M Φ Unit}
    {s t : σ × Feegrant.State Φ} {u : Unit} (h : (callFees granter granteeDID call).Succeeds s u t) :
    ∃ g d : KeyPart, g.bytes = granter ∧ d.bytes = granteeDID ∧ (call g d).Succeeds s.2 u t.2 := by
  unfold callFees at h
  split at h
  · rename_i g d hg hd
    exact ⟨g, d, KeyPart.ofBytes_eq_some hg, KeyPart.ofBytes_eq_some hd, mapErr_ok.1 (onSnd_ok.1 h).2⟩
  · exact absurd h crash_ok

/-- The allowance of a subscription from a block on. -/
def Ctx.allowance (ctx : Ctx) (C : CreditCoins Φ) (amount : UInt64) (p : Int) : Feegrant.Allowance Φ :=
  subscriptionAllowance C amount.toNat p (ctx.blockTime.add p)

section Granted

variable {C : CreditCoins Φ} {ctx : Ctx} {developerAddr userDid : Bytes} {amount period : UInt64}
  {s t : State (Γ.withFeegrants C)} {u : Unit}

theorem grantPeriodicDIDAllowance_granted {acting : Bytes} {p : Int}
    (h : (grantPeriodicDIDAllowance ctx acting userDid amount.toNat p).Succeeds s u t) :
    ∃ (env : (Γ.withFeegrants C).σ) (g d : KeyPart), t = { s with env := env } ∧ g.bytes = acting ∧ d.bytes = userDid ∧
      (ctx.allowance C amount p).marshalable = true ∧
      t.fees.didGrant g d = some (didGrantOf g d (ctx.allowance C amount p)) := by
  obtain ⟨env, env', rfl, hcall⟩ := grantPeriodicDIDAllowance_ok h
  rcases hcall with hcall | hcall
  · obtain ⟨g, d, hg, hd, hu⟩ := callFees_ok hcall
    exact ⟨env', g, d, rfl, hg, hd, Feegrant.updateDIDAllowance_ok hu⟩
  · obtain ⟨g, d, hg, hd, hgr⟩ := callFees_ok hcall
    exact ⟨env', g, d, rfl, hg, hd, Feegrant.grantDIDAllowance_ok hgr⟩

/-- A subscription leaves the developer's grant to the user. -/
theorem addUserSubscription_granted (h : (addUserSubscription ctx developerAddr userDid amount period).Succeeds s u t) :
    ∃ (granter did : KeyPart) (p : Int), actingDeveloper (Γ.withFeegrants C) ctx developerAddr = .ok granter.bytes ∧
      did.bytes = userDid ∧ (grantPeriod period t).1 = .ok p ∧ (ctx.allowance C amount p).marshalable = true ∧
      t.fees.didGrant granter did = some (didGrantOf granter did (ctx.allowance C amount p)) := by
  obtain ⟨_, _, p, _, _, _, _, ha, -, -, rfl, hp, hg, ht, rfl⟩ := addUserSubscription_inv h
  obtain ⟨env, granter, did, rfl, rfl, rfl, hm, hstored⟩ := grantPeriodicDIDAllowance_granted hg
  obtain ⟨_, rfl⟩ := updateDeveloperTotalGranted_ok ht
  exact ⟨granter, did, p, ha, rfl, by simpa only [grantPeriod, Eff.query] using hp, hm, hstored⟩

/-- With the amount of the subscription left of it. -/
theorem addUserSubscription_left
    (h : (addUserSubscription ctx developerAddr userDid amount period).Succeeds s u t) (ham : amount ≠ 0) :
    ∃ (granter did : KeyPart) (p : Int), actingDeveloper (Γ.withFeegrants C) ctx developerAddr = .ok granter.bytes ∧
      did.bytes = userDid ∧ (grantPeriod period t).1 = .ok p ∧ Left C amount.toNat p granter did t.fees amount.toNat := by
  obtain ⟨granter, did, p, ha, hd, hp, hm, hstored⟩ := addUserSubscription_granted h
  have hpo : 0 < amount.toNat := by
    refine Nat.pos_of_ne_zero fun hz => ham (UInt64.toNat_inj.1 ?_)
    rw [hz, UInt64.toNat_zero]
  exact ⟨granter, did, p, ha, hd, hp,
    Feegrant.left_of_grant hstored ⟨rfl, rfl, rfl, rfl, (Bool.and_eq_true_iff.1 hm).2⟩ hpo (Nat.le_refl _)⟩

end Granted

/-! ## Payments -/

/-- The payments of a user are all accepted exactly when they sum to at most the amount of the subscription, however many
periods they are spread over: from the developer's own grant, and, if the user has no other, from the first grant that can be
used. -/
theorem subscription_pays_iff {C : CreditCoins Φ} {ctx : Ctx} {developerAddr userDid : Bytes} {amount period : UInt64}
    {s t : State (Γ.withFeegrants C)} {u : Unit}
    (h : (addUserSubscription ctx developerAddr userDid amount period).Succeeds s u t) (hamount : amount ≠ 0) :
    ∃ (granter did : KeyPart) (p : Int), actingDeveloper (Γ.withFeegrants C) ctx developerAddr = .ok granter.bytes ∧
      did.bytes = userDid ∧ (grantPeriod period t).1 = .ok p ∧
      ∀ payments : List Payment, (∀ q ∈ payments, q.Regular p) →
        (Run.AllSteps (fun s q => (payFrom C granter did q).commit s) (fun s q => (payFrom C granter did q s).1.isOk = true)
          t.fees payments ↔ (payments.map (·.amount)).sum ≤ amount.toNat) ∧
        (Φ.stringToBytes (Φ.accAddressString granter.bytes) = .ok granter → OnlyGrant granter did t.fees →
          (Run.AllSteps (fun s q => (payFirst C did q).commit s) (fun s q => (payFirst C did q s).1.isOk = true)
            t.fees payments ↔ (payments.map (·.amount)).sum ≤ amount.toNat)) := by
  obtain ⟨granter, did, p, ha, hd, hp, hl⟩ := addUserSubscription_left h hamount
  refine ⟨granter, did, p, ha, hd, hp, fun payments hpa => ⟨?_, fun had hon => ?_⟩⟩
  · exact Feegrant.payFrom_all_iff hl hpa
  · exact Feegrant.payFirst_all_iff had hon hl hpa

/-! ## A subscription on a local chain -/

def localCredits : CreditCoins Feegrant.localFees where
  credits n := (n : Int)
  safeSub_neg m n := by
    show decide ((m : Int) < n) = decide (m < n)
    simp
  safeSub m n h := by
    show (m : Int) - n = ((m - n : Nat) : Int)
    omega
  isZero n := by
    show decide ((n : Int) = 0) = decide (n = 0)
    simp
  empty n := by
    show decide ((n : Int) = 0) = decide (n = 0)
    simp

/-- A developer with 1000 credits, and no grants. -/
def subscribing : State (localChain.withFeegrants localCredits) where
  env := ({ oneDelegator with ucredit := Function.update (fun _ => 0) alice 1000 }, Feegrant.State.init ([] : List Bytes))
  lockups := KVStore.empty
  unlockings := KVStore.empty
  insurance := KVStore.empty
  developers := KVStore.empty.set (developerKey alice) ⟨alice, false⟩
  subscriptions := KVStore.empty
  totalDevGranted := KVStore.empty
  totalLockups := none
  totalCredits := none
  params := defaultParams
  events := []
  writes := []

/-- A subscription of 100 credits in every minute. -/
def subscribe : M (localChain.withFeegrants localCredits) Unit :=
  addUserSubscription (midEpoch 5) alice (str "did:user") 100 60

def userPart : KeyPart := ⟨str "did:user", by decide, by decide⟩

instance neZero_thousand : NeZero 1000 := ⟨by decide⟩

/-- A payment some seconds after the start of the epoch. -/
def payAt (seconds : Fin 1000) (amount : Nat) : Payment :=
  ⟨⟨⟨63835596800 + (seconds : Nat), 0⟩, by
    refine Time.inYears_iff.2 ⟨?_, ?_, Nat.succ_pos 999999999⟩ <;> dsimp only <;> omega⟩, amount, []⟩

/-- The number of the period of a payment, counted from the subscription. -/
def periodOf (start : Time) (period : Int) (q : Payment) : Int := q.ctx.blockTime.sub start / period

/-- The payments that fall in one period sum to at most the limit. -/
def WithinPeriods (start : Time) (period : Int) (limit : Nat) (payments : List Payment) : Prop :=
  ∀ q ∈ payments, ((payments.filter fun q' => periodOf start period q' = periodOf start period q).map (·.amount)).sum ≤ limit

/-- Two payments in different periods, each of all that the period allows. -/
def twoPeriods : List Payment := [payAt 160 100, payAt 220 100]

/-- Two payments in different periods that the amount of one suffices for. -/
def twoSmallPayments : List Payment := [payAt 160 40, payAt 220 60]

/-- Both payments are accepted. -/
theorem subscription_pays_iff_twoSmallPayments :
    ∃ (granter did : KeyPart) (p : Int), did.bytes = str "did:user" ∧ (∀ q ∈ twoSmallPayments, q.Regular p) ∧
      Run.AllSteps (fun s q => (payFrom localCredits granter did q).commit s)
        (fun s q => (payFrom localCredits granter did q s).1.isOk = true) (subscribe subscribing).2.fees twoSmallPayments := by
  have hok : subscribe.Succeeds subscribing () (subscribe subscribing).2 := ok_unit_of_isOk (by decide +kernel)
  obtain ⟨granter, did, p, -, hd, hp, hpa⟩ := subscription_pays_iff hok (by decide)
  have hp' : (grantPeriod 60 (subscribe subscribing).2).1 = .ok 60000000000 := by decide +kernel
  obtain rfl : p = 60000000000 := Outcome.ok.inj (hp.symm.trans hp')
  have hr : ∀ q ∈ twoSmallPayments, q.Regular 60000000000 := by
    unfold Feegrant.Payment.Regular
    decide +kernel
  exact ⟨granter, did, _, hd, hr, (hpa _ hr).1.2 (by decide)⟩

/-- Of two payments in different periods, each within the limit, the second is refused. -/
theorem subscription_pays_false : ∃ t, subscribe.Succeeds subscribing () t ∧ (grantPeriod 60 t).1 = .ok 60000000000 ∧
      WithinPeriods (midEpoch 5).blockTime 60000000000 100 twoPeriods ∧
      twoPeriods.Pairwise (fun q q' => q'.ctx.blockTime.before q.ctx.blockTime = false) ∧
      ¬Run.AllSteps (fun s q => (payFirst localCredits userPart q).commit s)
        (fun s q => (payFirst localCredits userPart q s).1.isOk = true) t.fees twoPeriods := by
  refine ⟨(subscribe subscribing).2, ok_unit_of_isOk (by decide +kernel), by decide +kernel, ?_, by decide +kernel,
    by decide +kernel⟩
  unfold WithinPeriods
  decide +kernel

end Vera.Tier
