import Vera.Tier.GrantedTotals
import Vera.Tier.Params
import Vera.Tier.SubscriptionFees

/-!
# Credits that are promised

A developer is to have the credits for all subscriptions. `AddUserSubscription` checks the credits that are not granted yet, and
if they do not suffice and the developer wants it, it locks stake for more (`addLockupForRegistration` in
`x/tier/keeper/subscription.go`). How much is locked is the stake for the whole amount at one rate less the credits at hand, and
what it earns at once is in proportion to the time of the epoch that has passed. `UpdateUserSubscription` checks nothing.
-/

namespace Vera.Tier

open Eff
open Bytes (str)
open Feegrant (CreditCoins)

/-! ## What the bank does -/

/-- What the bank and the staking module do to the credits of an account and to the epoch. -/
structure CreditBank (Γ : Env) : Prop where
  /-- Credits that were minted and sent are on the account. -/
  give : ∀ env env' a amount, 0 < amount →
    (Γ.mintCoins amount >>= fun _ => Γ.sendCoinsFromModuleToAccount a amount).Succeeds env () env' →
      Γ.getBalance env' a .ucredit = Γ.getBalance env a .ucredit + amount
  /-- Stake that is transferred or delegated is no credit, and no matter of the epoch. -/
  transfer : ∀ env env' a amount, (Γ.delegateCoinsFromAccountToModule a amount).Succeeds env () env' →
    Γ.getBalance env' a .ucredit = Γ.getBalance env a .ucredit ∧ Γ.getEpochInfo env' = Γ.getEpochInfo env
  delegate : ∀ env env' a amount validator shares, a ≠ Γ.moduleAddress →
    (Γ.delegate amount .unbonded validator true).Succeeds env shares env' →
      Γ.getBalance env' a .ucredit = Γ.getBalance env a .ucredit ∧ Γ.getEpochInfo env' = Γ.getEpochInfo env

/-- The same, with fee grants that leave the credits alone. -/
structure PromiseLaws (Γ : Env) : Prop extends CreditBank Γ where
  updateGrant : ∀ granter did limit period reset env a,
    Γ.getBalance (Γ.updateDIDAllowance granter did limit period reset env).2 a .ucredit = Γ.getBalance env a .ucredit
  newGrant : ∀ granter did limit period reset env a,
    Γ.getBalance (Γ.grantDIDAllowance granter did limit period reset env).2 a .ucredit = Γ.getBalance env a .ucredit

variable {Φ : Feegrant.Env}

theorem callFees_fst {σ : Type} (granter did : Bytes)
    (call : Feegrant.KeyPart → Feegrant.KeyPart → Feegrant.M Φ Unit) (s : σ × Feegrant.State Φ) :
    (callFees granter did call s).2.1 = s.1 := by
  unfold callFees
  cases Feegrant.KeyPart.ofBytes granter with
  | none => rfl
  | some g =>
    cases Feegrant.KeyPart.ofBytes did with
    | none => rfl
    | some d => rfl

theorem CreditBank.withFeegrants {Γ : Env} (laws : CreditBank Γ) (C : CreditCoins Φ) : PromiseLaws (Γ.withFeegrants C) where
  give := by
    intro env env' a amount hp h
    obtain ⟨_, env₁, hm, hs⟩ := bind_ok.1 h
    refine laws.give env.1 env'.1 a amount hp (bind_ok.2 ⟨(), env₁.1, ?_, ?_⟩)
    · exact (onFst_ok.1 hm).1
    · exact (onFst_ok.1 hs).1
  transfer := by
    intro env env' a amount h
    exact laws.transfer env.1 env'.1 a amount (onFst_ok.1 h).1
  delegate := by
    intro env env' a amount validator shares hne h
    exact laws.delegate env.1 env'.1 a amount validator shares hne (onFst_ok.1 h).1
  updateGrant := by
    intro granter did limit period reset env a
    exact congrArg (Γ.getBalance · a .ucredit) (callFees_fst granter did _ env)
  newGrant := by
    intro granter did limit period reset env a
    exact congrArg (Γ.getBalance · a .ucredit) (callFees_fst granter did _ env)

/-! ## Promises -/

/-- A promise of credits to a user: a new subscription, or another amount for one. -/
inductive Promise where
  | add (developerAddr userDid : Bytes) (amount period : UInt64)
  | update (developerAddr userDid : Bytes) (amount period : UInt64)
  deriving Repr, DecidableEq

def Promise.developerAddr : Promise → Bytes
  | .add d .. | .update d .. => d

section Promises

variable {Γ : Env}

def Promise.call (ctx : Ctx) : Promise → M Γ Unit
  | .add d u amount period => addUserSubscription ctx d u amount period
  | .update d u amount period => updateUserSubscription ctx d u amount period

/-- The credits that the automatic lock for a subscription mints: none if the credits at hand suffice, or if they are no less
than the stake for the whole amount. -/
def State.mintedFor (s : State Γ) (ctx : Ctx) (developerAddr : Bytes) (amount : Int) : Int :=
  if amount ≤ s.availableCredits developerAddr then 0
  else
    match stakeForCredits s.params.rewardRates amount with
    | .ok lockAmt =>
      if lockAmt - s.availableCredits developerAddr ≤ 0 then 0
      else
        match (proratedCredit ctx developerAddr (lockAmt - s.availableCredits developerAddr) s).1 with
        | .ok credit => credit
        | _ => 0
    | _ => 0

/-- The credits of a developer that are not granted suffice for a promise, together with those that are minted for it. -/
def State.Covers (s : State Γ) (ctx : Ctx) (developerAddr : Bytes) : Promise → Prop
  | .add _ _ amount _ => (amount.toNat : Int) ≤ s.availableCredits developerAddr + s.mintedFor ctx developerAddr amount.toNat
  | .update _ u amount _ =>
    (amount.toNat : Int) - amountOf (s.getUserSubscription developerAddr u) ≤ s.availableCredits developerAddr

/-! ### The credits after a call -/

variable {ctx : Ctx} {d acting : Bytes} {amt amount : Int} {s t : State Γ} {u r : Unit} {period : UInt64}

theorem proratedCredit_ok_iff {credit : Int} : (proratedCredit ctx d amt).Succeeds s credit t ↔
      (∃ locked insured, readLockups s.lockups.entries = .ok locked ∧ readLockups s.insurance.entries = .ok insured ∧
        credit = calculateProratedCredit s.params.rewardRates (amountByAddr d locked + amountByAddr d insured) amt
          (Γ.getEpochInfo s.env).currentEpochStartTime ctx.blockTime (Γ.getEpochInfo s.env).duration) ∧ t = s := by
  unfold proratedCredit totalLockedAmountByAddr totalInsuredAmountByAddr iterateLockups iterateInsuranceLockups
  simp only [read_bind_ok]
  constructor
  · intro h
    obtain ⟨_, s₁, hl, h⟩ := bind_ok.1 h
    obtain ⟨_, s₂, hin, h⟩ := bind_ok.1 h
    simp only [query_bind_ok, pure_ok] at hl hin h
    obtain ⟨locked, hl, rfl, rfl⟩ := hl
    obtain ⟨insured, hin, rfl, rfl⟩ := hin
    exact ⟨⟨locked, insured, hl, hin, h.1⟩, h.2⟩
  · rintro ⟨⟨locked, insured, hl, hin, rfl⟩, rfl⟩
    refine bind_ok.2 ⟨amountByAddr d locked, t, ?_, bind_ok.2 ⟨amountByAddr d insured, t, ?_, ?_⟩⟩
    · exact query_bind_ok.2 ⟨locked, hl, pure_ok.2 ⟨rfl, rfl⟩⟩
    · exact query_bind_ok.2 ⟨insured, hin, pure_ok.2 ⟨rfl, rfl⟩⟩
    · exact pure_ok.2 ⟨rfl, rfl⟩

theorem mintCredit_gives {a : Bytes} (h : (mintCredit a amount).Succeeds s u t) : 0 < amount ∧ ∃ env,
      (Γ.mintCoins amount >>= fun _ => Γ.sendCoinsFromModuleToAccount a amount).Succeeds s.env () env ∧
        t = { s with env := env } := by
  unfold mintCredit at h
  simp only [lift_bind_ok, require_bind_ok, callEnv_bind_ok] at h
  obtain ⟨_, -, hp, _, env₁, hm, hs⟩ := h
  obtain ⟨env, hse, rfl⟩ := callEnv_ok.1 hs
  exact ⟨hp, env, bind_ok.2 ⟨_, env₁, hm, hse⟩, rfl⟩

theorem lock_credits (laws : CreditBank Γ) {v : Bytes} (hd : d ≠ Γ.moduleAddress) (h : (lock ctx d v amt).Succeeds s u t) :
    ∃ credit, (proratedCredit ctx d amt s).1 = .ok credit ∧
      Γ.getBalance t.env d .ucredit = Γ.getBalance s.env d .ucredit + credit := by
  unfold lock requireValidator at h
  simp only [require_bind_ok, query_bind_ok, newCoin_bind_ok, callEnv_bind_ok] at h
  obtain ⟨-, validator, -, -, _, env₁, ht, shares, env₂, hde, h⟩ := h
  obtain ⟨credit, s₁, hcr, h⟩ := bind_ok.1 h
  obtain ⟨_, s₂, hm, h⟩ := bind_ok.1 h
  obtain ⟨_, s₃, ha, h⟩ := bind_ok.1 h
  rw [read_bind_ok] at h
  obtain ⟨_, s₄, hto, hem⟩ := bind_ok.1 h
  obtain ⟨hb₁, hep₁⟩ := laws.transfer _ _ _ _ ht
  obtain ⟨hb₂, hep₂⟩ := laws.delegate _ _ _ _ _ _ hd hde
  obtain ⟨hv, rfl⟩ := proratedCredit_ok_iff.1 hcr
  obtain ⟨hp, env₃, hg, rfl⟩ := mintCredit_gives (mapErr_ok.1 hm)
  obtain ⟨-, rfl⟩ := addLockup_ok.1 (mapErr_ok.1 ha)
  obtain rfl := setTotalCreditAmount_ok (mapErr_ok.1 hto)
  obtain rfl := emit_ok.1 hem
  refine ⟨credit, ?_, ?_⟩
  · dsimp only at hv
    rw [hep₂, hep₁] at hv
    exact congrArg Prod.fst (proratedCredit_ok_iff.2 ⟨hv, rfl⟩)
  · exact (laws.give _ _ _ _ hp hg).trans (congrArg (· + credit) (hb₂.trans hb₁))

theorem coverSubscription_credits (laws : CreditBank Γ) {developer : Developer} (hd : d ≠ Γ.moduleAddress)
    (h : (coverSubscription ctx developer d amount).Succeeds s u t) :
    Γ.getBalance t.env d .ucredit = Γ.getBalance s.env d .ucredit + s.mintedFor ctx d amount := by
  unfold coverSubscription at h
  rw [read_bind_ok] at h
  unfold State.mintedFor
  by_cases hen : amount ≤ s.availableCredits d
  · have hv : s.validateDeveloperCredits d amount = .ok () := by
      unfold State.validateDeveloperCredits
      rw [if_neg (by omega)]
    rw [hv] at h
    rw [if_pos hen, (pure_ok.1 h).2, add_zero]
  · obtain ⟨e, hin⟩ : ∃ e, s.validateDeveloperCredits d amount = .error e := by
      unfold State.validateDeveloperCredits
      rw [if_pos (by omega)]
      exact ⟨_, rfl⟩
    rw [hin] at h
    simp only [require_bind_ok, query_bind_ok, mapErr_ok] at h
    obtain ⟨-, lockAmt, hs, h⟩ := h
    unfold addLockupForRegistration lockForDeveloper at h
    rw [read_bind_ok] at h
    rw [if_neg hen, hs]
    dsimp only
    split at h
    · rename_i hco
      rw [if_pos hco, (pure_ok.1 h).2, add_zero]
    · rename_i hm
      obtain ⟨v, s₁, hch, hl⟩ := bind_ok.1 h
      obtain ⟨-, rfl⟩ := chooseValidator_ok hch
      obtain ⟨credit, hcr, hb⟩ := lock_credits laws hd (mapErr_ok.1 hl)
      rw [if_neg hm, hcr]
      exact hb

theorem grantPeriodicDIDAllowance_credits (laws : PromiseLaws Γ) {granter did : Bytes} {limit period : Int}
    (h : (grantPeriodicDIDAllowance ctx granter did limit period).Succeeds s u t) (a : Bytes) :
    Γ.getBalance t.env a .ucredit = Γ.getBalance s.env a .ucredit := by
  unfold grantPeriodicDIDAllowance at h
  obtain ⟨r, s₁, hu, hrest⟩ := bind_ok.1 h
  have hs₁ : Γ.getBalance s₁.env a .ucredit = Γ.getBalance s.env a .ucredit := by
    rw [attempt_ok_state hu]
    exact laws.updateGrant _ _ _ _ _ _ a
  cases r with
  | ok v =>
    rw [(pure_ok.1 hrest).2]
    exact hs₁
  | error e =>
    obtain ⟨env, hg, rfl⟩ := callEnv_ok.1 hrest
    have hnew := laws.newGrant granter did limit period (ctx.blockTime.add period) s₁.env a
    rw [hg] at hnew
    exact hnew.trans hs₁

theorem addUserSubscription_credits (laws : PromiseLaws Γ) {u : Bytes} {amount : UInt64}
    (ha : actingDeveloper Γ ctx d = .ok acting) (hm : acting ≠ Γ.moduleAddress)
    (h : (addUserSubscription ctx d u amount period).Succeeds s r t) :
    Γ.getBalance t.env acting .ucredit = Γ.getBalance s.env acting .ucredit + s.mintedFor ctx acting amount.toNat := by
  obtain ⟨acting', _, _, _, _, _, _, ha', -, hcov, rfl, -, hg, hu, rfl⟩ := addUserSubscription_inv h
  obtain rfl := Except.ok.inj (ha.symm.trans ha')
  have hb := grantPeriodicDIDAllowance_credits laws hg acting
  obtain ⟨_, rfl⟩ := updateDeveloperTotalGranted_ok hu
  have hco := coverSubscription_credits laws.toCreditBank hm hcov
  exact hb.trans hco

theorem updateUserSubscription_credits (laws : PromiseLaws Γ) {u : Bytes} {amount : UInt64}
    (h : (updateUserSubscription ctx d u amount period).Succeeds s r t) (a : Bytes) :
    Γ.getBalance t.env a .ucredit = Γ.getBalance s.env a .ucredit := by
  obtain ⟨acting, _, _, _, _, _, -, -, ha, rfl, -, hg, rfl⟩ := updateUserSubscription_inv h
  have hb := grantPeriodicDIDAllowance_credits laws hg a
  obtain ⟨totals, rfl, -⟩ := adjustTotalGranted_totals ha
  exact hb

/-- After a promise the developer holds what is granted in total, exactly when it was covered. -/
theorem Promise.call_covers (laws : PromiseLaws Γ) {p : Promise}
    (ha : actingDeveloper Γ ctx p.developerAddr = .ok acting) (hm : acting ≠ Γ.moduleAddress)
    (h : (p.call ctx).Succeeds s r t) :
    t.getTotalDevGranted acting ≤ Γ.getBalance t.env acting .ucredit ↔ s.Covers ctx acting p := by
  cases p with
  | add d u amount period =>
    obtain ⟨acting', sub, ha', hnone, ham, hs⟩ := addUserSubscription_shifts h
    obtain rfl := Except.ok.inj (ha.symm.trans ha')
    have hb := addUserSubscription_credits laws ha hm h
    rw [hs.totals, if_pos rfl, hnone, amountOf_some, amountOf_none, ham, hb]
    unfold State.Covers State.availableCredits
    omega
  | update d u amount period =>
    obtain ⟨acting', old, sub, ha', hold, ham, hs⟩ := updateUserSubscription_shifts h
    obtain rfl := Except.ok.inj (ha.symm.trans ha')
    have hb := updateUserSubscription_credits laws h acting
    rw [hs.totals, if_pos rfl, amountOf_some, ham, hb]
    unfold State.Covers State.availableCredits
    omega

end Promises

/-! ## When the credits suffice -/

section Covered

variable {Γ : Env} {Φ : Feegrant.Env}

/-- After a subscription is made, or its amount changed, the developer holds the credits that are granted in total exactly when
the credits not granted before, with those that the automatic lock mints for a new subscription, covered the promise. -/
theorem promise_covered_iff (laws : CreditBank Γ) {C : CreditCoins Φ} {ctx : Ctx} {p : Promise} {acting : Bytes}
    {s t : State (Γ.withFeegrants C)} {r : Unit}
    (hacting : actingDeveloper (Γ.withFeegrants C) ctx p.developerAddr = .ok acting) (hmodule : acting ≠ Γ.moduleAddress)
    (h : (p.call ctx).Succeeds s r t) :
    t.getTotalDevGranted acting ≤ Γ.getBalance t.env.1 acting .ucredit ↔ s.Covers ctx acting p :=
  p.call_covers (laws.withFeegrants C) hacting hmodule h

end Covered

/-! ## Promises on a local chain -/

theorem localChain_creditBank : CreditBank localChain where
  give := by
    intro (c : Chain) c' a amount _ h
    obtain ⟨_, c₁, hm, hs⟩ := bind_ok.1 h
    obtain rfl := modify_ok.1 hm
    obtain rfl := Chain.sendCredit_ok hs
    show Chain.move (Function.update c.ucredit Chain.tierAccount (c.ucredit Chain.tierAccount + amount)) Chain.tierAccount a
      amount a = c.ucredit a + amount
    by_cases ha : a = Chain.tierAccount
    · rw [ha, Chain.move_self, Function.update_self]
    · rw [Chain.move_to amount ha, Function.update_of_ne ha]
  transfer := by
    intro (c : Chain) c' a amount h
    obtain rfl := Chain.send_ok h
    exact ⟨rfl, rfl⟩
  delegate := by
    intro (c : Chain) c' a amount validator shares _ h
    obtain rfl := (pure_ok.1 h).2
    exact ⟨rfl, rfl⟩

/-- The developer with credits, stake and automatic locks, or without. -/
def promising (credits : Int) (autoLockEnabled : Bool) : State (localChain.withFeegrants localCredits) :=
  { subscribing with
    env := ({ oneDelegator with ucredit := Function.update (fun _ => 0) alice credits }, Feegrant.State.init ([] : List Bytes))
    developers := KVStore.empty.set (developerKey alice) ⟨alice, autoLockEnabled⟩ }

def promise (p : Promise) : M (localChain.withFeegrants localCredits) Unit := p.call (midEpoch 5)

def newPromise (amount : UInt64) : Promise := .add alice (str "did:user") amount 60

def raisedPromise (amount : UInt64) : Promise := .update alice (str "did:user") amount 60

/-- The credits at hand suffice for a subscription of the same amount. -/
theorem promise_covered_iff_atHand :
    (promise (newPromise 300)).Succeeds (promising 300 false) () (promise (newPromise 300) (promising 300 false)).2 ∧
      (promise (newPromise 300) (promising 300 false)).2.getTotalDevGranted alice ≤
        localChain.getBalance (promise (newPromise 300) (promising 300 false)).2.env.1 alice .ucredit := by
  have hok : (promise (newPromise 300)).Succeeds (promising 300 false) () (promise (newPromise 300) (promising 300 false)).2 :=
    ok_unit_of_isOk (by decide +kernel)
  have hco : (promising 300 false).Covers (midEpoch 5) alice (newPromise 300) := by
    unfold State.Covers newPromise
    decide +kernel
  exact ⟨hok, (promise_covered_iff localChain_creditBank rfl (by decide) hok).2 hco⟩

/-- With the default parameters, a new subscription of 300 credits is accepted of a developer who has none and of one who has
250, and a subscription of 100 credits is raised to 200 though the developer has no more than 100. The first of the three locks
200, which earn 105 credits in the middle of the epoch; the second locks nothing, as 300 credits are earned on 200 of stake. -/
theorem promise_covered_false : defaultParams.validate defaultPoolParams = .ok () ∧
    ((promise (newPromise 300)).Succeeds (promising 0 true) () (promise (newPromise 300) (promising 0 true)).2 ∧
      (promise (newPromise 300) (promising 0 true)).2.getTotalDevGranted alice = 300 ∧
      localChain.getBalance (promise (newPromise 300) (promising 0 true)).2.env.1 alice .ucredit = 105) ∧
    ((promise (newPromise 300)).Succeeds (promising 250 true) () (promise (newPromise 300) (promising 250 true)).2 ∧
      (promise (newPromise 300) (promising 250 true)).2.getTotalDevGranted alice = 300 ∧
      localChain.getBalance (promise (newPromise 300) (promising 250 true)).2.env.1 alice .ucredit = 250) ∧
    ∃ s : State (localChain.withFeegrants localCredits), (promise (newPromise 100)).Succeeds (promising 100 false) () s ∧
      (promise (raisedPromise 200)).Succeeds s () (promise (raisedPromise 200) s).2 ∧
      (promise (raisedPromise 200) s).2.getTotalDevGranted alice = 200 ∧
      localChain.getBalance (promise (raisedPromise 200) s).2.env.1 alice .ucredit = 100 := by
  refine ⟨rfl, ⟨ok_unit_of_isOk (by decide +kernel), by decide +kernel, by decide +kernel⟩,
    ⟨ok_unit_of_isOk (by decide +kernel), by decide +kernel, by decide +kernel⟩,
    (promise (newPromise 100) (promising 100 false)).2, ok_unit_of_isOk (by decide +kernel), ?_⟩
  exact ⟨ok_unit_of_isOk (by decide +kernel), by decide +kernel, by decide +kernel⟩

end Vera.Tier
