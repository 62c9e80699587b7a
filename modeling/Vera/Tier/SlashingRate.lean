import Vera.Tier.Totals

/-!
# How a slash reaches the lockups

The handlers run after the slash, so the tokens they read of the validator, and the stake they compute for the module, are
those that are left. They divide the loss by what is left: of a lockup of `x` with a validator that lost `s` of `t` tokens
they keep about `x * (t - 2 * s) / (t - s)`, not `x * (t - s) / t`. The insured part is divided by what is left as well, but
multiplied with the lockup from before the slash.
-/

namespace Vera.Tier

open Bytes (str)

/-! ## The amounts -/

/-- A validator was slashed by `s` of `t` tokens: the event says `s`, and `t - s` tokens are left. -/
structure SlashedBy {Γ : StakingEnv} (st : State Γ.toEnv) (validatorAddr slashedAmount valAddr : Bytes) (s t : Int) : Prop where
  address : Γ.valAddressFromBech32 validatorAddr = .ok valAddr
  amount : Γ.newDecFromStr slashedAmount = .ok (Dec.ofInt s)
  tokens : ∃ validator, Γ.getValidator st.env valAddr = .ok validator ∧ Γ.tokens validator = t - s

/-- A slash by `s` of `t` is passed on to a lockup: the amount left is the lockup's part, up to one unit, and not negative. -/
def PassedOn (s t amount after : Int) : Prop :=
  0 ≤ after ∧ amount * (t - s) / t - 1 ≤ after ∧ after ≤ amount * (t - s) / t + 1

instance (s t amount after : Int) : Decidable (PassedOn s t amount after) := inferInstanceAs (Decidable (_ ∧ _ ∧ _))

namespace SlashingRateAux

section

variable {Γ : StakingEnv}

variable {st : State Γ.toEnv} {validatorAddr slashedAmount valAddr : Bytes} {t : Int}

theorem handlers_unchanged (hno : ∀ d, slashedStake validatorAddr slashedAmount st ≠ .ok d) :
    (handleDoubleSign validatorAddr slashedAmount).attempt.commit st = st ∧
      (handleMissingSignature validatorAddr slashedAmount).attempt.commit st = st := by
  constructor
  · refine Eff.KeepsAt.commit (P := (· = st)) (Eff.KeepsAt.attempt ?_) rfl
    exact Eff.KeepsAt.query_bind fun d hd => absurd hd (hno d)
  · refine Eff.KeepsAt.commit (P := (· = st)) (Eff.KeepsAt.attempt ?_) rfl
    exact Eff.KeepsAt.query_bind fun d hd => absurd hd (hno d)

theorem slashedStake_ne_ok_of_zero (h : SlashedBy st validatorAddr slashedAmount valAddr 0 t) (d : SlashedStake Γ) :
    slashedStake validatorAddr slashedAmount st ≠ .ok d := by
  intro hd
  obtain ⟨-, ha, hz, -⟩ := slashedStake_eq_ok.1 hd
  rw [← Except.ok.inj (h.amount.symm.trans ha)] at hz
  cases hz

theorem slashedStake_ne_ok_of_all (h : SlashedBy st validatorAddr slashedAmount valAddr t t) (d : SlashedStake Γ) :
    slashedStake validatorAddr slashedAmount st ≠ .ok d := by
  intro hd
  obtain ⟨ha, -, -, hv, hs, hz, -⟩ := slashedStake_eq_ok.1 hd
  obtain ⟨validator, hget, ht⟩ := h.tokens
  obtain rfl := Except.ok.inj (h.address.symm.trans ha)
  obtain rfl := Except.ok.inj (hget.symm.trans hv)
  rw [hs, ht, sub_self] at hz
  cases hz

/-- What an adjustment leaves of the only lockup of a store: all of it, or its part at the rate. -/
theorem adjustLockups_single {Γ : Env} {st : State Γ} {d v : Bytes} {lockup : Lockup}
    (hen : st.lockups.entries = [(lockupKey d v, lockup)])
    (hr : (lockupKeyToAddresses (lockupKey d v) : Outcome Error _) = .ok (d, v)) (slashingRate coverageRate : Dec) :
    Eff.KeepsAt (fun t => t.getLockupAmount d v = lockup.amount ∨
        t.getLockupAmount d v = amountAtRate lockup.amount slashingRate)
      (adjustLockups v slashingRate coverageRate) st := by
  have hget : st.getLockup d v = some lockup := by
    refine st.lockups.mem_entries.1 ?_
    rw [hen]
    exact List.mem_singleton_self _
  refine Eff.KeepsAt.read_bind ?_
  rw [hen]
  refine Eff.KeepsAt.bind (Eff.KeepsAt.lift_bind fun a ha => ?_) fun _ t _ => Eff.Keeps.pure () t
  obtain rfl : a = (d, v) := (Outcome.ok.inj (hr.symm.trans ha)).symm
  dsimp only
  rw [if_neg (not_not.2 rfl)]
  refine Eff.KeepsAt.of_cases (fun _ t hst h => ?_) fun e t hst h => (adjustLockup_err h).2 ▸ hst
  obtain ⟨lockup', after, hget', haf, hca⟩ := adjustLockup_ok h
  obtain rfl : lockup' = lockup := Option.some.inj (hget'.symm.trans hget)
  rcases hca with ⟨-, rfl⟩ | ⟨-, hz, rfl⟩ | ⟨-, -, hco⟩
  · exact hst
  · right
    show ((KVStore.get _ _).map Lockup.amount).getD 0 = _
    rw [KVStore.get_delete, if_pos rfl, ← haf, hz]
    rfl
  · right
    have hl : t.lockups = st.withLockup d v after := by
      rw [coverLockup_ok] at hco
      rw [hco]
      split <;> rfl
    unfold State.getLockupAmount State.getLockup
    rw [hl, State.withLockup, KVStore.get_set_self, ← haf]
    rfl

end

/-! ### A validator of whose stake one token is the module's -/

/-- A local chain with one validator that was slashed by `s` and has some tokens left, one of them delegated by the module. -/
def oneTokenChain (s left : Int) : StakingEnv :=
  { localStaking [⟨operator, left, Dec.ofInt left⟩] with newDecFromStr := fun _ => .ok (Dec.ofInt s) }

/-- The state with one lockup, of a delegator with the validator. -/
def oneLockup (s left amount : Int) : State (oneTokenChain s left).toEnv :=
  { emptyState (oneTokenChain s left).toEnv { oneDelegator with delegated := fun _ => 1 } with
    lockups := KVStore.empty.set (lockupKey alice operator) ⟨alice, operator, amount⟩
    totalLockups := some amount }

theorem oneLockup_slashedBy (s t amount : Int) : SlashedBy (oneLockup s (t - s) amount) operator [] operator s t where
  address := by
    show Chain.parseAddress operator = .ok operator
    decide
  amount := rfl
  tokens := ⟨⟨operator, t - s, Dec.ofInt (t - s)⟩, rfl, rfl⟩

theorem ofInt_isZero {n : Int} (h : n ≠ 0) : (Dec.ofInt n).isZero = false := by
  have hne : n * Dec.precision ≠ 0 := mul_ne_zero h (by decide)
  exact beq_false_of_ne hne

theorem oneToken_stake {n : Int} (h : n ≠ 0) : ((Dec.ofInt 1).mulInt n).quoTruncate (Dec.ofInt n) = Dec.ofInt 1 := by
  have hm : ((Dec.ofInt 1).mulInt n).raw * (Dec.precision * Dec.precision) =
      Dec.precision * Dec.precision * (Dec.ofInt n).raw := by
    simp only [Dec.ofInt, Dec.mulInt]
    ring
  have hne : (Dec.ofInt n).raw ≠ 0 := mul_ne_zero h (by decide)
  rw [Dec.quoTruncate, hm, Int.mul_tdiv_cancel _ hne]
  rfl

theorem oneLockup_slashedStake {s left amount : Int} (hs : s ≠ 0) (hl : left ≠ 0) :
    slashedStake operator [] (oneLockup s left amount) =
      .ok ⟨operator, ⟨operator, left, Dec.ofInt left⟩, Dec.ofInt s, Dec.ofInt left, Dec.ofInt 1⟩ := by
  refine slashedStake_eq_ok.2 ⟨?_, rfl, ofInt_isZero hs, rfl, rfl, ofInt_isZero hl, (1 : Int), rfl, rfl,
    ofInt_isZero hl, ?_⟩
  · show Chain.parseAddress operator = .ok operator
    decide
  · exact (oneToken_stake hl).symm

/-- Rounded up, the loss of a stake of one token is no tokens or some: the lockup stays, or nothing positive is left. -/
theorem oneLockup_missingSignature (s left amount : Int) (hs : 0 < s) (hl : 0 < left) (ha : 0 < amount) :
    let after := ((handleMissingSignature operator []).attempt.commit (oneLockup s left amount)).getLockupAmount alice operator
    after = amount ∨ after ≤ 0 := by
  have hre : (lockupKeyToAddresses (lockupKey alice operator) : Outcome Error _) = .ok (alice, operator) :=
    lockupKeyToAddresses_eq_ok.2 ⟨by decide, by decide, rfl⟩
  refine Eff.KeepsAt.commit (P := fun t : State (oneTokenChain s left).toEnv =>
      t.getLockupAmount alice operator = amount ∨ t.getLockupAmount alice operator ≤ 0)
    (Eff.KeepsAt.attempt (Eff.KeepsAt.query_bind fun d hd => Eff.KeepsAt.require_bind fun hne => ?_)) (.inl rfl)
  have hst := Outcome.ok.inj ((oneLockup_slashedStake hs.ne' hl.ne').symm.trans hd)
  have hv : d.valAddr = operator := by rw [← hst]
  have ht : d.tierStake = Dec.ofInt 1 := by rw [← hst]
  -- the loss is a number of whole tokens, so at least one
  have hpo : 1 ≤ d.tierSlashedTokens := by
    have hno : 0 ≤ d.tierSlashedTokens := by
      refine Dec.truncateInt_ceil_nonneg (Dec.chopRound_nonneg (mul_nonneg ?_ (Dec.quo_nonneg ?_ ?_)))
      · rw [← hst]
        exact mul_nonneg hs.le (by decide)
      · rw [ht]
        decide
      · rw [← hst]
        exact mul_nonneg hl.le (by decide)
    omega
  have hr : d.slashingRate (Dec.ofInt d.tierSlashedTokens) = Dec.ofInt (1 - d.tierSlashedTokens) := by
    have hsu : (Dec.ofInt 1).sub (Dec.ofInt d.tierSlashedTokens) = Dec.ofInt (1 - d.tierSlashedTokens) := by
      simp only [Dec.sub, Dec.ofInt, Int.sub_mul]
    rw [SlashedStake.slashingRate, ht, hsu, Dec.ofInt_quo_one]
  refine Eff.KeepsAt.read_bind (Eff.KeepsAt.bind (fun h _ => h) fun _ t hcall => ?_)
  obtain ⟨env, -, rfl⟩ := callEnv_ok.1 hcall
  rw [hr, hv]
  intro _ hp
  rcases adjustLockups_single rfl hre _ _ (.inl rfl) hp with h | h
  · exact .inl h
  · right
    rw [h, amountAtRate_ofInt]
    exact mul_nonpos_of_nonneg_of_nonpos ha.le (by omega)

end SlashingRateAux

open SlashingRateAux

/-- Every slash by `s` of `t` tokens, of any validator and in any state, is passed on to the lockups by both handlers. -/
def SlashPassedOn (s t : Int) : Prop :=
  ∀ (Γ : StakingEnv) (st : State Γ.toEnv) (validatorAddr slashedAmount valAddr delAddr : Bytes) (lockup : Lockup),
    SlashedBy st validatorAddr slashedAmount valAddr s t → st.getLockup delAddr valAddr = some lockup → 0 ≤ lockup.amount →
    PassedOn s t lockup.amount
      (((handleDoubleSign validatorAddr slashedAmount).attempt.commit st).getLockupAmount delAddr valAddr) ∧
    PassedOn s t lockup.amount
      (((handleMissingSignature validatorAddr slashedAmount).attempt.commit st).getLockupAmount delAddr valAddr)

/-! ### A validator of whose stake all is the module's -/

/-- A validator with a thousand shares and some tokens left. -/
def slashedChain (tokens : Int) : StakingEnv := localStaking [⟨operator, tokens, Dec.ofInt 1000⟩]

/-- The module has all shares; a delegator has locked an amount, and the insurance pool holds one. -/
def lockedShares (tokens amount pool : Int) : State (slashedChain tokens).toEnv :=
  { emptyState (slashedChain tokens).toEnv
      { oneDelegator with
        delegated := fun _ => 1000
        uopen := Function.update (fun _ => 0) Chain.insurancePool pool } with
    lockups := KVStore.empty.set (lockupKey alice operator) ⟨alice, operator, amount⟩
    totalLockups := some amount }

end Vera.Tier
