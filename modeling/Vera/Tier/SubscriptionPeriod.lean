import Vera.Tier.GrantedTotals
import Vera.Tier.Messages
import Vera.Tier.SubscriptionFees

/-!
# The period of a subscription

`AddUserSubscription` and `UpdateUserSubscription` turn the period of the message, any number of seconds, into a `time.Duration`
of 64 bits. A period of more than 9223372036 seconds wraps around on the way: to a negative one, to another positive one, or to
zero, which stands for an epoch.
-/

namespace Vera.Tier

open Bytes (str)
open Feegrant (KeyPart CreditCoins PeriodicAllowance didGrantOf)

variable {Γ : Env} {Φ : Feegrant.Env} {C : CreditCoins Φ} {ctx : Ctx} {developerAddr userDid : Bytes} {amount period : UInt64}
  {s t : State (Γ.withFeegrants C)} {u : Unit}

/-- The allowance has the period that was asked for, and is reset for the first time when it is over. -/
structure PeriodKept (ctx : Ctx) (period : UInt64) (epochDuration : Option Int) (a : PeriodicAllowance Φ) : Prop where
  pos : 0 < a.period
  length : if period = 0 then epochDuration = some a.period else a.period = period.toNat * 1000000000
  after : ctx.blockTime.before a.periodReset = true
  reset : a.periodReset.sub ctx.blockTime = a.period

theorem before_add {now : Time} {d : Int} (h : 0 < d) : now.before (now.add d) = true := by
  rw [Time.before_iff, Time.add]
  dsimp only
  omega

theorem add_sub {now : Time} {d : Int} (hp : 0 < d) : (now.add d).sub now = min (2 ^ 63 - 1) d := by
  rw [Time.add, Time.sub]
  dsimp only
  omega

/-- A number of seconds that fits is kept. -/
theorem grantPeriod_eq (hp : period ≠ 0) (hf : period.toNat * 1000000000 < 2 ^ 63) :
    (grantPeriod period s).1 = .ok (period.toNat * 1000000000) := by
  have hpo : period.toNat ≠ 0 := fun hz => hp (UInt64.toNat_inj.1 hz)
  have hs : Int.bmod (Int.bmod period.toNat (2 ^ 64) * 1000000000) (2 ^ 64) = period.toNat * 1000000000 := by
    rw [Int.bmod_eq_of_le (n := period.toNat) (by omega) (by omega), Int.bmod_eq_of_le (by omega) (by omega)]
  simp only [grantPeriod, Eff.query, hs]
  rw [if_neg (by omega)]

theorem updateUserSubscription_granted
    (h : (updateUserSubscription ctx developerAddr userDid amount period).Succeeds s u t) :
    ∃ (granter did : KeyPart) (p : Int), actingDeveloper (Γ.withFeegrants C) ctx developerAddr = .ok granter.bytes ∧
      did.bytes = userDid ∧ (grantPeriod period t).1 = .ok p ∧
      t.fees.didGrant granter did = some (didGrantOf granter did (ctx.allowance C amount p)) := by
  obtain ⟨_, _, p, _, _, _, ha, -, -, rfl, hp, hg, rfl⟩ := updateUserSubscription_inv h
  obtain ⟨env, granter, did, rfl, rfl, rfl, -, hstored⟩ := grantPeriodicDIDAllowance_granted hg
  exact ⟨granter, did, p, ha, rfl, by simpa only [grantPeriod, Eff.query] using hp, hstored⟩

theorem validateSubscription_period (h : validateSubscription Γ developerAddr userDid amount period = .ok ()) : period ≠ 0 := by
  intro hz
  unfold validateSubscription at h
  cases ha : validateAccAddr Γ developerAddr with
  | error e =>
    rw [ha] at h
    cases h
  | ok _ =>
    rw [ha, if_pos hz] at h
    dsimp only [bind, Except.bind] at h
    repeat' split at h
    all_goals cases h

/-- The stored allowance has the period of the message exactly when the nanoseconds fit into 64 bits. -/
theorem periodKept_iff {p : Int} (hpe : period ≠ 0) (hp : (grantPeriod period s).1 = .ok p) :
    PeriodKept ctx period s.params.epochDuration
        (⟨⟨C.credits amount.toNat, none⟩, p, C.credits amount.toNat, C.credits amount.toNat, ctx.blockTime.add p⟩ :
          PeriodicAllowance Φ) ↔
      period.toNat * 1000000000 < 2 ^ 63 := by
  constructor
  · rintro ⟨hpo, hlength, -, hr⟩
    rw [if_neg hpe] at hlength
    dsimp only at hpo hlength hr
    -- the reset lies after the block by a duration, and no duration is longer than the largest one
    rw [add_sub hpo] at hr
    omega
  · intro hf
    obtain rfl := Outcome.ok.inj ((grantPeriod_eq hpe hf).symm.trans hp)
    have hpo : period.toNat ≠ 0 := fun hz => hpe (UInt64.toNat_inj.1 hz)
    refine ⟨by dsimp only; omega, by rw [if_neg hpe], before_add (by omega), ?_⟩
    dsimp only
    rw [add_sub (by omega)]
    omega

/-- Both messages leave an allowance with the period that was asked for exactly when the period, in nanoseconds, fits into a
`time.Duration`. -/
theorem subscription_period_iff {developer : Bytes}
    (hvalid : validateSubscription (Γ.withFeegrants C) developer userDid amount period = .ok ())
    (h : (addUserSubscription ctx developerAddr userDid amount period).Succeeds s u t ∨
      (updateUserSubscription ctx developerAddr userDid amount period).Succeeds s u t) :
    ∃ (granter did : KeyPart) (a : PeriodicAllowance Φ),
      actingDeveloper (Γ.withFeegrants C) ctx developerAddr = .ok granter.bytes ∧ did.bytes = userDid ∧
      t.fees.didGrant granter did = some (didGrantOf granter did (.periodic a)) ∧
      (PeriodKept ctx period t.params.epochDuration a ↔ period.toNat * 1000000000 < 2 ^ 63) := by
  have hpe := validateSubscription_period hvalid
  rcases h with h | h
  · obtain ⟨granter, did, p, ha, hd, hp, -, hstored⟩ := addUserSubscription_granted h
    exact ⟨granter, did, _, ha, hd, hstored, periodKept_iff hpe hp⟩
  · obtain ⟨granter, did, p, ha, hd, hp, hstored⟩ := updateUserSubscription_granted h
    exact ⟨granter, did, _, ha, hd, hstored, periodKept_iff hpe hp⟩

/-! ## Periods on a local chain -/

/-- A subscription of 100 credits for the user of the local chain. -/
def subscribeFor (period : UInt64) : M (localChain.withFeegrants localCredits) Unit :=
  addUserSubscription (midEpoch 5) alice (str "did:user") 100 period

theorem subscription_period_iff_minute : ∃ (granter did : KeyPart) (a : PeriodicAllowance Feegrant.localFees),
      (subscribeFor 60 subscribing).2.fees.didGrant granter did = some (didGrantOf granter did (.periodic a)) ∧
      PeriodKept (midEpoch 5) 60 (subscribeFor 60 subscribing).2.params.epochDuration a := by
  have hok : (subscribeFor 60).Succeeds subscribing () (subscribeFor 60 subscribing).2 :=
    Eff.ok_unit_of_isOk (by decide +kernel)
  have hv : validateSubscription (localChain.withFeegrants localCredits) alice (str "did:user") 100 60 = .ok () := by
    decide +kernel
  obtain ⟨granter, did, a, -, -, hstored, hif⟩ := subscription_period_iff hv (.inl hok)
  exact ⟨granter, did, a, hstored, hif.2 (by decide)⟩

/-- A period of 9223372037 seconds is accepted, and the one that is stored is negative. -/
theorem subscription_period_false :
    validateSubscription (localChain.withFeegrants localCredits) alice (str "did:user") 100 9223372037 = .ok () ∧
    ∃ t, (subscribeFor 9223372037).Succeeds subscribing () t ∧ (grantPeriod 9223372037 t).1 = .ok (-9223372036709551616) ∧
      ∃ (granter did : KeyPart) (a : PeriodicAllowance Feegrant.localFees),
        t.fees.didGrant granter did = some (didGrantOf granter did (.periodic a)) ∧
        ¬PeriodKept (midEpoch 5) 9223372037 t.params.epochDuration a := by
  have hok : (subscribeFor 9223372037).Succeeds subscribing () (subscribeFor 9223372037 subscribing).2 :=
    Eff.ok_unit_of_isOk (by decide +kernel)
  obtain ⟨granter, did, p, -, -, hp, -, hstored⟩ := addUserSubscription_granted hok
  refine ⟨by decide +kernel, _, hok, by decide +kernel, granter, did, _, hstored, fun hke => ?_⟩
  exact absurd ((periodKept_iff (by decide) hp).1 hke) (by decide)

end Vera.Tier
