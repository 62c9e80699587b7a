import Vera.Feegrant.Budget
import Vera.Feegrant.SpendLimit

/-!
# The periods of an allowance

What a periodic allowance pays in one period, and when `ExpireDIDAllowance` ends it. Both depend on `tryResetPeriod`, which
compares the two limits as sets of coins and moves the end of the period only when a fee is asked for.
-/

namespace Vera.Feegrant

open Eff
open Bytes (str)

variable {Γ : Env}

/-! ## The checks of an allowance -/

/-- What `ValidateBasic` asks of `sdk.Coins`. -/
structure CoinChecks (Γ : Env) where
  isValid : Γ.Coins → Bool
  isAllPositive : Γ.Coins → Bool
  isAnyNegative : Γ.Coins → Bool
  denomsSubsetOf : Γ.Coins → Γ.Coins → Bool
  string : Γ.Coins → Bytes

/-- What an allowance is refused for: `ErrInvalidCoins` or `ErrInvalidDuration`. -/
inductive Invalid where
  | coins (msg : Bytes)
  | duration (msg : Bytes)
  deriving Repr, DecidableEq

def BasicAllowance.validateBasic (K : CoinChecks Γ) (a : BasicAllowance Γ) : Except Invalid Unit :=
  if !Γ.empty a.spendLimit && !K.isValid a.spendLimit then
    .error (.coins (str "send amount is invalid: " ++ K.string a.spendLimit))
  else if !Γ.empty a.spendLimit && !K.isAllPositive a.spendLimit then .error (.coins (str "spend limit must be positive"))
  else if a.expiration.any fun exp => exp.unix < 0 then .error (.duration (str "expiration time cannot be negative"))
  else .ok ()

def PeriodicAllowance.validateBasic (K : CoinChecks Γ) (a : PeriodicAllowance Γ) : Except Invalid Unit := do
  a.basic.validateBasic K
  if !K.isValid a.periodSpendLimit then
    .error (.coins (str "spend amount is invalid: " ++ K.string a.periodSpendLimit))
  else if !K.isAllPositive a.periodSpendLimit then .error (.coins (str "spend limit must be positive"))
  else if !K.isValid a.periodCanSpend then
    .error (.coins (str "can spend amount is invalid: " ++ K.string a.periodCanSpend))
  else if K.isAnyNegative a.periodCanSpend then .error (.coins (str "can spend must not be negative"))
  else if !Γ.empty a.basic.spendLimit && !K.denomsSubsetOf a.periodSpendLimit a.basic.spendLimit then
    .error (.coins (str "period spend limit has different currency than basic spend limit"))
  else if a.period < 0 then .error (.duration (str "negative clock step"))
  else .ok ()

/-! ## What is paid in a period -/

/-- The laws of coins, with the sign that `SafeSub` reports. -/
structure SignedCoins (Γ : Env) extends CoinLaws Γ where
  safeSub_neg : ∀ a b, (Γ.safeSub a b).2 = true ↔ ∃ denom, amountOf a denom < amountOf b denom

/-- Fees that are accepted one after another, and the allowance after them. An allowance that is used up is deleted. -/
inductive Paid : PeriodicAllowance Γ → List (Time × Γ.Coins) → PeriodicAllowance Γ → Prop
  | nil (a : PeriodicAllowance Γ) : Paid a [] a
  | cons {a b : PeriodicAllowance Γ} {now : Time} {fee : Γ.Coins} {rest : List (Time × Γ.Coins)}
      (accepted : (a.accept now fee).err = none) (removed : (a.accept now fee).remove = true → rest = [])
      (paid : Paid (a.accept now fee).allowance rest b) : Paid a ((now, fee) :: rest) b

section Spending

variable (C : SignedCoins Γ) {a b : PeriodicAllowance Γ} {now : Time} {fee : Γ.Coins} {payments rest : List (Time × Γ.Coins)}
  (denom : C.Denom)

def spent (payments : List (Time × Γ.Coins)) : Int := (payments.map fun p => C.amountOf p.2 denom).sum

theorem spent_nil : spent C denom [] = 0 := rfl

theorem spent_cons : spent C denom ((now, fee) :: payments) = C.amountOf fee denom + spent C denom payments := by
  simp only [spent, List.map_cons, List.sum_cons]

theorem PeriodicAllowance.accept_eq_deduct (h : (a.accept now fee).err = none) :
    a.accept now fee = (a.tryResetPeriod now).deduct fee := by
  unfold PeriodicAllowance.accept at h ⊢
  split at h
  · cases h
  · rename_i hexpired
    rw [if_neg hexpired]

/-- A fee changes neither the limit of a period nor its end. -/
theorem PeriodicAllowance.deduct_frame (a : PeriodicAllowance Γ) (fee : Γ.Coins) :
    (a.deduct fee).allowance.periodSpendLimit = a.periodSpendLimit ∧ (a.deduct fee).allowance.periodReset = a.periodReset := by
  simp only [PeriodicAllowance.deduct]
  split
  · exact ⟨rfl, rfl⟩
  · split
    · exact ⟨rfl, rfl⟩
    · split <;> exact ⟨rfl, rfl⟩

/-- It is taken from what can be spent in the period. -/
theorem PeriodicAllowance.deduct_canSpend (h : (a.deduct fee).err = none) :
    C.amountOf (a.deduct fee).allowance.periodCanSpend denom = C.amountOf a.periodCanSpend denom - C.amountOf fee denom ∧
      0 ≤ C.amountOf (a.deduct fee).allowance.periodCanSpend denom := by
  simp only [PeriodicAllowance.deduct] at h ⊢
  split at h
  · cases h
  · rename_i hne
    have hs := C.safeSub _ _ (Bool.not_eq_true _ ▸ hne) denom
    rw [if_neg hne]
    split
    · exact hs
    · split <;> exact hs

theorem PeriodicAllowance.deduct_unlimited (h : Γ.empty a.basic.spendLimit = true) :
    (a.deduct fee).allowance.basic.spendLimit = a.basic.spendLimit := by
  simp only [PeriodicAllowance.deduct, h, if_true]
  split <;> rfl

theorem PeriodicAllowance.tryResetPeriod_periodSpendLimit (a : PeriodicAllowance Γ) (now : Time) :
    (a.tryResetPeriod now).periodSpendLimit = a.periodSpendLimit := by
  unfold PeriodicAllowance.tryResetPeriod
  split <;> rfl

theorem Paid.periodSpendLimit (h : Paid a payments b) : b.periodSpendLimit = a.periodSpendLimit := by
  induction h with
  | nil => rfl
  | cons accepted _ _ ih =>
    rw [ih, PeriodicAllowance.accept_eq_deduct accepted, (PeriodicAllowance.deduct_frame _ _).1,
      PeriodicAllowance.tryResetPeriod_periodSpendLimit]

/-- Fees sum to at most what an allowance lets be spent in the period, and to at most its limit in total. -/
def Within (a : PeriodicAllowance Γ) (payments : List (Time × Γ.Coins)) : Prop :=
  spent C denom payments ≤ C.amountOf a.periodCanSpend denom ∧
    (Γ.empty a.basic.spendLimit = false → spent C denom payments ≤ C.amountOf a.basic.spendLimit denom)

/-- So they do if those after the first one do. -/
theorem Within.cons (accepted : (a.deduct fee).err = none) (removed : (a.deduct fee).remove = true → rest = [])
    (hrest : 0 ≤ C.amountOf (a.deduct fee).allowance.periodCanSpend denom →
      (Γ.empty (a.deduct fee).allowance.basic.spendLimit = false →
        0 ≤ C.amountOf (a.deduct fee).allowance.basic.spendLimit denom) →
      Within C denom (a.deduct fee).allowance rest) : Within C denom a ((now, fee) :: rest) := by
  obtain ⟨hs, hl⟩ := PeriodicAllowance.deduct_canSpend C denom accepted
  rw [Within, spent_cons]
  cases hempty : Γ.empty a.basic.spendLimit with
  | true =>
    have hu : Γ.empty (a.deduct fee).allowance.basic.spendLimit = true := by
      rw [PeriodicAllowance.deduct_unlimited hempty, hempty]
    have hp := (hrest hl fun h => nomatch hu.symm.trans h).1
    exact ⟨by omega, nofun⟩
  | false =>
    obtain ⟨hd, hke⟩ := PeriodicAllowance.deduct_deducts C.toCoinLaws hempty accepted
    obtain ⟨hs', hl'⟩ := hd denom
    obtain ⟨hp, ht⟩ := hrest hl fun _ => hl'
    -- an allowance that is used up pays nothing more
    have ht' : spent C denom rest ≤ C.amountOf (a.deduct fee).allowance.basic.spendLimit denom := by
      cases hr : (a.deduct fee).remove with
      | true => rwa [removed hr, spent_nil]
      | false => exact ht (hke hr)
    exact ⟨by omega, fun _ => by omega⟩

/-- Fees asked for before the end of the period. -/
theorem Paid.within (h : Paid a payments b) (hin : ∀ p ∈ payments, p.1.before a.periodReset = true)
    (hca : 0 ≤ C.amountOf a.periodCanSpend denom)
    (hl : Γ.empty a.basic.spendLimit = false → 0 ≤ C.amountOf a.basic.spendLimit denom) : Within C denom a payments := by
  induction h with
  | nil => exact ⟨hca, hl⟩
  | @cons a b now fee rest accepted removed paid ih =>
    have ha := PeriodicAllowance.accept_eq_deduct accepted
    rw [PeriodicAllowance.tryResetPeriod, if_pos (hin _ (.head _))] at ha
    rw [ha] at accepted removed ih
    refine Within.cons C denom accepted removed (ih fun p hp => ?_)
    rw [(a.deduct_frame fee).2]
    exact hin p (.tail _ hp)

/-- The limit in total that is left compares with the limit of a period: there is none, or it is at least as large in every
denomination, or at most as large in every one. -/
def PeriodicAllowance.Comparable (b : PeriodicAllowance Γ) : Prop :=
  Γ.empty b.basic.spendLimit = true ∨
    (∀ denom, C.amountOf b.periodSpendLimit denom ≤ C.amountOf b.basic.spendLimit denom) ∨
    ∀ denom, C.amountOf b.basic.spendLimit denom ≤ C.amountOf b.periodSpendLimit denom

/-- Fees of one period: the first one resets the allowance, and the others are asked for before the period ends. -/
def InPeriod (b : PeriodicAllowance Γ) (now : Time) (rest : List (Time × Γ.Coins)) : Prop :=
  now.before b.periodReset = false ∧ ∀ p ∈ rest, p.1.before (b.tryResetPeriod now).periodReset = true

theorem Paid.within_reset {c : PeriodicAllowance Γ} (h : Paid b ((now, fee) :: rest) c) (hin : InPeriod b now rest) :
    Within C denom (b.tryResetPeriod now) ((now, fee) :: rest) := by
  cases h with
  | cons accepted removed paid =>
    have ha := PeriodicAllowance.accept_eq_deduct accepted
    rw [ha] at accepted removed paid
    refine Within.cons C denom accepted removed (paid.within C denom fun p hp => ?_)
    rw [(PeriodicAllowance.deduct_frame _ fee).2]
    exact hin.2 p hp

theorem PeriodicAllowance.tryResetPeriod_canSpend (hov : now.before b.periodReset = false) :
    (b.tryResetPeriod now).periodCanSpend =
      if (Γ.safeSub b.basic.spendLimit b.periodSpendLimit).2 && !Γ.empty b.basic.spendLimit then b.basic.spendLimit
      else b.periodSpendLimit := by
  unfold PeriodicAllowance.tryResetPeriod
  rw [hov, if_neg Bool.false_ne_true]

include C in
theorem safeSub_self (limit : Γ.Coins) : (Γ.safeSub limit limit).2 = false := by
  rw [← Bool.not_eq_true, C.safeSub_neg]
  rintro ⟨denom, hlt⟩
  exact absurd hlt (Int.lt_irrefl _)

include C in
/-- All that is left in total can be paid at once when the reset lets it be spent. -/
theorem Paid.all (hexpired : b.basic.expiration.any now.after = false)
    (hca : (b.tryResetPeriod now).periodCanSpend = b.basic.spendLimit) (hempty : Γ.empty b.basic.spendLimit = false) :
    ∃ c, Paid b [(now, b.basic.spendLimit)] c := by
  refine ⟨_, .cons ?_ (fun _ => rfl) (.nil _)⟩
  simp only [PeriodicAllowance.accept, hexpired, Bool.false_eq_true, if_false, PeriodicAllowance.deduct, hca,
    PeriodicAllowance.tryResetPeriod_basic, safeSub_self C, hempty]

/-- However an allowance was used, the fees of its next period are within both limits for every way to spend exactly when the
limits compare at the reset. -/
theorem period_spending_iff (hpaid : Paid a payments b) (hexpired : b.basic.expiration.any now.after = false)
    (hover : now.before b.periodReset = false) :
    (∀ fee rest c, Paid b ((now, fee) :: rest) c → InPeriod b now rest → ∀ denom,
      spent C denom ((now, fee) :: rest) ≤ C.amountOf a.periodSpendLimit denom ∧
      (Γ.empty b.basic.spendLimit = false → spent C denom ((now, fee) :: rest) ≤ C.amountOf b.basic.spendLimit denom)) ↔
    b.Comparable C := by
  have hr := PeriodicAllowance.tryResetPeriod_canSpend hover
  rw [← hpaid.periodSpendLimit]
  constructor
  · intro hb
    cases hempty : Γ.empty b.basic.spendLimit with
    | true => exact .inl hempty
    | false =>
      cases hne : (Γ.safeSub b.basic.spendLimit b.periodSpendLimit).2 with
      | false =>
        refine .inr (.inl fun denom => Int.not_lt.1 fun hlt => ?_)
        rw [(C.safeSub_neg _ _).2 ⟨denom, hlt⟩] at hne
        cases hne
      | true =>
        rw [hne, hempty] at hr
        obtain ⟨c, ha⟩ := Paid.all C hexpired hr hempty
        refine .inr (.inr fun denom => ?_)
        have hpaid := (hb _ _ c ha ⟨hover, nofun⟩ denom).1
        rwa [spent_cons, spent_nil, Int.add_zero] at hpaid
  · intro hco fee rest c hpa hin denom
    obtain ⟨hp, ht⟩ := hpa.within_reset C denom hin
    rw [PeriodicAllowance.tryResetPeriod_basic] at ht
    refine ⟨hp.trans ?_, ht⟩
    rw [hr]
    split
    · rename_i hbo
      obtain ⟨hne, hempty⟩ := Bool.and_eq_true_iff.1 hbo
      rcases hco with hnone | hm | hl
      · rw [hnone] at hempty
        cases hempty
      · obtain ⟨denom', hlt⟩ := (C.safeSub_neg _ _).1 hne
        exact absurd hlt (Int.not_lt.2 (hm denom'))
      · exact hl denom
    · exact Int.le_refl _

end Spending

/-! ### Coins of two denominations -/

/-- The local chain, with coins of two denominations. -/
def twoDenoms : Env :=
  { localFees with
    Coins := Int × Int
    safeSub := fun a b => ((a.1 - b.1, a.2 - b.2), decide (a.1 < b.1) || decide (a.2 < b.2))
    isZero := fun a => a == (0, 0)
    empty := fun a => a == (0, 0) }

/-- Their amounts; the first denomination is that of `false`. -/
def twoCoins : SignedCoins twoDenoms where
  Denom := Bool
  amountOf a denom := bif denom then a.2 else a.1
  safeSub := by
    rintro ⟨a, a'⟩ ⟨b, b'⟩ h denom
    simp only [twoDenoms, Bool.or_eq_false_iff, decide_eq_false_iff_not, Int.not_lt] at h
    cases denom <;> simp [twoDenoms, h]
  isZero_of_empty _ h := h
  safeSub_neg := by
    rintro ⟨a, a'⟩ ⟨b, b'⟩
    simp [twoDenoms]

def twoChecks : CoinChecks twoDenoms where
  isValid := fun (a : Int × Int) => decide (0 ≤ a.1 ∧ 0 ≤ a.2)
  isAllPositive := fun (a : Int × Int) => decide (a ≠ (0, 0))
  isAnyNegative := fun (a : Int × Int) => decide (a.1 < 0 ∨ a.2 < 0)
  denomsSubsetOf := fun (a b : Int × Int) => decide ((a.1 = 0 ∨ b.1 ≠ 0) ∧ (a.2 = 0 ∨ b.2 ≠ 0))
  string _ := []

/-- A limit of ten of each in every period of a minute, and a limit in total. -/
def tenEach (limit : Int × Int) : PeriodicAllowance twoDenoms :=
  ⟨⟨limit, none⟩, 60000000000, ((10, 10) : Int × Int), ((10, 10) : Int × Int), ⟨100, 0⟩⟩

/-- A fee of the local chain with two denominations, at a number of seconds. -/
def feeAt (sec : Int) (fee : Int × Int) : Time × twoDenoms.Coins := (⟨sec, 0⟩, fee)

/-- The limits compare, and the two fees are within that of a period. -/
theorem period_spending_iff_tenEach : ∃ c, Paid (tenEach (25, 25)) [feeAt 100 (4, 4), feeAt 110 (6, 5)] c ∧
      spent twoCoins false [feeAt 100 (4, 4), feeAt 110 (6, 5)] ≤ twoCoins.amountOf (tenEach (25, 25)).periodSpendLimit false := by
  have hco : (tenEach (25, 25)).Comparable twoCoins := by
    refine .inr (.inl fun denom => ?_)
    cases denom <;> decide
  have hp : ∃ c, Paid (tenEach (25, 25)) [feeAt 100 (4, 4), feeAt 110 (6, 5)] c :=
    ⟨_, .cons rfl (fun h => absurd h (by decide +kernel)) (.cons rfl (fun _ => rfl) (.nil _))⟩
  obtain ⟨c, hp⟩ := hp
  have hb := (period_spending_iff twoCoins (.nil (tenEach (25, 25))) rfl (by decide)).2 hco _ _ c hp
    ⟨by decide, by decide +kernel⟩ false
  exact ⟨c, hp, hb.1⟩

/-- Of the first denomination five are left in total, so the reset lets all hundred of the second be spent. -/
theorem period_spending_false : (tenEach (5, 100)).validateBasic twoChecks = .ok () ∧
    ∃ c, Paid (tenEach (5, 100)) [feeAt 100 (5, 100)] c ∧ InPeriod (tenEach (5, 100)) ⟨100, 0⟩ [] ∧
      ¬spent twoCoins true [feeAt 100 (5, 100)] ≤ twoCoins.amountOf (tenEach (5, 100)).periodSpendLimit true :=
  ⟨by decide +kernel, _, .cons rfl (fun _ => rfl) (.nil _), ⟨by decide, nofun⟩, by decide⟩

/-! ## When an allowance is expired -/

/-- The time at which an allowance that is given up should end: at once, or with the period that contains the time. -/
def Allowance.endAt (now : Time) : Allowance Γ → Option Time
  | .basic _ => some now
  | .periodic a => some (a.tryResetPeriod now).periodReset
  | .allowedMsg .. | .emptyAllowedMsg _ => none

/-- An expiration is that time, it is not in the past, and it is not later than the one that was there. -/
def Allowance.EndsAt (a : Allowance Γ) (now exp : Time) : Prop :=
  a.endAt now = some exp ∧ exp.before now = false ∧ ∀ old, a.expiry = some old → old.before exp = false

/-- The end of the period that is stored is ahead, and the allowance does not expire before. -/
def Allowance.Ahead (now : Time) : Allowance Γ → Prop
  | .basic a => ∀ old, a.expiration = some old → old.before now = false
  | .periodic a => (now.before a.periodReset = true ∨ now = a.periodReset ∧ a.period = 0) ∧
      ∀ old, a.basic.expiration = some old → old.before a.periodReset = false
  | .allowedMsg .. | .emptyAllowedMsg _ => False

section Expiring

variable {a : PeriodicAllowance Γ} {now : Time} {ctx : Ctx} {granter did : KeyPart} {s t : State Γ} {u : Unit}

theorem before_self (now : Time) : now.before now = false := by
  rw [Time.not_before_iff]
  exact .inr ⟨rfl, Nat.le_refl _⟩

theorem add_eq_self {d : Int} (hno : now.inYears = true) : now.add d = now ↔ d = 0 := by
  obtain ⟨sec, nsec⟩ := now
  rw [Time.inYears_iff] at hno
  rw [Time.add, Time.mk.injEq]
  dsimp only at hno ⊢
  omega

/-- The stored end of the period is the end of the period of a time, and not before it. -/
theorem PeriodicAllowance.reset_ahead_iff (hno : now.inYears = true) :
    (a.tryResetPeriod now).periodReset = a.periodReset ∧ a.periodReset.before now = false ↔
      now.before a.periodReset = true ∨ now = a.periodReset ∧ a.period = 0 := by
  cases hov : now.before a.periodReset with
  | true =>
    have ha := Time.not_before_of_before hov (before_self now)
    simp [PeriodicAllowance.tryResetPeriod, hov, ha]
  | false =>
    simp only [PeriodicAllowance.tryResetPeriod, hov, Bool.false_eq_true, if_false, false_or]
    constructor
    · rintro ⟨hr, ha⟩
      obtain rfl := Time.eq_of_not_before hov ha
      refine ⟨rfl, (add_eq_self hno).1 ?_⟩
      split at hr <;> exact hr
    · rintro ⟨rfl, hz⟩
      rw [hz, (add_eq_self hno).2 rfl, ite_self]
      exact ⟨rfl, before_self _⟩

/-- What is stored when an allowance is expired. -/
theorem expireDIDAllowance_ok (h : (expireDIDAllowance ctx granter did).Succeeds s u t) :
    ∃ grant exp a, s.didGrant granter did = some grant ∧ expired ctx grant.allowance = .ok (exp, a) ∧
      t.didGrant granter did = some (didGrantOf granter did a) := by
  simp only [expireDIDAllowance, bind_ok] at h
  obtain ⟨_, _, hget, ⟨exp, a⟩, _, hl, _, _, hu, hem⟩ := h
  obtain ⟨⟨grant, hg, rfl⟩, rfl⟩ := getDIDAllowance_ok.1 hget
  obtain ⟨hexpired, rfl⟩ := lift_ok.1 hl
  obtain ⟨-, rfl⟩ := modify_ok.1 hem
  exact ⟨grant, exp, a, hg, hexpired, (updateDIDAllowance_ok hu).2⟩

/-- An allowance that is expired ends at the right time exactly when the stored end of its period is ahead and it did not
expire before. -/
theorem expire_ends_iff {grant : Grant Γ} (h : (expireDIDAllowance ctx granter did).Succeeds s u t)
    (hgrant : s.didGrant granter did = some grant) :
    ∃ exp a, t.didGrant granter did = some (didGrantOf granter did a) ∧ a.expiry = some exp ∧
      (grant.allowance.EndsAt ctx.blockTime exp ↔ grant.allowance.Ahead ctx.blockTime) := by
  obtain ⟨grant', exp, a, hgrant', hexpired, hstored⟩ := expireDIDAllowance_ok h
  obtain rfl : grant' = grant := Option.some.inj (hgrant'.symm.trans hgrant)
  refine ⟨exp, a, hstored, ?_⟩
  cases ha : grant'.allowance with
  | basic b =>
    rw [ha] at hexpired
    obtain ⟨rfl, rfl⟩ := Prod.mk.inj (Outcome.ok.inj hexpired)
    refine ⟨rfl, fun hen => hen.2.2, fun hah => ⟨rfl, before_self _, hah⟩⟩
  | periodic b =>
    rw [ha] at hexpired
    obtain ⟨rfl, rfl⟩ := Prod.mk.inj (Outcome.ok.inj hexpired)
    refine ⟨rfl, ?_⟩
    show some _ = some _ ∧ _ ∧ _ ↔ _ ∧ _
    rw [← PeriodicAllowance.reset_ahead_iff ctx.inYears, Option.some.injEq, and_assoc]
    rfl
  | allowedMsg b allowed | emptyAllowedMsg allowed =>
    rw [ha] at hexpired
    cases hexpired

end Expiring

/-- A periodic allowance of the local chain, with a period of a minute that ends at second 100. -/
def minutely (expiration : Option Time) : Allowance localFees :=
  .periodic ⟨⟨(50 : Int), expiration⟩, 60000000000, (10 : Int), (10 : Int), ⟨100, 0⟩⟩

/-- It is expired in its period, so it ends at second 100. -/
theorem expire_ends_iff_minutely :
    ∃ exp a, (expireDIDAllowance (blockAt 70 (by decide)) alice localDid (grantedBy [(alice, minutely none)])).2.didGrant
        alice localDid = some (didGrantOf alice localDid a) ∧ a.expiry = some exp ∧
      (minutely none).EndsAt ⟨70, 0⟩ exp := by
  have hok : (expireDIDAllowance (blockAt 70 (by decide)) alice localDid).Succeeds (grantedBy [(alice, minutely none)]) ()
      (expireDIDAllowance (blockAt 70 (by decide)) alice localDid (grantedBy [(alice, minutely none)])).2 :=
    ok_unit_of_isOk (by decide +kernel)
  obtain ⟨exp, a, hstored, hexp, hif⟩ := expire_ends_iff hok rfl
  exact ⟨exp, a, hstored, hexp, hif.2 ⟨.inl (by decide), nofun⟩⟩

/-- One that was idle for two periods gets an expiration in the past, and one that expires earlier gets a later one. -/
theorem expire_ends_false :
    (∃ t exp a, (expireDIDAllowance (blockAt 200 (by decide)) alice localDid).Succeeds (grantedBy [(alice, minutely none)]) () t ∧
      t.didGrant alice localDid = some (didGrantOf alice localDid a) ∧ a.expiry = some exp ∧ exp.before ⟨200, 0⟩ = true) ∧
    ∃ t exp a, (expireDIDAllowance (blockAt 70 (by decide)) alice localDid).Succeeds
        (grantedBy [(alice, minutely (some ⟨80, 0⟩))]) () t ∧
      t.didGrant alice localDid = some (didGrantOf alice localDid a) ∧ a.expiry = some exp ∧
      (⟨80, 0⟩ : Time).before exp = true :=
  ⟨⟨_, _, _, ok_unit_of_isOk (by decide +kernel), rfl, rfl, by decide⟩,
    _, _, _, ok_unit_of_isOk (by decide +kernel), rfl, rfl, by decide⟩

end Vera.Feegrant
