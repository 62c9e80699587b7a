import Vera.Lib.Run
import Vera.Tier.Developers
import Vera.Tier.LocalChain

/-!
# The totals of granted credits

The credits a developer has granted in total are stored beside the subscriptions, under a key of their own, and each message
moves them by a difference (`updateDeveloperTotalGranted` in `x/tier/keeper/subscription.go`). A message changes at most one
subscription of the developer who acts, and the total of that developer by as much; the removal of a developer is a sequence of
such changes, of which those that fail change nothing. So the totals stay the sums of the subscriptions.
-/

namespace Vera.Tier

open Eff KVStore List Outcome
open Bytes (str)

section Totals

variable {Γ : Env}

def amountOf (sub : Option UserSubscription) : Int := (sub.map fun sub => (sub.creditAmount.toNat : Int)).getD 0

@[simp] theorem amountOf_none : amountOf none = 0 := rfl

@[simp] theorem amountOf_some (sub : UserSubscription) : amountOf (some sub) = sub.creditAmount.toNat := rfl

/-- The sum of the credits of a developer's stored subscriptions. -/
def State.sumGranted (s : State Γ) (developerAddr : Bytes) : Int :=
  s.subscriptions.sumBy fun key sub => if subscriptionKeyOf developerAddr key then (sub.creditAmount.toNat : Int) else 0

/-- The state with another total of granted credits. -/
def State.withTotalGranted (s : State Γ) (developerAddr : Bytes) (total : Int) : State Γ :=
  { s with totalDevGranted := s.totalDevGranted.set (totalDevGrantedKey developerAddr) (UInt64.ofNat total.toNat) }

theorem getTotalDevGranted_withTotalGranted (s : State Γ) (d d' : Bytes) {total : Int} (h₀ : 0 ≤ total)
    (h₁ : total < 2 ^ 64) :
    (s.withTotalGranted d total).getTotalDevGranted d' = if d' = d then total else s.getTotalDevGranted d' := by
  unfold State.getTotalDevGranted State.withTotalGranted
  rw [get_set]
  by_cases hd : d' = d
  · rw [if_pos (totalDevGrantedKey_inj.2 hd), if_pos hd, Option.getD_some, UInt64.toNat_ofNat_of_lt' (by
      show total.toNat < 2 ^ 64
      omega)]
    omega
  · rw [if_neg (fun h => hd (totalDevGrantedKey_inj.1 h)), if_neg hd]

variable {d u : Bytes} {delta : Int} {add autoLockEnabled : Bool} {s t : State Γ} {ctx : Ctx} {amount period : UInt64}
  {r : Unit}

theorem updateDeveloperTotalGranted_total {u : Unit} (h : (updateDeveloperTotalGranted d delta add).Succeeds s u t) :
    ∃ total, total = (if add then s.getTotalDevGranted d + delta else s.getTotalDevGranted d - delta) ∧ 0 ≤ total ∧
      total < 2 ^ 63 ∧ t = s.withTotalGranted d total := by
  unfold updateDeveloperTotalGranted setTotalDevGranted at h
  simp only [read_bind_ok, require_bind_ok] at h
  obtain ⟨-, h⟩ := h
  generalize (if add = true then s.getTotalDevGranted d + delta else s.getTotalDevGranted d - delta) = total at h ⊢
  obtain ⟨_, s₁, hs, h⟩ := bind_ok.1 h
  split at hs
  swap
  · exact absurd hs crash_ok
  rename_i hr
  split at h
  swap
  · exact absurd h crash_ok
  rename_i hin
  simp only [isInt64, Bool.and_eq_true, decide_eq_true_eq] at hin
  obtain rfl := (pure_ok.1 h).2
  exact ⟨total, rfl, hr.1, hin.2, modify_ok.1 hs⟩

/-- An adjustment returns an error only when more would be taken than there is; then it has changed nothing. -/
theorem updateDeveloperTotalGranted_eq_err {e : Error} (h : updateDeveloperTotalGranted d delta add s = (.err e, t)) :
    t = s ∧ add = false ∧ s.getTotalDevGranted d < delta := by
  have hnone : ∀ total : Int, Eff.NoError (setTotalDevGranted d total >>= fun _ =>
      if isInt64 total then pure () else Eff.crash "Int64() out of bound" : M Γ Unit) := by
    intro total
    unfold setTotalDevGranted
    refine Eff.NoError.bind (Eff.NoError.ite (Eff.NoError.modify _) (Eff.NoError.crash _)) fun _ => ?_
    exact Eff.NoError.ite (Eff.NoError.pure _) (Eff.NoError.crash _)
  unfold updateDeveloperTotalGranted at h
  rw [read_bind] at h
  generalize ht : (if add = true then s.getTotalDevGranted d + delta else s.getTotalDevGranted d - delta) = total at h
  rw [require_bind_apply] at h
  by_cases hch : add = true ∨ 0 ≤ total
  · -- after the check there are only panics
    rw [if_pos hch] at h
    exact absurd h (hnone _ _ _ _)
  · rw [if_neg hch] at h
    obtain ⟨-, rfl⟩ := Prod.mk.inj h
    simp only [not_or, Bool.not_eq_true] at hch
    obtain ⟨rfl, hne⟩ := hch
    rw [if_neg Bool.false_ne_true] at ht
    exact ⟨rfl, rfl, by omega⟩

/-! ## What a message changes -/

/-- One subscription of a developer is changed, and the developer's total by as much. -/
structure Shifts (d u : Bytes) (new : Option UserSubscription) (s t : State Γ) : Prop where
  subscriptions : t.subscriptions = s.subscriptions.assign (userSubscriptionKey d u) new
  totals : ∀ d', t.getTotalDevGranted d' =
    s.getTotalDevGranted d' + if d' = d then amountOf new - amountOf (s.getUserSubscription d u) else 0
  developers : t.developers = s.developers

namespace Shifts

variable {d u : Bytes} {new : Option UserSubscription} {s t : State Γ}

variable {d' : Bytes}

/-- The sum over the subscriptions of a developer to whom the key belongs moves with the subscription. -/
theorem sum_of_key (h : Shifts d u new s t) (hke : subscriptionKeyOf d' (userSubscriptionKey d u) = true) :
    t.sumGranted d' = s.sumGranted d' + (amountOf new - amountOf (s.getUserSubscription d u)) := by
  have hs := sumBy_assign
    (fun key (sub : UserSubscription) => if subscriptionKeyOf d' key then (sub.creditAmount.toNat : Int) else 0)
    s.subscriptions (userSubscriptionKey d u) new
  simp only [hke, if_true] at hs
  unfold State.sumGranted
  rw [h.subscriptions]
  unfold amountOf State.getUserSubscription
  omega

theorem sum_self (h : Shifts d u new s t) :
    t.sumGranted d = s.sumGranted d + (amountOf new - amountOf (s.getUserSubscription d u)) :=
  h.sum_of_key (subscriptionKeyOf_iff.2 ⟨u, rfl⟩)

theorem sum_other (h : Shifts d u new s t) (hke : subscriptionKeyOf d' (userSubscriptionKey d u) = false) :
    t.sumGranted d' = s.sumGranted d' := by
  have hs := sumBy_assign
    (fun key (sub : UserSubscription) => if subscriptionKeyOf d' key then (sub.creditAmount.toNat : Int) else 0)
    s.subscriptions (userSubscriptionKey d u) new
  simp only [hke, Bool.false_eq_true, if_false] at hs
  have hz : ∀ o : Option UserSubscription, (o.map fun _ => (0 : Int)).getD 0 = 0 := by
    intro o
    cases o <;> rfl
  rw [hz, hz, add_zero, add_zero] at hs
  unfold State.sumGranted
  rw [h.subscriptions]
  exact hs

end Shifts

/-- The stored totals are the sums of the subscriptions, for every address of twenty bytes. -/
def State.Exact (s : State Γ) : Prop := ∀ d : Bytes, d.length = 20 → s.getTotalDevGranted d = s.sumGranted d

theorem Shifts.exact {new : Option UserSubscription} (h : Shifts d u new s t)
    (hl : d.length = 20) (hs : s.Exact) : t.Exact := by
  intro d' hd'
  rw [h.totals, hs d' hd']
  by_cases heq : d' = d
  · rw [if_pos heq, heq, h.sum_self]
  · have hke : subscriptionKeyOf d' (userSubscriptionKey d u) = false := by
      rw [Bool.eq_false_iff]
      intro hke
      obtain ⟨u', hke⟩ := subscriptionKeyOf_iff.1 hke
      exact heq (userSubscriptionKey_inj (hl.trans hd'.symm) hke).1.symm
    rw [if_neg heq, h.sum_other hke, add_zero]

theorem State.Exact.of_eq (hs : s.Exact) (hsu : t.subscriptions = s.subscriptions)
    (ht : t.totalDevGranted = s.totalDevGranted) : t.Exact := by
  intro d hd
  have h := hs d hd
  unfold State.getTotalDevGranted State.sumGranted at h ⊢
  rw [hsu, ht]
  exact h

/-! ### New and changed subscriptions -/

/-- The covering of a subscription is a lock at most: it concerns neither developers nor subscriptions. -/
theorem coverSubscription_frame {developer : Developer} {amount : Int} {u : Unit}
    (h : (coverSubscription ctx developer d amount).Succeeds s u t) :
    t.subscriptions = s.subscriptions ∧ t.totalDevGranted = s.totalDevGranted ∧ t.developers = s.developers := by
  unfold coverSubscription at h
  rw [read_bind_ok] at h
  split at h
  · rw [(pure_ok.1 h).2]
    exact ⟨rfl, rfl, rfl⟩
  · simp only [require_bind_ok, query_bind_ok, mapErr_ok] at h
    obtain ⟨-, lockAmt, -, h⟩ := h
    unfold addLockupForRegistration lockForDeveloper at h
    rw [read_bind_ok] at h
    split at h
    · rw [(pure_ok.1 h).2]
      exact ⟨rfl, rfl, rfl⟩
    · obtain ⟨valAddr, s₁, hch, h⟩ := bind_ok.1 h
      obtain ⟨-, rfl⟩ := chooseValidator_ok hch
      obtain ⟨env, totalLockups, totalCredits, credit, rfl⟩ := lock_ok (mapErr_ok.1 h)
      exact ⟨rfl, rfl, rfl⟩

theorem requireActingDeveloper_ok {acting : Bytes} :
    (requireActingDeveloper ctx d).Succeeds s acting t ↔ actingDeveloper Γ ctx d = .ok acting ∧ t = s := by
  unfold requireActingDeveloper
  rw [query_ok, ofExcept_eq_ok]

theorem requireUserSubscription_ok {sub : UserSubscription} :
    (requireUserSubscription d u).Succeeds s sub t ↔ s.getUserSubscription d u = some sub ∧ t = s := by
  unfold requireUserSubscription
  rw [query_ok, ofOption_eq_ok]

theorem addUserSubscription_shifts (h : (addUserSubscription ctx d u amount period).Succeeds s r t) :
    ∃ acting sub, actingDeveloper Γ ctx d = .ok acting ∧ s.getUserSubscription acting u = none ∧ sub.creditAmount = amount ∧
      Shifts acting u (some sub) s t := by
  obtain ⟨acting, _, _, s₁, _, _, _, ha, hnone, hco, rfl, -, hg, hu, rfl⟩ := addUserSubscription_inv h
  obtain ⟨hs, ht, hd⟩ := coverSubscription_frame hco
  obtain ⟨_, _, rfl, -⟩ := grantPeriodicDIDAllowance_ok hg
  obtain ⟨total, hto, h₀, h₁, rfl⟩ := updateDeveloperTotalGranted_total hu
  have hsame : ∀ d', s₁.getTotalDevGranted d' = s.getTotalDevGranted d' := by
    intro d'
    unfold State.getTotalDevGranted
    rw [ht]
  refine ⟨acting, ⟨Γ.accAddressString acting, u, amount, ctx.blockTime, period, ctx.blockTime⟩, ha, hnone, rfl, ?_,
    fun d' => ?_, hd⟩
  · exact congrArg (fun subs => KVStore.set subs _ _) hs
  · refine (getTotalDevGranted_withTotalGranted _ acting d' h₀ (by omega)).trans ?_
    have hac : total = s.getTotalDevGranted acting + amount.toNat := by
      rw [hto, if_pos rfl, ← hsame]
      rfl
    split
    · rename_i heq
      rw [hac, heq, hnone]
      simp
    · exact (hsame d').trans (add_zero _).symm

theorem adjustTotalGranted_totals {oldAmount : UInt64} (h : (adjustTotalGranted d oldAmount amount).Succeeds s r t) :
    ∃ totals, t = { s with totalDevGranted := totals } ∧ ∀ d', t.getTotalDevGranted d' =
      s.getTotalDevGranted d' + if d' = d then (amount.toNat : Int) - oldAmount.toNat else 0 := by
  unfold adjustTotalGranted at h
  split at h
  · rename_i hlt
    obtain ⟨total, ht, h₀, h₁, rfl⟩ := updateDeveloperTotalGranted_total h
    refine ⟨_, rfl, fun d' => ?_⟩
    rw [getTotalDevGranted_withTotalGranted s d d' h₀ (by omega), ht, if_pos rfl,
      UInt64.toNat_sub_of_le _ _ (UInt64.le_of_lt hlt), Int.natCast_sub (UInt64.le_iff_toNat_le.1 (UInt64.le_of_lt hlt))]
    split
    · rename_i heq
      rw [heq]
    · exact (add_zero _).symm
  · rename_i hnl
    split at h
    · rename_i hlt
      obtain ⟨total, ht, h₀, h₁, rfl⟩ := updateDeveloperTotalGranted_total h
      refine ⟨_, rfl, fun d' => ?_⟩
      rw [getTotalDevGranted_withTotalGranted s d d' h₀ (by omega), ht, if_neg Bool.false_ne_true,
        UInt64.toNat_sub_of_le _ _ (UInt64.le_of_lt hlt), Int.natCast_sub (UInt64.le_iff_toNat_le.1 (UInt64.le_of_lt hlt))]
      split
      · rename_i heq
        rw [heq]
        omega
      · exact (add_zero _).symm
    · rename_i hng
      obtain rfl := (pure_ok.1 h).2
      have heq : amount.toNat = oldAmount.toNat :=
        Nat.le_antisymm (UInt64.le_iff_toNat_le.1 (UInt64.not_lt.1 hnl)) (UInt64.le_iff_toNat_le.1 (UInt64.not_lt.1 hng))
      refine ⟨t.totalDevGranted, rfl, fun d' => ?_⟩
      rw [heq]
      split <;> simp

/-- The calls of a changed subscription, one after the other. -/
theorem updateUserSubscription_inv (h : (updateUserSubscription ctx d u amount period).Succeeds s r t) :
    ∃ acting old p s₁ s₂ s₃, actingDeveloper Γ ctx d = .ok acting ∧ s.getUserSubscription acting u = some old ∧
      (adjustTotalGranted acting old.creditAmount amount).Succeeds s () s₁ ∧
      s₂ = { s₁ with
        subscriptions := s₁.subscriptions.set (userSubscriptionKey acting u)
          { old with creditAmount := amount, period := period, lastRenewed := ctx.blockTime }
        writes := s₁.writes ++ [.userSubscription acting u] } ∧
      (grantPeriod period s₂).1 = .ok p ∧ (grantPeriodicDIDAllowance ctx acting u amount.toNat p).Succeeds s₂ () s₃ ∧
      t = { s₃ with events := s₃.events ++ [.userSubscriptionUpdated acting u amount period] } := by
  simp only [updateUserSubscription, setUserSubscription, bind_ok] at h
  obtain ⟨acting, _, hcall, old, _, hget, _, s₁, had, _, _, hs, p, s₂, hpe, _, s₃, hg, hem⟩ := h
  obtain ⟨ha, rfl⟩ := requireActingDeveloper_ok.1 hcall
  obtain ⟨hold, rfl⟩ := requireUserSubscription_ok.1 hget
  obtain ⟨hp, rfl⟩ := grantPeriod_ok.1 hpe
  exact ⟨acting, old, p, s₁, s₂, s₃, ha, hold, had, modify_ok.1 hs, hp, mapErr_ok.1 hg, emit_ok.1 hem⟩

theorem updateUserSubscription_shifts (h : (updateUserSubscription ctx d u amount period).Succeeds s r t) :
    ∃ acting old sub, actingDeveloper Γ ctx d = .ok acting ∧ s.getUserSubscription acting u = some old ∧
      sub.creditAmount = amount ∧ Shifts acting u (some sub) s t := by
  obtain ⟨acting, old, _, _, _, _, ha, hold, had, rfl, -, hg, rfl⟩ := updateUserSubscription_inv h
  obtain ⟨_, _, rfl, -⟩ := grantPeriodicDIDAllowance_ok hg
  obtain ⟨totals, rfl, ht⟩ := adjustTotalGranted_totals had
  refine ⟨acting, old, { old with creditAmount := amount, period := period, lastRenewed := ctx.blockTime }, ha, hold, rfl,
    rfl, fun d' => ?_, rfl⟩
  rw [hold]
  exact ht d'

theorem createDeveloper_frame (h : (createDeveloper d autoLockEnabled).Succeeds s r t) :
    t.subscriptions = s.subscriptions ∧ t.totalDevGranted = s.totalDevGranted := by
  unfold createDeveloper setDeveloper at h
  simp only [read_bind_ok, require_bind_ok, modify_bind_ok] at h
  rw [emit_ok.1 h.2]
  exact ⟨rfl, rfl⟩

theorem updateDeveloper_frame (h : (updateDeveloper d autoLockEnabled).Succeeds s r t) :
    t.subscriptions = s.subscriptions ∧ t.totalDevGranted = s.totalDevGranted := by
  unfold updateDeveloper setDeveloper requireExistingDeveloper at h
  simp only [query_bind_ok, modify_bind_ok] at h
  obtain ⟨_, -, h⟩ := h
  rw [emit_ok.1 h]
  exact ⟨rfl, rfl⟩

end Totals

/-! ### Removed subscriptions -/

section Removal

variable {Γ : GrantEnv}

/-- The removal of a subscription goes through for a developer: it is the one who acts, they have a subscription with the
user, and have granted at least its amount in total. -/
structure State.Removable (s : State Γ.toEnv) (ctx : Ctx) (d u acting : Bytes) (sub : UserSubscription) : Prop where
  acts : actingDeveloper Γ.toEnv ctx d = .ok acting
  stored : s.getUserSubscription acting u = some sub
  granted : sub.creditAmount.toNat ≤ s.getTotalDevGranted acting

/-- The state after a subscription was removed, but for the events. -/
def State.afterRemoval (s : State Γ.toEnv) (ctx : Ctx) (acting u : Bytes) (sub : UserSubscription) : State Γ.toEnv :=
  { s.withTotalGranted acting (s.getTotalDevGranted acting - sub.creditAmount.toNat) with
    subscriptions := s.subscriptions.delete (userSubscriptionKey acting u)
    env := (Γ.expireDIDAllowance ctx acting u s.env).2 }

variable {ctx : Ctx} {d u : Bytes} {s t : State Γ.toEnv} {r : Unit}

theorem removeUserSubscription_ok (h : (removeUserSubscription ctx d u).Succeeds s r t) :
    ∃ acting sub events, s.Removable ctx d u acting sub ∧ t = { s.afterRemoval ctx acting u sub with events := events } := by
  unfold removeUserSubscription deleteUserSubscription at h
  obtain ⟨acting, s₁, hcall, hrest⟩ := bind_ok.1 h
  obtain ⟨ha, rfl⟩ := requireActingDeveloper_ok.1 hcall
  obtain ⟨sub, s₂, hget, hrest₂⟩ := bind_ok.1 hrest
  obtain ⟨hs, rfl⟩ := requireUserSubscription_ok.1 hget
  obtain ⟨_, s₃, hu, hrest₃⟩ := bind_ok.1 hrest₂
  obtain ⟨total, ht, h₀, -, rfl⟩ := updateDeveloperTotalGranted_total hu
  rw [if_neg Bool.false_ne_true] at ht
  rw [modify_bind_ok] at hrest₃
  obtain ⟨_, s₄, hexp, hem⟩ := bind_ok.1 hrest₃
  refine ⟨acting, sub, t.events, ⟨ha, hs, by omega⟩, ?_⟩
  rw [emit_ok.1 hem, attempt_ok_state hexp, ht]
  rfl

theorem removeUserSubscription_eq_err {e : Error}
    (h : removeUserSubscription ctx d u s = (.err e, t)) : t = s ∧ ∀ acting sub, ¬ s.Removable ctx d u acting sub := by
  unfold removeUserSubscription deleteUserSubscription at h
  rcases bind_eq_err h with ha | ⟨acting, s₁, hcall, hrest⟩
  · obtain ⟨hnone, rfl⟩ := Prod.mk.inj ha
    refine ⟨rfl, fun acting sub hr => ?_⟩
    rw [hr.acts] at hnone
    cases hnone
  · obtain ⟨ha, rfl⟩ := requireActingDeveloper_ok.1 hcall
    rcases bind_eq_err hrest with hs | ⟨sub, s₂, hget, hrest₂⟩
    · obtain ⟨hnone, rfl⟩ := Prod.mk.inj hs
      refine ⟨rfl, fun acting' sub hr => ?_⟩
      obtain rfl := Except.ok.inj (ha.symm.trans hr.acts)
      dsimp only at hnone
      rw [hr.stored] at hnone
      cases hnone
    · obtain ⟨hs, rfl⟩ := requireUserSubscription_ok.1 hget
      rcases bind_eq_err hrest₂ with ht | ⟨_, s₃, -, hrest₃⟩
      · obtain ⟨rfl, -, hl⟩ := updateDeveloperTotalGranted_eq_err ht
        refine ⟨rfl, fun acting' sub' hr => ?_⟩
        obtain rfl := Except.ok.inj (ha.symm.trans hr.acts)
        obtain rfl := Option.some.inj (hs.symm.trans hr.stored)
        have := hr.granted
        omega
      · -- what follows the adjustment returns no error
        rw [modify_bind] at hrest₃
        rcases bind_eq_err hrest₃ with hexp | ⟨_, s₄, -, hem⟩
        · exact absurd hexp (attempt_noError _ _ _ _)
        · cases hem

theorem State.Removable.shifts {acting : Bytes} {sub : UserSubscription}
    (h : s.Removable ctx d u acting sub) (events : List Event) :
    Shifts acting u none s { s.afterRemoval ctx acting u sub with events := events } := by
  have hg := h.granted
  have hb : s.getTotalDevGranted acting < 2 ^ 64 := by
    unfold State.getTotalDevGranted
    exact_mod_cast UInt64.toNat_lt _
  refine ⟨rfl, fun d' => ?_, rfl⟩
  refine (getTotalDevGranted_withTotalGranted s acting d' (by omega) (by omega)).trans ?_
  rw [h.stored, amountOf_none, amountOf_some]
  split
  · rename_i heq
    rw [heq]
    omega
  · exact (add_zero _).symm

/-- An attempt to remove a subscription removes it, or changes nothing as there is nothing to remove. -/
theorem tryRemoveUserSubscription_cases {p : Bytes × Bytes} (h : (tryRemoveUserSubscription ctx p).Succeeds s r t) :
    (∃ acting sub events, s.Removable ctx p.1 p.2 acting sub ∧
      t = { s.afterRemoval ctx acting p.2 sub with events := events }) ∨
    t = s ∧ ∀ acting sub, ¬ s.Removable ctx p.1 p.2 acting sub := by
  unfold tryRemoveUserSubscription at h
  obtain ⟨result, s₁, ha, hp⟩ := bind_ok.1 h
  obtain rfl := (pure_ok.1 hp).2
  cases result with
  | ok v => exact .inl (removeUserSubscription_ok (attempt_eq_ok ha))
  | error e =>
    have her : removeUserSubscription ctx p.1 p.2 s = (.err e, t) :=
      Prod.ext (attempt_eq_error ha) (attempt_ok_state ha).symm
    exact .inr (removeUserSubscription_eq_err her)

theorem removeDeveloper_ok (h : (removeDeveloper ctx d).Succeeds s r t) :
    ∃ subs s₁ events, s.subscriptionsForDeveloper d = .ok subs ∧
      (Eff.forEach subs (tryRemoveUserSubscription ctx)).Succeeds s () s₁ ∧
      t = { s₁ with developers := s₁.developers.delete (developerKey d), events := events } := by
  unfold removeDeveloper requireExistingDeveloper deleteDeveloper at h
  simp only [query_bind_ok] at h
  obtain ⟨_, -, subs, hs, hrest⟩ := h
  obtain ⟨_, s₁, hl, hrest₂⟩ := bind_ok.1 hrest
  rw [modify_bind_ok] at hrest₂
  exact ⟨subs, s₁, _, hs, hl, emit_ok.1 hrest₂⟩

end Removal

/-! ## Runs -/

section Runs

variable {Γ : GrantEnv}

/-- What can happen to developers and their subscriptions: a message, or anything that is no concern of theirs, which leaves
the rest of the state as it is in another one. -/
inductive DeveloperStep (Γ : GrantEnv) where
  | createDeveloper (developerAddr : Bytes) (autoLockEnabled : Bool)
  | updateDeveloper (developerAddr : Bytes) (autoLockEnabled : Bool)
  | removeDeveloper (ctx : Ctx) (developerAddr : Bytes)
  | addUserSubscription (ctx : Ctx) (developerAddr userDid : Bytes) (amount period : UInt64)
  | updateUserSubscription (ctx : Ctx) (developerAddr userDid : Bytes) (amount period : UInt64)
  | removeUserSubscription (ctx : Ctx) (developerAddr userDid : Bytes)
  | elsewhere (t : State Γ.toEnv)

def developerStep (s : State Γ.toEnv) : DeveloperStep Γ → State Γ.toEnv
  | .createDeveloper d autoLockEnabled => (createDeveloper d autoLockEnabled).commit s
  | .updateDeveloper d autoLockEnabled => (updateDeveloper d autoLockEnabled).commit s
  | .removeDeveloper ctx d => (removeDeveloper ctx d).commit s
  | .addUserSubscription ctx d u amount period => (addUserSubscription ctx d u amount period).commit s
  | .updateUserSubscription ctx d u amount period => (updateUserSubscription ctx d u amount period).commit s
  | .removeUserSubscription ctx d u => (removeUserSubscription ctx d u).commit s
  | .elsewhere t =>
    { t with developers := s.developers, subscriptions := s.subscriptions, totalDevGranted := s.totalDevGranted }

/-- The DID of a transaction, if it has one, stands for an address of twenty bytes. -/
def Ctx.ActsAsAccount (Γ : GrantEnv) (ctx : Ctx) : Prop :=
  ∀ d acting : Bytes, d.length = 20 → actingDeveloper Γ.toEnv ctx d = .ok acting → acting.length = 20

/-- The developer of a message is an address of twenty bytes, and so is the one the DID stands for. -/
def DeveloperStep.OfAccount : DeveloperStep Γ → Prop
  | .createDeveloper d _ | .updateDeveloper d _ => d.length = 20
  | .removeDeveloper ctx d | .addUserSubscription ctx d .. | .updateUserSubscription ctx d .. |
    .removeUserSubscription ctx d _ => d.length = 20 ∧ ctx.ActsAsAccount Γ
  | .elsewhere _ => True

theorem tryRemoveUserSubscription_exact {ctx : Ctx} (hct : ctx.ActsAsAccount Γ) {p : Bytes × Bytes} (hp : p.1.length = 20) :
    (tryRemoveUserSubscription ctx p : M Γ.toEnv Unit).Keeps State.Exact := by
  refine Eff.Keeps.of_ok (fun s _ t hs h => ?_) fun s e t h => ?_
  · rcases tryRemoveUserSubscription_cases h with ⟨acting, sub, events, hr, rfl⟩ | ⟨rfl, -⟩
    · exact (hr.shifts events).exact (hct _ _ hp hr.acts) hs
    · exact hs
  · unfold tryRemoveUserSubscription at h
    rcases bind_eq_err h with h | ⟨_, _, -, h⟩
    · exact absurd h (attempt_noError _ _ _ _)
    · cases h

theorem developerStep_exact (s : State Γ.toEnv) (step : DeveloperStep Γ) (hs : s.Exact) (hst : step.OfAccount) :
    (developerStep s step).Exact := by
  cases step with
  | createDeveloper d autoLockEnabled =>
    exact commit_of_ok hs fun _ t h => hs.of_eq (createDeveloper_frame h).1 (createDeveloper_frame h).2
  | updateDeveloper d autoLockEnabled =>
    exact commit_of_ok hs fun _ t h => hs.of_eq (updateDeveloper_frame h).1 (updateDeveloper_frame h).2
  | removeDeveloper ctx d =>
    refine commit_of_ok hs fun _ t h => ?_
    obtain ⟨subs, s₁, events, hsu, hl, rfl⟩ := removeDeveloper_ok h
    have hke : (Eff.forEach subs (tryRemoveUserSubscription ctx) : M Γ.toEnv Unit).Keeps State.Exact := by
      refine Eff.Keeps.forEach_mem fun p hp => tryRemoveUserSubscription_exact hst.2 ?_
      exact ((mem_readSubscriptionKeys hsu p.1 p.2).1 hp).1
    have hs₁ : s₁.Exact := by
      have := hke.commit hs
      rwa [hl.commit_eq] at this
    exact hs₁.of_eq rfl rfl
  | addUserSubscription ctx d u amount period =>
    refine commit_of_ok hs fun _ t h => ?_
    obtain ⟨acting, sub, ha, -, -, hsh⟩ := addUserSubscription_shifts h
    exact hsh.exact (hst.2 _ _ hst.1 ha) hs
  | updateUserSubscription ctx d u amount period =>
    refine commit_of_ok hs fun _ t h => ?_
    obtain ⟨acting, old, sub, ha, -, -, hsh⟩ := updateUserSubscription_shifts h
    exact hsh.exact (hst.2 _ _ hst.1 ha) hs
  | removeUserSubscription ctx d u =>
    refine commit_of_ok hs fun _ t h => ?_
    obtain ⟨acting, sub, events, hr, rfl⟩ := removeUserSubscription_ok h
    exact (hr.shifts events).exact (hst.2 _ _ hst.1 hr.acts) hs
  | elsewhere t => exact hs.of_eq rfl rfl

/-- A store without developers, subscriptions and totals. -/
structure State.NoDevelopers (s : State Γ.toEnv) : Prop where
  developers : s.developers = KVStore.empty
  subscriptions : s.subscriptions = KVStore.empty
  totalDevGranted : s.totalDevGranted = KVStore.empty

theorem State.NoDevelopers.exact {s : State Γ.toEnv} (h : s.NoDevelopers) : s.Exact := by
  intro d _
  unfold State.getTotalDevGranted State.sumGranted
  rw [h.subscriptions, h.totalDevGranted]
  rfl

/-- In every state of a run from an empty store, what is stored as a developer's total is the sum of the credits of the
developer's subscriptions. -/
theorem total_granted_exact {s : State Γ.toEnv} (hs : s.NoDevelopers) {steps : List (DeveloperStep Γ)}
    (hsteps : ∀ step ∈ steps, step.OfAccount) {d : Bytes} (hd : d.length = 20) :
    (Run.run developerStep s steps).getTotalDevGranted d = (Run.run developerStep s steps).sumGranted d := by
  have hexa : (Run.run developerStep s steps).Exact :=
    Run.run_induction developerStep developerStep_exact (Run.allSteps_of_forall developerStep hsteps s) hs.exact
  exact hexa d hd

end Runs

/-! ### A run on a local chain -/

/-- The local chain, with fee grants that expire unseen. -/
def localGrants : GrantEnv := { localChain with expireDIDAllowance := fun _ _ _ => pure () }

def oneCreditor : Chain := { oneDelegator with ucredit := Function.update (fun _ => 0) alice 100 }

/-- A transaction in the middle of an epoch with the DID of an account. -/
def midEpochAs (address : Bytes) : Ctx := { midEpoch 5 with extractedDID := some (str "did:" ++ address) }

/-- The delegator becomes a developer and subscribes two users; the one subscription is raised with the DID of the developer in
the name of the validator, the other is removed. -/
def raisedAndRemoved : List (DeveloperStep localGrants) :=
  [.createDeveloper alice false,
    .addUserSubscription (midEpoch 5) alice (str "did:key:one") 30 3600,
    .addUserSubscription (midEpoch 5) alice (str "did:key:two") 20 3600,
    .updateUserSubscription (midEpochAs alice) operator (str "did:key:one") 40 3600,
    .removeUserSubscription (midEpoch 5) alice (str "did:key:two")]

theorem midEpoch_actsAsAccount (height : Fin 10) : (midEpoch height).ActsAsAccount localGrants := by
  intro d acting hd h
  exact (congrArg List.length (Except.ok.inj h)).symm.trans hd

theorem midEpochAs_actsAsAccount {address : Bytes} (ha : address.length = 20) :
    (midEpochAs address).ActsAsAccount localGrants := by
  intro d acting _ h
  exact (congrArg List.length (Except.ok.inj h)).symm.trans ha

theorem total_granted_exact_raised :
    (Run.run developerStep (genesisOn oneCreditor) raisedAndRemoved).getTotalDevGranted alice = 40 ∧
      (Run.run developerStep (genesisOn oneCreditor) raisedAndRemoved).getTotalDevGranted alice =
        (Run.run developerStep (genesisOn oneCreditor) raisedAndRemoved).sumGranted alice := by
  have hst : ∀ step ∈ raisedAndRemoved, step.OfAccount := by
    intro step hs
    simp only [raisedAndRemoved, mem_cons, not_mem_nil, or_false] at hs
    have hm := midEpoch_actsAsAccount 5
    have ha : alice.length = 20 := by decide
    have hop : operator.length = 20 := by decide
    rcases hs with rfl | rfl | rfl | rfl | rfl
    · exact ha
    · exact ⟨ha, hm⟩
    · exact ⟨ha, hm⟩
    · exact ⟨hop, midEpochAs_actsAsAccount ha⟩
    · exact ⟨ha, hm⟩
  exact ⟨by decide +kernel, total_granted_exact ⟨rfl, rfl, rfl⟩ hst (by decide)⟩

end Vera.Tier
