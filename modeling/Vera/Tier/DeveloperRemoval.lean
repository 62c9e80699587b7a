import Vera.Tier.GrantedTotals
import Vera.Tier.SubscriptionFees

/-!
# The removal of a developer

`RemoveDeveloper` (`x/tier/keeper/keeper.go`) is to remove the developer and all subscriptions of the developer. It collects the
keys that start with the bytes of the address and calls `RemoveUserSubscription` for each, which takes the developer from the
DID of the transaction if there is one, and whose errors are ignored. The fee grants are those of the model of `x/feegrant`.
-/

namespace Vera.Tier

open Eff KVStore List
open Bytes (str)
open Feegrant (KeyPart CreditCoins)

/-- The expiry of a fee grant, beside the state of the other modules. The time of a block is one that a protobuf timestamp can
hold. -/
def expireFees {σ : Type} {Φ : Feegrant.Env} (ctx : Ctx) (granter granteeDID : Bytes) :
    Eff (σ × Feegrant.State Φ) Bytes Unit :=
  if h : ctx.blockTime.inYears = true then
    callFees granter granteeDID fun granter granteeDID => Feegrant.expireDIDAllowance ⟨ctx.blockTime, h⟩ granter granteeDID
  else Eff.crash "timestamp: before 0001-01-01 or after 9999-12-31"

/-- The modules that `x/tier` calls, with the fee grants and their expiry as modelled. -/
def Env.withGrants {Φ : Feegrant.Env} (Γ : Env) (C : CreditCoins Φ) : GrantEnv where
  toEnv := Γ.withFeegrants C
  expireDIDAllowance := expireFees

theorem expireFees_leaves {σ : Type} {Φ : Feegrant.Env} (ctx : Ctx) (granter u : Bytes) (env : σ × Feegrant.State Φ)
    (granter' did : KeyPart) (hne : granter'.bytes ≠ granter) :
    (expireFees ctx granter u env).2.2.didGrant granter' did = env.2.didGrant granter' did := by
  unfold expireFees
  by_cases hy : ctx.blockTime.inYears = true
  · rw [dif_pos hy]
    unfold callFees
    cases hg : KeyPart.ofBytes granter with
    | none => rfl
    | some g =>
      cases hd : KeyPart.ofBytes u with
      | none => rfl
      | some d =>
        refine Feegrant.expireDIDAllowance_others ⟨ctx.blockTime, hy⟩ g d env.2 granter' did fun heq => hne ?_
        rw [heq]
        exact KeyPart.ofBytes_eq_some hg
  · rw [dif_neg hy]
    rfl

variable {Γ : Env} {Φ : Feegrant.Env} {C : CreditCoins Φ}

def State.didGrant (s : State (Γ.withGrants C).toEnv) (granter did : KeyPart) : Option (Feegrant.Grant Φ) :=
  Feegrant.State.didGrant s.env.2 granter did

/-! ## What a removal should do -/

/-- A developer is removed with all subscriptions, and nothing else is changed. -/
structure RemovedAlone (d : Bytes) (s t : State (Γ.withGrants C).toEnv) : Prop where
  record : t.getDeveloper d = none
  subscriptions : ∀ u, t.getUserSubscription d u = none
  total : t.getTotalDevGranted d = 0
  otherRecords : ∀ d', d' ≠ d → t.getDeveloper d' = s.getDeveloper d'
  otherSubscriptions : ∀ d', d' ≠ d → ∀ u, t.getUserSubscription d' u = s.getUserSubscription d' u
  otherTotals : ∀ d', d' ≠ d → t.getTotalDevGranted d' = s.getTotalDevGranted d'
  otherAllowances : ∀ granter did : KeyPart, granter.bytes ≠ d → t.didGrant granter did = s.didGrant granter did

/-- The subscriptions under a developer's address are the developer's own, as far as they are going to be removed, and the
developer's total is their sum. -/
structure State.OwnsRemoved (s : State (Γ.withGrants C).toEnv) (ctx : Ctx) (d : Bytes) : Prop where
  total : s.getTotalDevGranted d = s.sumGranted d
  /-- No removal of a subscription found under the address is going to go through for somebody else. -/
  mine : ∀ subs, s.subscriptionsForDeveloper d = .ok subs → ∀ p ∈ subs, ∀ acting sub,
    s.Removable ctx p.1 p.2 acting sub → acting = d
  /-- If the developer has subscriptions, it is the developer who acts, with an address of twenty bytes. -/
  acts : ∀ u, (s.getUserSubscription d u).isSome = true → d.length = 20 ∧ actingDeveloper (Γ.withFeegrants C) ctx d = .ok d
  /-- No other address has one of the keys. -/
  unshared : ∀ u, (s.getUserSubscription d u).isSome = true → ∀ d' u',
    userSubscriptionKey d' u' = userSubscriptionKey d u → d' = d

/-! ## The loop -/

/-- So far only subscriptions of the developer are removed, and the total has followed them. -/
structure Removing (d : Bytes) (s t : State (Γ.withGrants C).toEnv) : Prop where
  own : ∀ u, t.getUserSubscription d u = s.getUserSubscription d u ∨ t.getUserSubscription d u = none
  others : ∀ d', d' ≠ d → ∀ u, t.getUserSubscription d' u = s.getUserSubscription d' u
  totals : ∀ d', d' ≠ d → t.getTotalDevGranted d' = s.getTotalDevGranted d'
  total : t.getTotalDevGranted d - t.sumGranted d = s.getTotalDevGranted d - s.sumGranted d
  developers : t.developers = s.developers
  allowances : ∀ granter did : KeyPart, granter.bytes ≠ d → t.didGrant granter did = s.didGrant granter did

def TookOther (d : Bytes) (s t : State (Γ.withGrants C).toEnv) : Prop :=
  ∃ d' u, d' ≠ d ∧ (s.getUserSubscription d' u).isSome = true ∧ t.getUserSubscription d' u = none

section Loop

variable {ctx : Ctx} {d : Bytes} {s t t' : State (Γ.withGrants C).toEnv}

theorem removing_refl (d : Bytes) (s : State (Γ.withGrants C).toEnv) : Removing d s s :=
  ⟨fun _ => .inl rfl, fun _ _ _ => rfl, fun _ _ => rfl, rfl, rfl, fun _ _ _ => rfl⟩

theorem getUserSubscription_afterRemoval (s : State (Γ.withGrants C).toEnv) (ctx : Ctx) (acting u : Bytes)
    (sub : UserSubscription) (events : List Event) (d' u' : Bytes) :
    State.getUserSubscription { s.afterRemoval ctx acting u sub with events := events } d' u' =
      if userSubscriptionKey d' u' = userSubscriptionKey acting u then none else s.getUserSubscription d' u' :=
  get_delete _ _ _

variable {p : Bytes × Bytes} {d' u a : Bytes} {subs : List (Bytes × Bytes)} {sub : UserSubscription}

theorem tryRemove_gone (h : (tryRemoveUserSubscription ctx p).Succeeds t () t')
    (hg : t.getUserSubscription d' u = none) : t'.getUserSubscription d' u = none := by
  rcases tryRemoveUserSubscription_cases h with ⟨acting, sub, events, -, rfl⟩ | ⟨rfl, -⟩
  · rw [getUserSubscription_afterRemoval, hg, ite_self]
  · exact hg

theorem tryRemoveAll_gone (h : (Eff.forEach subs (tryRemoveUserSubscription ctx)).Succeeds t () t')
    (hg : t.getUserSubscription d' u = none) : t'.getUserSubscription d' u = none :=
  forEach_induction (P := fun r : State (Γ.withGrants C).toEnv => r.getUserSubscription d' u = none) h
    (fun _ _ _ _ hr hs => tryRemove_gone hs hr) hg

theorem Removing.remove (h : Removing d s t) (hr : t.Removable ctx a u d sub)
    (hu : ∀ d' u', userSubscriptionKey d' u' = userSubscriptionKey d u → d' = d) (events : List Event) :
    Removing d s { t.afterRemoval ctx d u sub with events := events } := by
  have hs := hr.shifts events
  refine ⟨fun u' => ?_, fun d' hne u' => ?_, fun d' hne => ?_, ?_, ?_, fun granter did hne => ?_⟩
  · rw [getUserSubscription_afterRemoval]
    split
    · exact .inr rfl
    · exact h.own u'
  · rw [getUserSubscription_afterRemoval, if_neg fun hke => hne (hu d' u' hke)]
    exact h.others d' hne u'
  · rw [hs.totals, if_neg hne, add_zero]
    exact h.totals d' hne
  · rw [hs.totals, if_pos rfl, hs.sum_self, ← h.total]
    omega
  · exact hs.developers.trans h.developers
  · exact (expireFees_leaves ctx d u t.env granter did hne).trans (h.allowances granter did hne)

/-- A subscription that can be removed for somebody else at this point could be from the start. -/
theorem Removing.removable_iff (h : Removing d s t) {acting : Bytes} (hne : acting ≠ d) :
    t.Removable ctx a u acting sub ↔ s.Removable ctx a u acting sub := by
  constructor
  · intro hr
    exact ⟨hr.acts, (h.others acting hne u).symm.trans hr.stored, (h.totals acting hne) ▸ hr.granted⟩
  · intro hr
    exact ⟨hr.acts, (h.others acting hne u).trans hr.stored, (h.totals acting hne).symm ▸ hr.granted⟩

/-- An attempt goes on with the developer's own subscriptions, or takes one of somebody else's. -/
theorem Removing.attempt (h : Removing d s t)
    (hst : (tryRemoveUserSubscription ctx p).Succeeds t () t') : Removing d s t' ∨ TookOther d s t' := by
  rcases tryRemoveUserSubscription_cases hst with ⟨acting, sub, events, hr, rfl⟩ | ⟨rfl, -⟩
  · by_cases hs : ∃ d' u', d' ≠ d ∧ userSubscriptionKey d' u' = userSubscriptionKey acting p.2
    · obtain ⟨d', u', hne, hke⟩ := hs
      refine .inr ⟨d', u', hne, ?_, ?_⟩
      · have hstored : t.getUserSubscription d' u' = some sub := by
          unfold State.getUserSubscription
          rw [hke]
          exact hr.stored
        rw [← h.others d' hne u', hstored]
        rfl
      · rw [getUserSubscription_afterRemoval, if_pos hke]
    · have hm : ∀ d' u', userSubscriptionKey d' u' = userSubscriptionKey acting p.2 → d' = d := by
        intro d' u' hke
        by_contra hne
        exact hs ⟨d', u', hne, hke⟩
      obtain rfl := hm acting p.2 rfl
      exact .inl (h.remove hr hm events)
  · exact .inl h

/-- The attempts remove the developer's own subscriptions, or take one of somebody else's. -/
theorem Removing.attempts (h : Removing d s t)
    (hl : (Eff.forEach subs (tryRemoveUserSubscription ctx)).Succeeds t () t') : Removing d s t' ∨ TookOther d s t' := by
  refine forEach_induction (P := fun r => Removing d s r ∨ TookOther d s r) hl (fun p _ r r' hr hs => ?_) (.inl h)
  rcases hr with hr | ⟨d', u, hne, hh, hg⟩
  · exact hr.attempt hs
  · exact .inr ⟨d', u, hne, hh, tryRemove_gone hs hg⟩

theorem prefix_userSubscriptionKey (d u : Bytes) : d <+: userSubscriptionKey d u := by
  unfold userSubscriptionKey
  rw [append_assoc, append_assoc]
  exact prefix_append _ _

theorem mem_subscriptionsForDeveloper (hs : s.subscriptionsForDeveloper d = .ok subs) (a u : Bytes) :
    (a, u) ∈ subs ↔ a.length = 20 ∧ (s.getUserSubscription a u).isSome = true ∧ d <+: userSubscriptionKey a u := by
  rw [mem_readSubscriptionKeys hs]
  simp only [mem_filter, isPrefixOf_iff_prefix, mem_entries, exists_and_right, Option.isSome_iff_exists]
  rfl

theorem fst_of_mem_subscriptionsForDeveloper (hsu : s.subscriptionsForDeveloper d = .ok subs)
    (hl : d.length = 20) (hp : p ∈ subs) : p.1 = d := by
  obtain ⟨hf, -, hs⟩ := (mem_subscriptionsForDeveloper hsu p.1 p.2).1 hp
  have hle : d <+: p.1 :=
    prefix_of_prefix_length_le hs (prefix_userSubscriptionKey p.1 p.2) (by omega)
  exact (hle.eq_of_length (by omega)).symm

theorem amount_le_sumGranted (h : s.getUserSubscription d u = some sub) : sub.creditAmount.toNat ≤ s.sumGranted d := by
  have hd := sumBy_delete
    (fun key (sub : UserSubscription) => if subscriptionKeyOf d key then (sub.creditAmount.toNat : Int) else 0)
    s.subscriptions (userSubscriptionKey d u)
  have hrest : 0 ≤ KVStore.sumBy
      (fun key (sub : UserSubscription) => if subscriptionKeyOf d key then (sub.creditAmount.toNat : Int) else 0)
      (s.subscriptions.delete (userSubscriptionKey d u)) := by
    refine sumBy_nonneg fun key v _ => ?_
    split <;> omega
  have hke : subscriptionKeyOf d (userSubscriptionKey d u) = true := subscriptionKeyOf_iff.2 ⟨u, rfl⟩
  unfold State.getUserSubscription at h
  rw [h] at hd
  simp only [Option.map_some, Option.getD_some, hke, if_true] at hd
  unfold State.sumGranted
  omega

theorem sumGranted_of_none (h : ∀ u, s.getUserSubscription d u = none) : s.sumGranted d = 0 := by
  refine (sumBy_eq_sum ∅ fun key sub hget _ => ?_).trans (Finset.sum_empty)
  refine if_neg fun hke => ?_
  obtain ⟨u, rfl⟩ := subscriptionKeyOf_iff.1 hke
  rw [show s.subscriptions.get (userSubscriptionKey d u) = none from h u] at hget
  cases hget

end Loop

/-! ## When a removal does what it should -/

section Removal

variable {ctx : Ctx} {d : Bytes} {s t : State (Γ.withGrants C).toEnv}

variable {s₁ : State (Γ.withGrants C).toEnv} {subs before : List (Bytes × Bytes)}

theorem removedAlone_of_removing (h : Removing d s s₁)
    (hnone : ∀ u, s₁.getUserSubscription d u = none) (ht : s.getTotalDevGranted d = s.sumGranted d) (events : List Event) :
    RemovedAlone d s { s₁ with developers := s₁.developers.delete (developerKey d), events := events } where
  record := by
    unfold State.getDeveloper
    exact (get_delete _ _ _).trans (if_pos rfl)
  subscriptions := hnone
  total := by
    have hs := sumGranted_of_none hnone
    have := h.total
    show s₁.getTotalDevGranted d = 0
    omega
  otherRecords := by
    intro d' hne
    unfold State.getDeveloper
    rw [← h.developers]
    exact (get_delete _ _ _).trans (if_neg fun hke => hne (developerKey_inj.1 hke))
  otherSubscriptions := h.others
  otherTotals := h.totals
  otherAllowances := h.allowances

/-- If the subscriptions under the address are the developer's own, the loop removes all of them and nothing else. -/
theorem removing_of_owns (h : s.OwnsRemoved ctx d)
    (hsu : s.subscriptionsForDeveloper d = .ok subs) (hb : ∀ p ∈ before, p ∈ subs)
    (hl : (Eff.forEach before (tryRemoveUserSubscription ctx)).Succeeds s () t) : Removing d s t := by
  refine forEach_induction (P := fun r => Removing d s r) hl (fun p hp r r' hr hs => ?_) (removing_refl d s)
  rcases tryRemoveUserSubscription_cases hs with ⟨acting, sub, events, hre, rfl⟩ | ⟨rfl, -⟩
  · have ha : acting = d := by
      by_contra hne
      exact hne (h.mine subs hsu p (hb p hp) acting sub ((hr.removable_iff hne).1 hre))
    subst ha
    have hh : (s.getUserSubscription acting p.2).isSome = true := by
      rcases hr.own p.2 with heq | hnone
      · rw [← heq, hre.stored]
        rfl
      · cases hre.stored.symm.trans hnone
    exact hr.remove hre (h.unshared p.2 hh) events
  · exact hr

theorem gone_of_owns (h : s.OwnsRemoved ctx d) (hs : s.subscriptionsForDeveloper d = .ok subs)
    (hl : (Eff.forEach subs (tryRemoveUserSubscription ctx)).Succeeds s () t) (u : Bytes) :
    t.getUserSubscription d u = none := by
  have hal := removing_of_owns h hs (fun _ hp => hp) hl
  rcases hal.own u with hsame | hnone
  · cases hh : s.getUserSubscription d u with
    | none => rw [hsame, hh]
    | some sub =>
      have hso : (s.getUserSubscription d u).isSome = true := by rw [hh]; rfl
      obtain ⟨hlen, ha⟩ := h.acts u hso
      have hmem : (d, u) ∈ subs := by
        exact (mem_subscriptionsForDeveloper hs d u).2 ⟨hlen, hso, prefix_userSubscriptionKey d u⟩
      obtain ⟨before, after, s₁, s₂, hsp, hb, ht, haf⟩ := forEach_ok_split hl hmem
      have hr := removing_of_owns h hs (fun p hp => by rw [hsp]; exact mem_append_left _ hp) hb
      refine tryRemoveAll_gone haf ?_
      rcases hr.own u with hst | hg
      · -- the sum has the amount in it, so the total suffices
        have hstored := hst.trans hh
        have hle := amount_le_sumGranted hstored
        have hto := hr.total
        have hre : s₁.Removable ctx d u d sub := ⟨ha, hstored, by rw [h.total] at hto; omega⟩
        rcases tryRemoveUserSubscription_cases ht with ⟨acting, sub', events, hrem, rfl⟩ | ⟨-, hnot⟩
        · obtain rfl := Except.ok.inj (ha.symm.trans hrem.acts)
          rw [getUserSubscription_afterRemoval, if_pos rfl]
        · exact absurd hre (hnot d sub)
      · exact tryRemove_gone ht hg
  · exact hnone

theorem removing_of_removedAlone {s₂ : State (Γ.withGrants C).toEnv} {after : List (Bytes × Bytes)}
    (hot : ∀ d', d' ≠ d → ∀ u, s₂.getUserSubscription d' u = s.getUserSubscription d' u)
    (hb : (Eff.forEach before (tryRemoveUserSubscription ctx)).Succeeds s () s₁)
    (ha : (Eff.forEach after (tryRemoveUserSubscription ctx)).Succeeds s₁ () s₂) : Removing d s s₁ := by
  rcases (removing_refl d s).attempts hb with hr | ⟨d', u, hne, hh, hg⟩
  · exact hr
  · rw [← hot d' hne u, tryRemoveAll_gone ha hg] at hh
    cases hh

/-- A subscription that is gone after the loop, and whose key belongs to the developer only, was removed by the developer. -/
theorem acts_of_gone (hs : s.subscriptionsForDeveloper d = .ok subs)
    (hlo : (Eff.forEach subs (tryRemoveUserSubscription ctx)).Succeeds s () t) {u : Bytes}
    (hh : (s.getUserSubscription d u).isSome = true) (hg : t.getUserSubscription d u = none)
    (hu : ∀ d' u', userSubscriptionKey d' u' = userSubscriptionKey d u → d' = d) :
    d.length = 20 ∧ actingDeveloper (Γ.withFeegrants C) ctx d = .ok d := by
  obtain ⟨sub, hsu⟩ := Option.isSome_iff_exists.1 hh
  have hl : d.length = 20 := by
    have hen : (userSubscriptionKey d u, sub) ∈ s.subscriptions.entries.filter fun e => d.isPrefixOf e.1 := by
      refine mem_filter.2 ⟨s.subscriptions.mem_entries.2 hsu, isPrefixOf_iff_prefix.2 ?_⟩
      exact prefix_userSubscriptionKey d u
    obtain ⟨a, u', ha, hke, -⟩ := key_of_readSubscriptionKeys hs hen
    rw [← hu a u' hke.symm]
    exact ha
  refine ⟨hl, ?_⟩
  by_contra hnot
  -- otherwise no turn takes the key
  have hkep : t.getUserSubscription d u = s.getUserSubscription d u := by
    refine forEach_induction (P := fun r : State (Γ.withGrants C).toEnv =>
      r.getUserSubscription d u = s.getUserSubscription d u) hlo (fun p hp r r' hr hst => ?_) rfl
    have hf := fst_of_mem_subscriptionsForDeveloper hs hl hp
    rcases tryRemoveUserSubscription_cases hst with ⟨acting, sub', events, hre, rfl⟩ | ⟨rfl, -⟩
    · rw [getUserSubscription_afterRemoval, if_neg, hr]
      intro hke
      obtain rfl := hu acting p.2 hke.symm
      exact hnot (hf ▸ hre.acts)
    · exact hr
  rw [hkep, hsu] at hg
  cases hg

/-- A removal of a developer that succeeds removes all that is the developer's and nothing else, exactly when the subscriptions
found under the address are the developer's own and the total is their sum. -/
theorem removeDeveloper_alone_iff {r : Unit} (h : (removeDeveloper ctx d).Succeeds s r t) :
    RemovedAlone d s t ↔ s.OwnsRemoved ctx d := by
  obtain ⟨subs, s₁, events, hs, hl, rfl⟩ := removeDeveloper_ok h
  constructor
  · intro ha
    have hot : ∀ d', d' ≠ d → ∀ u, s₁.getUserSubscription d' u = s.getUserSubscription d' u := ha.otherSubscriptions
    have hnone : ∀ u, s₁.getUserSubscription d u = none := ha.subscriptions
    have hd : (Eff.forEach [] (tryRemoveUserSubscription ctx)).Succeeds s₁ () s₁ := rfl
    have hrem := removing_of_removedAlone hot hl hd
    have hu : ∀ u, (s.getUserSubscription d u).isSome = true → ∀ d' u',
        userSubscriptionKey d' u' = userSubscriptionKey d u → d' = d := by
      intro u hh d' u' hke
      by_contra hne
      have hg := hot d' hne u'
      unfold State.getUserSubscription at hg hh
      rw [hke, show s₁.subscriptions.get (userSubscriptionKey d u) = none from hnone u] at hg
      rw [← hg] at hh
      cases hh
    refine ⟨?_, fun subs' hs' p hp acting sub hre => ?_, fun u hh => ?_, hu⟩
    · have hsu := sumGranted_of_none hnone
      have hto : s₁.getTotalDevGranted d = 0 := ha.total
      have := hrem.total
      omega
    · -- the removal would have gone through at its turn
      by_contra hne
      obtain rfl := Outcome.ok.inj (hs.symm.trans hs')
      obtain ⟨before, after, s₂, s₃, rfl, hb, ht, haf⟩ := forEach_ok_split hl hp
      have hrest : (Eff.forEach (p :: after) (tryRemoveUserSubscription ctx)).Succeeds s₂ () s₁ :=
        bind_ok.2 ⟨(), s₃, ht, haf⟩
      have hr := removing_of_removedAlone hot hb hrest
      rcases tryRemoveUserSubscription_cases ht with ⟨acting', sub', events, hremo, rfl⟩ | ⟨-, hnot⟩
      · obtain rfl := Except.ok.inj (hre.acts.symm.trans hremo.acts)
        have hg : s₁.getUserSubscription acting p.2 = none := by
          refine tryRemoveAll_gone haf ?_
          rw [getUserSubscription_afterRemoval, if_pos rfl]
        rw [hot acting hne, hre.stored] at hg
        cases hg
      · exact hnot acting sub ((hr.removable_iff hne).2 hre)
    · exact acts_of_gone hs hl hh (hnone u) (hu u hh)
  · intro howns
    exact removedAlone_of_removing (removing_of_owns howns hs (fun _ hp => hp) hl) (gone_of_owns howns hs hl)
      howns.total events

/-- For a developer with an address of twenty bytes, exact totals and keys of their own, this comes down to who acts: there are
no subscriptions to remove, or the DID of the transaction, if it has one, is that of the developer. -/
theorem ownsRemoved_iff (hl : d.length = 20) (ht : s.getTotalDevGranted d = s.sumGranted d)
    (hun : ∀ u, (s.getUserSubscription d u).isSome = true → ∀ d' u',
      userSubscriptionKey d' u' = userSubscriptionKey d u → d' = d) :
    s.OwnsRemoved ctx d ↔ (∀ u, s.getUserSubscription d u = none) ∨ actingDeveloper (Γ.withFeegrants C) ctx d = .ok d := by
  constructor
  · intro h
    by_cases hnone : ∀ u, s.getUserSubscription d u = none
    · exact .inl hnone
    · obtain ⟨u, hu⟩ := not_forall.1 hnone
      exact .inr (h.acts u (Option.isSome_iff_ne_none.2 hu)).2
  · intro h
    refine ⟨ht, fun subs hs p hp acting sub hr => ?_, fun u hh => ⟨hl, ?_⟩, hun⟩
    · have hf := fst_of_mem_subscriptionsForDeveloper hs hl hp
      rcases h with hnone | hac
      · have hh := ((mem_subscriptionsForDeveloper hs p.1 p.2).1 hp).2.1
        rw [hf, hnone] at hh
        cases hh
      · have ha := hr.acts
        rw [hf] at ha
        exact Except.ok.inj (ha.symm.trans hac)
    · rcases h with hnone | hac
      · rw [hnone u] at hh
        cases hh
      · exact hac

end Removal

/-! ## Two developers with a user in common -/

def carol : Bytes := str "developer address 20"

def sharedUser : Bytes := str "did:key:user"

/-- Two accounts with a thousand credits each, and no developers. -/
def twoCreditors : State (localChain.withGrants localCredits).toEnv :=
  { subscribing with
    env := ({ oneDelegator with ucredit := Function.update (Function.update (fun _ => 0) alice 1000) carol 1000 },
      Feegrant.State.init ([] : List Bytes))
    developers := KVStore.empty }

/-- Both accounts become developers and subscribe the user. -/
def twoDevelopers : State (localChain.withGrants localCredits).toEnv :=
  Run.run (developerStep (Γ := localChain.withGrants localCredits)) twoCreditors
    [.createDeveloper alice false, .createDeveloper carol false,
      .addUserSubscription (midEpoch 5) alice sharedUser 100 3600,
      .addUserSubscription (midEpoch 5) carol sharedUser 50 3600]

/-- The removal of the first developer, in a transaction. -/
def removeAlice (ctx : Ctx) : M (localChain.withGrants localCredits).toEnv Unit := removeDeveloper ctx alice

/-- With the DID of the second developer in the transaction, the removal of the first one leaves the subscription and the total
of the first and removes the subscription of the second. -/
theorem removeDeveloper_alone_false :
    (removeAlice (midEpochAs carol)).Succeeds twoDevelopers () (removeAlice (midEpochAs carol) twoDevelopers).2 ∧
      (((removeAlice (midEpochAs carol) twoDevelopers).2.getUserSubscription alice sharedUser).isSome = true ∧
        (removeAlice (midEpochAs carol) twoDevelopers).2.getTotalDevGranted alice = 100) ∧
      ((twoDevelopers.getUserSubscription carol sharedUser).isSome = true ∧
        (removeAlice (midEpochAs carol) twoDevelopers).2.getUserSubscription carol sharedUser = none) ∧
      ¬RemovedAlone alice twoDevelopers (removeAlice (midEpochAs carol) twoDevelopers).2 := by
  have hke : ((removeAlice (midEpochAs carol) twoDevelopers).2.getUserSubscription alice sharedUser).isSome = true := by
    decide +kernel
  refine ⟨ok_unit_of_isOk (by decide +kernel), ⟨hke, by decide +kernel⟩, ⟨by decide +kernel, by decide +kernel⟩,
    fun h => ?_⟩
  rw [h.subscriptions sharedUser] at hke
  cases hke

theorem userSubscriptionKey_inj_left {d u d' u' : Bytes} (hd : keySeparator ∉ d) (hu : keySeparator ∉ u)
    (h : userSubscriptionKey d' u' = userSubscriptionKey d u) : d' = d := by
  have hco := congrArg (List.count keySeparator) h
  unfold userSubscriptionKey at h hco
  simp only [count_append, count_eq_zero_of_not_mem hd, count_eq_zero_of_not_mem hu] at hco
  have hu' : List.count keySeparator u' = 0 := by omega
  exact (last_sep_inj (count_eq_zero.1 hu') hu h).1

/-- Without a DID the first developer is removed alone. -/
theorem removeDeveloper_alone_iff_noDID :
    (removeAlice (midEpoch 5)).Succeeds twoDevelopers () (removeAlice (midEpoch 5) twoDevelopers).2 ∧
      RemovedAlone alice twoDevelopers (removeAlice (midEpoch 5) twoDevelopers).2 := by
  have hok : (removeAlice (midEpoch 5)).Succeeds twoDevelopers () (removeAlice (midEpoch 5) twoDevelopers).2 :=
    ok_unit_of_isOk (by decide +kernel)
  refine ⟨hok, (removeDeveloper_alone_iff hok).2 ((ownsRemoved_iff (by decide) (by decide +kernel) ?_).2 (.inr rfl))⟩
  intro u hh d' u' hke
  have hr : twoDevelopers.subscriptionsForDeveloper alice = .ok [(alice, sharedUser)] := by decide +kernel
  have hmem := (mem_subscriptionsForDeveloper hr alice u).2 ⟨by decide, hh, prefix_userSubscriptionKey alice u⟩
  obtain rfl := (Prod.mk.inj (mem_singleton.1 hmem)).2
  exact userSubscriptionKey_inj_left (by decide) (by decide) hke

end Vera.Tier
