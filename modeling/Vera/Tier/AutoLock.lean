import Vera.Tier.Totals

/-!
# Automatic locks that fail

At the start of an epoch `checkDeveloperCredits` (`x/tier/keeper/subscription.go`) locks stake for developers who lack credits.
It reports an error of such a lock and goes on, in the same context, so what the lock had done before the error is committed
with the hook. A lock transfers the stake, delegates it and mints credits, in this order, before it records anything.
-/

namespace Vera.Tier

open Eff List
open Bytes (str)

section AutoLock

variable {Γ : Env}

/-- A developer's balances, the module's delegations, the lockups and their total are the same. -/
structure SameStake (developerAddr : Bytes) (s t : State Γ) : Prop where
  balances : ∀ denom, Γ.getBalance t.env developerAddr denom = Γ.getBalance s.env developerAddr denom
  delegations : ∀ valAddr, Γ.getDelegation t.env valAddr = Γ.getDelegation s.env valAddr
  lockups : t.lockups = s.lockups
  totalLockups : t.totalLockups = s.totalLockups

/-- A developer's credits are to be covered by an automatic lock, and they have the stake for it. -/
structure State.AutoLockDue (s : State Γ) (developerAddr : Bytes) : Prop where
  lacking : Γ.getBalance s.env developerAddr .ucredit < s.getTotalDevGranted developerAddr
  enabled : ((s.getDeveloper developerAddr).map Developer.autoLockEnabled).getD false = true
  enough : s.missingCredits developerAddr ≤ Γ.getBalance s.env developerAddr .uopen

/-- The stake for a developer's missing credits can be transferred: there is a validator to lock it with, and the bank makes
the transfer. -/
def State.Transfers (s : State Γ) (developerAddr : Bytes) : Prop :=
  ∃ valAddr validator env, (chooseValidator developerAddr s).1 = .ok valAddr ∧ Γ.getValidator s.env valAddr = .ok validator ∧
    (Γ.delegateCoinsFromAccountToModule developerAddr (s.missingCredits developerAddr)).Succeeds s.env () env

/-- The stake can be transferred, and then delegated. -/
def State.Delegates (s : State Γ) (developerAddr : Bytes) : Prop :=
  ∃ valAddr validator env shares env', (chooseValidator developerAddr s).1 = .ok valAddr ∧
    Γ.getValidator s.env valAddr = .ok validator ∧
    (Γ.delegateCoinsFromAccountToModule developerAddr (s.missingCredits developerAddr)).Succeeds s.env () env ∧
    (Γ.delegate (s.missingCredits developerAddr) .unbonded validator true).Succeeds env shares env'

/-- The developers that the iteration checks, each with the state in which it does. -/
def checksFrom (ctx : Ctx) : List (Bytes × UserSubscription) → List Bytes → State Γ → List (Bytes × State Γ)
  | [], _, _ => []
  | e :: rest, processed, s =>
    match (userSubscriptionKeyToAddresses e.1 : Outcome Error (Bytes × Bytes)) with
    | .ok (developerAddr, _) =>
      if Γ.accAddressString developerAddr ∈ processed then checksFrom ctx rest processed s
      else (developerAddr, s) ::
        checksFrom ctx rest (Γ.accAddressString developerAddr :: processed) (checkDeveloper ctx developerAddr s).2
    | _ => []

/-- A hook at the start of an epoch that succeeded, and an automatic lock in it that failed. -/
structure FailedAutoLock (ctx : Ctx) (s t : State Γ) where
  /-- The states after the burning and the giving out of credits. -/
  burned : State Γ
  reset : State Γ
  burn_ok : burnAllCredits.Succeeds s () burned
  reset_ok : resetAllCredits.Succeeds burned () reset
  check_ok : (checkDeveloperCredits ctx).Succeeds reset () t
  /-- The developers checked before, the one whose lock failed with the state in which it was attempted, and those after. -/
  earlier : List (Bytes × State Γ)
  developerAddr : Bytes
  attempted : State Γ
  later : List (Bytes × State Γ)
  checks_eq : checksFrom ctx reset.subscriptions.entries [] reset = earlier ++ (developerAddr, attempted) :: later
  due : attempted.AutoLockDue developerAddr
  error : Error
  failed : (autoLockDeveloperCredits ctx developerAddr (attempted.missingCredits developerAddr) attempted).1 = .err error

/-- What the bank and the staking module do to accounts and delegations. -/
structure AutoLockLaws (Γ : Env) (sharesWith : Γ.σ → Bytes → Int) : Prop where
  /-- The shares with a validator are those of the delegation. -/
  shares : ∀ env env', (∀ v, Γ.getDelegation env' v = Γ.getDelegation env v) → sharesWith env' = sharesWith env
  transfer_delegations : ∀ a amt env v,
    Γ.getDelegation (Γ.delegateCoinsFromAccountToModule a amt env).2 v = Γ.getDelegation env v
  mint_delegations : ∀ amt env v, Γ.getDelegation (Γ.mintCoins amt env).2 v = Γ.getDelegation env v
  send_delegations : ∀ a amt env v, Γ.getDelegation (Γ.sendCoinsFromModuleToAccount a amt env).2 v = Γ.getDelegation env v
  /-- A delegation that is refused leaves the delegations; one that is made adds to them. -/
  delegate_refused : ∀ amt validator env e env', Γ.delegate amt .unbonded validator true env = (.err e, env') →
    ∀ v, Γ.getDelegation env' v = Γ.getDelegation env v
  delegate_made : ∀ amt validator env shares env', 0 < amt →
    (Γ.delegate amt .unbonded validator true).Succeeds env shares env' →
      (∀ v, sharesWith env v ≤ sharesWith env' v) ∧ ∃ v, sharesWith env v < sharesWith env' v
  /-- A transfer takes the stake from the account, if it is made; it does nothing to other accounts. -/
  transfer_made : ∀ a amt env env', a ≠ Γ.moduleAddress → (Γ.delegateCoinsFromAccountToModule a amt).Succeeds env () env' →
    Γ.getBalance env' a .uopen = Γ.getBalance env a .uopen - amt
  transfer_refused : ∀ a amt env e env', Γ.delegateCoinsFromAccountToModule a amt env = (.err e, env') →
    ∀ denom, Γ.getBalance env' a denom = Γ.getBalance env a denom
  transfer_others : ∀ a b amt env denom, b ≠ a → b ≠ Γ.moduleAddress →
    Γ.getBalance (Γ.delegateCoinsFromAccountToModule a amt env).2 b denom = Γ.getBalance env b denom
  /-- Delegations and minting are a matter of the module's account; credits that are sent are no stake. -/
  delegate_others : ∀ amt validator env b denom, b ≠ Γ.moduleAddress →
    Γ.getBalance (Γ.delegate amt .unbonded validator true env).2 b denom = Γ.getBalance env b denom
  mint_others : ∀ amt env b denom, b ≠ Γ.moduleAddress →
    Γ.getBalance (Γ.mintCoins amt env).2 b denom = Γ.getBalance env b denom
  send_others : ∀ a amt env b, b ≠ Γ.moduleAddress →
    Γ.getBalance (Γ.sendCoinsFromModuleToAccount a amt env).2 b .uopen = Γ.getBalance env b .uopen

theorem sameStake_refl (d : Bytes) (s : State Γ) : SameStake d s s := ⟨fun _ => rfl, fun _ => rfl, rfl, rfl⟩

variable {d : Bytes} {s t : State Γ}

theorem SameStake.trans {u : State Γ} (h₁ : SameStake d s t) (h₂ : SameStake d t u) : SameStake d s u :=
  ⟨fun denom => (h₂.balances denom).trans (h₁.balances denom), fun v => (h₂.delegations v).trans (h₁.delegations v),
    h₂.lockups.trans h₁.lockups, h₂.totalLockups.trans h₁.totalLockups⟩

theorem SameStake.withEvents (h : SameStake d s t) (events : List Event) :
    SameStake d s { t with events := events } := ⟨h.balances, h.delegations, h.lockups, h.totalLockups⟩

theorem State.AutoLockDue.missing_pos (h : s.AutoLockDue d) : 0 < s.missingCredits d := by
  have hl := h.lacking
  unfold State.missingCredits
  omega

/-! ## One attempt -/

namespace AutoLockAux

def lockDelegated (ctx : Ctx) (delAddr valAddr : Bytes) (amt : Int) : M Γ Unit := do
  let creditAmt ← proratedCredit ctx delAddr amt
  (mintCredit delAddr creditAmt).mapErr (Error.wrap (str "mint credit"))
  (addLockup delAddr valAddr amt).mapErr (Error.wrap (str "add lockup"))
  let s ← Eff.read
  (setTotalCreditAmount (s.getTotalCreditAmount + creditAmt)).mapErr (Error.wrap (str "set total credit amount"))
  emit (.lock delAddr valAddr amt creditAmt)

variable {d v b : Bytes} {amt : Int} {s t : State Γ} {β : Type} {f : Γ.σ → β} {r : Outcome Error Unit × State Γ}
  {u : Unit} {entries : List (Bytes × UserSubscription)} {processed : List Bytes} {p : Bytes × State Γ}
  {R : State Γ → State Γ → Prop} {ctx : Ctx}

theorem lock_apply {validator : Γ.Validator} (ha : 0 < amt) (hv : Γ.getValidator s.env v = .ok validator) :
    lock ctx d v amt s = (callEnv (wrap (str "delegate " ++ stakeText amt ++ str " from account to module"))
          (Γ.delegateCoinsFromAccountToModule d amt) >>= fun _ =>
        callEnv (wrap (str "delegate " ++ stakeText amt)) (Γ.delegate amt .unbonded validator true) >>= fun _ =>
        lockDelegated ctx d v amt) s := by
  have hf : (requireValidator v : M Γ Γ.Validator).Succeeds s validator s :=
    query_ok.2 ⟨Outcome.ofExcept_eq_ok.2 hv, rfl⟩
  unfold lock
  rw [require_bind_apply, if_pos ha, hf.bind_eq]
  unfold newCoin
  rw [if_pos ha.le]
  rfl

/-- How an attempt to lock the stake for a developer's missing credits ends. -/
inductive AttemptEnd (ctx : Ctx) (d : Bytes) (s : State Γ) : Outcome Error Unit × State Γ → Prop
  /-- There is no validator to lock the stake with. -/
  | noValidator (e : Error) : ¬ s.Transfers d → AttemptEnd ctx d s (.err e, s)
  /-- The bank refuses the transfer. -/
  | notTransferred (e : Error) (e' : Bytes) (env : Γ.σ) : ¬ s.Transfers d →
    Γ.delegateCoinsFromAccountToModule d (s.missingCredits d) s.env = (.err e', env) →
    AttemptEnd ctx d s (.err e, { s with env := env })
  /-- The staking module refuses the delegation of the stake, which is on the module's account now. -/
  | notDelegated (e : Error) (e' : Bytes) (validator : Γ.Validator) (env₁ env₂ : Γ.σ) : s.Transfers d → ¬ s.Delegates d →
    (Γ.delegateCoinsFromAccountToModule d (s.missingCredits d)).Succeeds s.env () env₁ →
    Γ.delegate (s.missingCredits d) .unbonded validator true env₁ = (.err e', env₂) →
    AttemptEnd ctx d s (.err e, { s with env := env₂ })
  /-- The stake is delegated, whatever follows. -/
  | delegated (v : Bytes) (validator : Γ.Validator) (shares : Γ.Shares) (env₁ env₂ : Γ.σ) (w : Error → Error) :
    s.Transfers d → s.Delegates d →
    (Γ.delegateCoinsFromAccountToModule d (s.missingCredits d)).Succeeds s.env () env₁ →
    (Γ.delegate (s.missingCredits d) .unbonded validator true).Succeeds env₁ shares env₂ →
    AttemptEnd ctx d s ((lockDelegated ctx d v (s.missingCredits d)).mapErr w { s with env := env₂ })
  | panicked (m : String) (s' : State Γ) : AttemptEnd ctx d s (.panic m, s')

theorem transfers_iff {validator : Γ.Validator} (hch : (chooseValidator d s).1 = .ok v)
    (hv : Γ.getValidator s.env v = .ok validator) :
    s.Transfers d ↔ ∃ env, (Γ.delegateCoinsFromAccountToModule d (s.missingCredits d)).Succeeds s.env () env := by
  constructor
  · rintro ⟨_, _, env, -, -, h⟩
    exact ⟨env, h⟩
  · rintro ⟨env, h⟩
    exact ⟨v, validator, env, hch, hv, h⟩

theorem delegates_iff {validator : Γ.Validator} {env : Γ.σ}
    (hch : (chooseValidator d s).1 = .ok v) (hv : Γ.getValidator s.env v = .ok validator)
    (ht : (Γ.delegateCoinsFromAccountToModule d (s.missingCredits d)).Succeeds s.env () env) :
    s.Delegates d ↔ ∃ shares env', (Γ.delegate (s.missingCredits d) .unbonded validator true).Succeeds env shares env' := by
  constructor
  · rintro ⟨v', validator', env₁, shares, env', hch', hv', ht', h⟩
    obtain rfl := Outcome.ok.inj (hch'.symm.trans hch)
    obtain rfl := Except.ok.inj (hv'.symm.trans hv)
    obtain rfl := congrArg Prod.snd (ht'.symm.trans ht)
    exact ⟨shares, env', h⟩
  · rintro ⟨shares, env', h⟩
    exact ⟨v, validator, env, shares, env', hch, hv, ht, h⟩

theorem lock_end (ctx : Ctx) {validator : Γ.Validator} (hp : 0 < s.missingCredits d)
    (hch : (chooseValidator d s).1 = .ok v) (hv : Γ.getValidator s.env v = .ok validator) (w : Error → Error) :
    AttemptEnd ctx d s ((lock ctx d v (s.missingCredits d)).mapErr w s) := by
  rw [mapErr_apply, lock_apply hp hv, callEnv_bind_apply]
  have htr := transfers_iff hch hv
  cases ht : Γ.delegateCoinsFromAccountToModule d (s.missingCredits d) s.env with
  | mk outcome env₁ =>
    cases outcome with
    | panic m => exact .panicked _ _
    | err e' =>
      refine .notTransferred _ e' env₁ (fun h => ?_) ht
      obtain ⟨env, h⟩ := htr.1 h
      cases ht.symm.trans h
    | ok _ =>
      have hde := delegates_iff hch hv ht
      have hdo := htr.2 ⟨env₁, ht⟩
      dsimp only
      rw [callEnv_bind_apply]
      dsimp only
      cases hd : Γ.delegate (s.missingCredits d) .unbonded validator true env₁ with
      | mk outcome env₂ =>
        cases outcome with
        | panic m => exact .panicked _ _
        | err e' =>
          refine .notDelegated _ e' validator env₁ env₂ hdo (fun h => ?_) ht hd
          obtain ⟨shares, env', h⟩ := hde.1 h
          cases hd.symm.trans h
        | ok shares =>
          exact .delegated v validator shares env₁ env₂ w hdo (hde.2 ⟨shares, env₂, hd⟩) ht hd

theorem autoLock_end (ctx : Ctx) (hp : 0 < s.missingCredits d) :
    AttemptEnd ctx d s (autoLockDeveloperCredits ctx d (s.missingCredits d) s) := by
  unfold autoLockDeveloperCredits lockForDeveloper
  rw [require_bind_apply, if_pos hp]
  have hqu : ∀ o, (chooseValidator d s).1 = o → chooseValidator d s = (o, s) := fun o h => Prod.ext h rfl
  cases hch : (chooseValidator d s).1 with
  | panic m =>
    rw [bind_of_panic (hqu _ hch)]
    exact .panicked _ _
  | err e =>
    rw [bind_of_err (hqu _ hch)]
    refine .noValidator e fun h => ?_
    obtain ⟨v, _, _, hok, _⟩ := h
    cases hch.symm.trans hok
  | ok v =>
    rw [Eff.Succeeds.bind_eq (hqu _ hch)]
    cases hv : Γ.getValidator s.env v with
    | ok validator => exact lock_end ctx hp hch hv _
    | error e =>
      have hnone : ∃ e', (requireValidator v : M Γ Γ.Validator) s = (.err e', s) := by
        unfold requireValidator Eff.query
        dsimp only
        rw [hv]
        exact ⟨_, rfl⟩
      obtain ⟨e', hnone⟩ := hnone
      unfold lock
      rw [mapErr_apply, require_bind_apply, if_pos hp, bind_of_err hnone]
      refine .noValidator _ fun h => ?_
      obtain ⟨v', _, _, hok, hok', _⟩ := h
      obtain rfl := Outcome.ok.inj (hch.symm.trans hok)
      cases hv.symm.trans hok'

/-! ## What an attempt does -/

theorem Delegates.transfers (h : s.Delegates d) : s.Transfers d := by
  obtain ⟨v, validator, env, _, _, hch, hv, ht, -⟩ := h
  exact ⟨v, validator, env, hch, hv, ht⟩

/-- After the delegation, a lock only mints and sends credits, and writes its records: what these calls leave of the other
modules, it leaves. -/
theorem lockDelegated_env (hm : ∀ amt env, f (Γ.mintCoins amt env).2 = f env)
    (hse : ∀ a amt env, f (Γ.sendCoinsFromModuleToAccount a amt env).2 = f env)
    {w : Error → Error} (hp : ∀ m, ((lockDelegated ctx d v amt).mapErr w s).1 ≠ .panic m) :
    f ((lockDelegated ctx d v amt).mapErr w s).2.env = f s.env := by
  have hcall : ∀ {α : Type} {x : Eff Γ.σ Bytes α} {w : Bytes → Error}, (∀ env, f (x env).2 = f env) →
      (callEnv w x : M Γ α).Keeps fun t => f t.env = f s.env := fun hx t ht _ => (hx t.env).trans ht
  have hke : (lockDelegated ctx d v amt : M Γ Unit).Keeps fun t => f t.env = f s.env := by
    refine .bind (proratedCredit_keeps ctx d amt) fun credit => .bind (Eff.Keeps.mapErr ?_) fun _ => ?_
    · refine .bind (.lift _) fun _ => .require_bind fun _ => ?_
      exact .bind (hcall (hm credit)) fun _ => hcall (hse d credit)
    · refine .bind (Eff.Keeps.mapErr ?_) fun _ => .bind .read fun s => .bind (Eff.Keeps.mapErr ?_) fun _ => ?_
      · refine .bind .read fun s => .bind (.bind (.modify fun _ hs => hs) fun _ => ?_) fun _ => .modify fun _ hs => hs
        exact .ite (fun _ => .pure ()) fun _ => .crash _
      · exact .bind (.modify fun _ hs => hs) fun _ => .ite (fun _ => .crash _) fun _ => .pure ()
      · exact .modify fun _ hs => hs
  exact hke.mapErr s rfl hp

/-- What a delegation and the calls after it leave of the other modules, an attempt changes by the transfer only. -/
theorem AttemptEnd.env (h : AttemptEnd ctx d s r)
    (hd : ∀ validator env, f (Γ.delegate (s.missingCredits d) .unbonded validator true env).2 = f env)
    (hm : ∀ amt env, f (Γ.mintCoins amt env).2 = f env)
    (hs : ∀ a amt env, f (Γ.sendCoinsFromModuleToAccount a amt env).2 = f env) (hp : ∀ m, r.1 ≠ .panic m) :
    r.2.env = s.env ∧ ¬ s.Transfers d ∨
      f r.2.env = f (Γ.delegateCoinsFromAccountToModule d (s.missingCredits d) s.env).2 := by
  cases h with
  | noValidator e hnot => exact .inl ⟨rfl, hnot⟩
  | notTransferred e e' env hnot ht =>
    rw [ht]
    exact .inr rfl
  | notDelegated e e' validator env₁ env₂ _ _ ht hr =>
    have hsame := hd validator env₁
    rw [hr] at hsame
    rw [ht]
    exact .inr hsame
  | delegated v validator shares env₁ env₂ w _ _ ht hmade =>
    have hsame := hd validator env₁
    rw [hmade] at hsame
    rw [ht]
    exact .inr ((lockDelegated_env hm hs hp).trans hsame)
  | panicked m s' => exact absurd rfl (hp m)

variable {sharesWith : Γ.σ → Bytes → Int} (laws : AutoLockLaws Γ sharesWith)

include laws

theorem shares_transfer {a : Bytes} {env env' : Γ.σ} {o : Outcome Bytes Unit}
    (h : Γ.delegateCoinsFromAccountToModule a amt env = (o, env')) : sharesWith env' = sharesWith env := by
  refine laws.shares _ _ fun v => ?_
  have hv := laws.transfer_delegations a amt env v
  rwa [h] at hv

/-- An attempt takes nothing from the delegations; if it gets to the delegation, it adds to them. -/
theorem AttemptEnd.shares (h : AttemptEnd ctx d s r) (hpo : 0 < s.missingCredits d) (hp : ∀ m, r.1 ≠ .panic m) :
    (∀ v, sharesWith s.env v ≤ sharesWith r.2.env v) ∧
      (s.Delegates d → ∃ v, sharesWith s.env v < sharesWith r.2.env v) := by
  cases h with
  | noValidator e hnot => exact ⟨fun _ => le_refl _, fun h => absurd (Delegates.transfers h) hnot⟩
  | notTransferred e e' env hnot ht =>
    exact ⟨fun v => (congrFun (shares_transfer laws ht) v).ge, fun h => absurd (Delegates.transfers h) hnot⟩
  | notDelegated e e' validator env₁ env₂ _ hnot ht hr =>
    have hsame := laws.shares _ _ (laws.delegate_refused _ _ _ _ _ hr)
    exact ⟨fun v => (congrFun (hsame.trans (shares_transfer laws ht)) v).ge, fun h => absurd h hnot⟩
  | delegated v validator shares env₁ env₂ w _ _ ht hmade =>
    obtain ⟨hle, hlt⟩ := laws.delegate_made _ _ _ _ _ hpo hmade
    have hsame : sharesWith ((lockDelegated ctx d v (s.missingCredits d)).mapErr w { s with env := env₂ }).2.env =
        sharesWith env₂ :=
      lockDelegated_env (fun amt env => laws.shares _ _ (laws.mint_delegations amt env))
        (fun a amt env => laws.shares _ _ (laws.send_delegations a amt env)) hp
    rw [shares_transfer laws ht] at hle hlt
    rw [hsame]
    exact ⟨hle, fun _ => hlt⟩
  | panicked m s' => exact absurd rfl (hp m)

theorem AttemptEnd.uopen
    (h : AttemptEnd ctx d s r) (hd : d ≠ Γ.moduleAddress) (ht : s.Transfers d) (hp : ∀ m, r.1 ≠ .panic m) :
    Γ.getBalance r.2.env d .uopen = Γ.getBalance s.env d .uopen - s.missingCredits d := by
  have hen := h.env (f := fun env => Γ.getBalance env d .uopen) (fun validator env => laws.delegate_others _ _ _ _ _ hd)
    (fun amt env => laws.mint_others _ _ _ _ hd) (fun a amt env => laws.send_others _ _ _ _ hd) hp
  obtain ⟨v, validator, env, -, -, htr⟩ := id ht
  rcases hen with ⟨-, hnot⟩ | hsame
  · exact absurd ht hnot
  · rw [htr] at hsame
    exact hsame.trans (laws.transfer_made _ _ _ _ hd htr)

theorem AttemptEnd.uopen_others
    (h : AttemptEnd ctx d s r) (hb : b ≠ d) (hm : b ≠ Γ.moduleAddress) (hp : ∀ m, r.1 ≠ .panic m) :
    Γ.getBalance r.2.env b .uopen = Γ.getBalance s.env b .uopen := by
  have hen := h.env (f := fun env => Γ.getBalance env b .uopen) (fun validator env => laws.delegate_others _ _ _ _ _ hm)
    (fun amt env => laws.mint_others _ _ _ _ hm) (fun a amt env => laws.send_others _ _ _ _ hm) hp
  rcases hen with ⟨hsame, -⟩ | hsame
  · rw [hsame]
  · exact hsame.trans (laws.transfer_others _ _ _ _ _ hb hm)

theorem AttemptEnd.same
    (h : AttemptEnd ctx d s r) (hnot : ¬ s.Transfers d) (hp : ∀ m, r.1 ≠ .panic m) : SameStake d s r.2 := by
  cases h with
  | noValidator e _ => exact sameStake_refl d s
  | notTransferred e e' env _ htr =>
    refine ⟨laws.transfer_refused _ _ _ _ _ htr, fun v => ?_, rfl, rfl⟩
    have hv := laws.transfer_delegations d (s.missingCredits d) s.env v
    rwa [htr] at hv
  | notDelegated e e' validator env₁ env₂ ht => exact absurd ht hnot
  | delegated v validator shares env₁ env₂ w ht => exact absurd ht hnot
  | panicked m s' => exact absurd rfl (hp m)

/-- An attempt that does not get to the delegation leaves another developer's stake as it is. -/
theorem AttemptEnd.same_others (h : AttemptEnd ctx d s r) (hnot : ¬ s.Delegates d) (hb : b ≠ d) (hm : b ≠ Γ.moduleAddress)
    (hp : ∀ m, r.1 ≠ .panic m) : SameStake b s r.2 := by
  have hot := fun denom => laws.transfer_others d b (s.missingCredits d) s.env denom hb hm
  have hd := laws.transfer_delegations d (s.missingCredits d) s.env
  cases h with
  | noValidator e _ => exact sameStake_refl b s
  | notTransferred e e' env _ ht =>
    rw [ht] at hot hd
    exact ⟨hot, hd, rfl, rfl⟩
  | notDelegated e e' validator env₁ env₂ _ _ ht hr =>
    rw [ht] at hot hd
    refine ⟨fun denom => ?_, fun v => ?_, rfl, rfl⟩
    · have hsame := laws.delegate_others (s.missingCredits d) validator env₁ b denom hm
      rw [hr] at hsame
      exact hsame.trans (hot denom)
    · exact (laws.delegate_refused _ _ _ _ _ hr v).trans (hd v)
  | delegated v validator shares env₁ env₂ w _ hde => exact absurd hde hnot
  | panicked m s' => exact absurd rfl (hp m)

omit laws

/-! ## One check -/

theorem checkDeveloper_of_due (hdue : s.AutoLockDue d) (h : (checkDeveloper ctx d).Succeeds s u t) :
    (∀ m, (autoLockDeveloperCredits ctx d (s.missingCredits d) s).1 ≠ .panic m) ∧
      ∃ s' event, (autoLockDeveloperCredits ctx d (s.missingCredits d) s).2 = s' ∧
        t = { s' with events := s'.events ++ [event] } ∧
        ∀ d' e, event = .developerAutoLockFailed d' e →
          d' = d ∧ (autoLockDeveloperCredits ctx d (s.missingCredits d) s).1 = .err e := by
  unfold checkDeveloper at h
  rw [read_bind_ok] at h
  dsimp only at h
  rw [if_neg (not_le.2 hdue.lacking), if_neg (by simp [hdue.enabled]), if_neg (not_lt.2 hdue.enough)] at h
  unfold tryAutoLock at h
  obtain ⟨result, s₁, ha, h⟩ := bind_ok.1 h
  have hs₁ := attempt_ok_state ha
  refine ⟨fun m hm => ?_, ?_⟩
  · unfold Eff.Succeeds Eff.attempt at ha
    rw [show autoLockDeveloperCredits ctx d (s.missingCredits d) s =
      (.panic m, (autoLockDeveloperCredits ctx d (s.missingCredits d) s).2) from Prod.ext hm rfl] at ha
    cases ha
  · cases result with
    | ok _ => exact ⟨s₁, _, hs₁.symm, emit_ok.1 h, fun _ _ heq => nomatch heq⟩
    | error e =>
      refine ⟨s₁, _, hs₁.symm, emit_ok.1 h, fun d' e' heq => ?_⟩
      obtain ⟨rfl, rfl⟩ := Event.developerAutoLockFailed.inj heq
      exact ⟨rfl, attempt_eq_error ha⟩

theorem checkDeveloper_of_not_due (hdue : ¬ s.AutoLockDue d) (h : (checkDeveloper ctx d).Succeeds s u t) :
    ∃ new, t = { s with events := s.events ++ new } ∧ ∀ d' e, Event.developerAutoLockFailed d' e ∉ new := by
  unfold checkDeveloper at h
  rw [read_bind_ok] at h
  dsimp only at h
  by_cases hl : s.getTotalDevGranted d ≤ Γ.getBalance s.env d .ucredit
  · rw [if_pos hl] at h
    refine ⟨[], ?_, fun _ _ => not_mem_nil⟩
    rw [append_nil]
    exact (pure_ok.1 h).2
  rw [if_neg hl] at h
  by_cases hen : ((s.getDeveloper d).map Developer.autoLockEnabled).getD false = false
  · rw [if_pos hen] at h
    exact ⟨_, emit_ok.1 h, by simp⟩
  rw [if_neg hen] at h
  by_cases heno : Γ.getBalance s.env d .uopen < s.missingCredits d
  · rw [if_pos heno] at h
    exact ⟨_, emit_ok.1 h, by simp⟩
  · exact absurd ⟨not_le.1 hl, by simpa using hen, not_lt.1 heno⟩ hdue

include laws

theorem checkDeveloper_shares (h : (checkDeveloper ctx d).Succeeds s u t) : (∀ v, sharesWith s.env v ≤ sharesWith t.env v) ∧
      (s.AutoLockDue d → s.Delegates d → ∃ v, sharesWith s.env v < sharesWith t.env v) := by
  by_cases hdue : s.AutoLockDue d
  · obtain ⟨hp, s', event, hs', rfl, -⟩ := checkDeveloper_of_due hdue h
    have hsh := (autoLock_end ctx hdue.missing_pos).shares laws hdue.missing_pos hp
    rw [hs'] at hsh
    exact ⟨hsh.1, fun _ => hsh.2⟩
  · obtain ⟨new, rfl, -⟩ := checkDeveloper_of_not_due hdue h
    exact ⟨fun _ => le_refl _, fun h => absurd h hdue⟩

theorem checkDeveloper_uopen_others (h : (checkDeveloper ctx d).Succeeds s u t) (hb : b ≠ d) (hm : b ≠ Γ.moduleAddress) :
    Γ.getBalance t.env b .uopen = Γ.getBalance s.env b .uopen := by
  by_cases hdue : s.AutoLockDue d
  · obtain ⟨hp, s', event, hs', rfl, -⟩ := checkDeveloper_of_due hdue h
    have hsame := (autoLock_end ctx hdue.missing_pos).uopen_others laws hb hm hp
    rw [hs'] at hsame
    exact hsame
  · obtain ⟨new, rfl, -⟩ := checkDeveloper_of_not_due hdue h
    rfl

theorem checkDeveloper_same_others
    (h : (checkDeveloper ctx d).Succeeds s u t) (hnot : s.AutoLockDue d → ¬ s.Delegates d) (hb : b ≠ d)
    (hm : b ≠ Γ.moduleAddress) : SameStake b s t := by
  by_cases hdue : s.AutoLockDue d
  · obtain ⟨hp, s', event, hs', rfl, -⟩ := checkDeveloper_of_due hdue h
    have hsame := (autoLock_end ctx hdue.missing_pos).same_others laws (hnot hdue) hb hm hp
    rw [hs'] at hsame
    exact hsame.withEvents _
  · obtain ⟨new, rfl, -⟩ := checkDeveloper_of_not_due hdue h
    exact (sameStake_refl b s).withEvents _

omit laws

/-! ## The iteration -/

theorem notMem_of_mem_checksFrom (h : p ∈ checksFrom ctx entries processed s) : Γ.accAddressString p.1 ∉ processed := by
  induction entries generalizing processed s with
  | nil => exact absurd h not_mem_nil
  | cons e rest ih =>
    unfold checksFrom at h
    split at h
    · rename_i d did hr
      split at h
      · exact ih h
      · rename_i hnot
        rcases mem_cons.1 h with rfl | h
        · exact hnot
        · exact fun hmem => ih h (mem_cons_of_mem _ hmem)
    · exact absurd h not_mem_nil

theorem checkDevelopers_rel (hre : ∀ s, R s s) (ht : ∀ {s t u}, R s t → R t u → R s u)
    (h : (checkDevelopers ctx entries processed).Succeeds s u t)
    (hst : ∀ p ∈ checksFrom ctx entries processed s, ∀ s', (checkDeveloper ctx p.1).Succeeds p.2 () s' → R p.2 s') :
    R s t := by
  induction entries generalizing processed s with
  | nil =>
    rw [(pure_ok.1 h).2]
    exact hre s
  | cons e rest ih =>
    unfold checkDevelopers at h
    obtain ⟨⟨d, did⟩, hr, h⟩ := lift_bind_ok.1 h
    unfold checksFrom at hst
    rw [hr] at hst
    dsimp only at h hst
    by_cases hmem : Γ.accAddressString d ∈ processed
    · rw [if_pos hmem] at h hst
      exact ih h hst
    · rw [if_neg hmem] at h hst
      obtain ⟨_, s₁, hcheck, h⟩ := bind_ok.1 h
      have hs₁ : (checkDeveloper ctx d s).2 = s₁ := congrArg Prod.snd hcheck
      rw [hs₁] at hst
      exact ht (hst _ mem_cons_self s₁ hcheck) (ih h fun p hp => hst p (mem_cons_of_mem _ hp))

theorem checkDevelopers_split (hre : ∀ s, R s s) (ht : ∀ {s t u}, R s t → R t u → R s u)
    (h : (checkDevelopers ctx entries processed).Succeeds s u t)
    {earlier later : List (Bytes × State Γ)}
    (hch : checksFrom ctx entries processed s = earlier ++ p :: later)
    (hst : ∀ q ∈ earlier, ∀ s', (checkDeveloper ctx q.1).Succeeds q.2 () s' → R q.2 s') :
    R s p.2 ∧ ∃ s' rest processed', (checkDeveloper ctx p.1).Succeeds p.2 () s' ∧ Γ.accAddressString p.1 ∈ processed' ∧
      (checkDevelopers ctx rest processed').Succeeds s' () t ∧ checksFrom ctx rest processed' s' = later := by
  induction entries generalizing processed s earlier with
  | nil => simp [checksFrom] at hch
  | cons e rest ih =>
    unfold checkDevelopers at h
    obtain ⟨⟨d, did⟩, hr, h⟩ := lift_bind_ok.1 h
    unfold checksFrom at hch
    rw [hr] at hch
    dsimp only at h hch
    by_cases hmem : Γ.accAddressString d ∈ processed
    · rw [if_pos hmem] at h hch
      exact ih h hch hst
    · rw [if_neg hmem] at h hch
      obtain ⟨_, s₁, hcheck, h⟩ := bind_ok.1 h
      have hs₁ : (checkDeveloper ctx d s).2 = s₁ := congrArg Prod.snd hcheck
      rw [hs₁] at hch
      cases earlier with
      | nil =>
        obtain ⟨rfl, hl⟩ := List.cons.inj hch
        exact ⟨hre s, s₁, rest, _, hcheck, mem_cons_self, h, hl⟩
      | cons q earlier =>
        obtain ⟨rfl, hrest⟩ := List.cons.inj hch
        obtain ⟨hR, hcu⟩ := ih h hrest fun q hq => hst q (mem_cons_of_mem _ hq)
        exact ⟨ht (hst _ mem_cons_self s₁ hcheck) hR, hcu⟩

end AutoLockAux

open AutoLockAux

end AutoLock

/-! ## The local chain -/

theorem localChain_autoLock : AutoLockLaws localChain Chain.delegated where
  shares (c c' : Chain) h := by
    funext v
    exact Except.ok.inj (h v)
  transfer_delegations a amt (c : Chain) v := by
    show Except.ok ((Chain.send a Chain.tierAccount amt c).2.delegated v) = _
    rcases Chain.send_cases a Chain.tierAccount amt c with h | h <;> rw [h] <;> rfl
  mint_delegations _ _ _ := rfl
  send_delegations a amt (c : Chain) v := by
    show Except.ok ((Chain.sendCredit Chain.tierAccount a amt c).2.delegated v) = _
    rw [(Chain.sendCredit_else Chain.tierAccount a amt c).2.2]
    rfl
  delegate_refused _ _ _ _ _ h := by nomatch congrArg Prod.fst h
  delegate_made amt (validator : Bytes) (c : Chain) shares c' ham h := by
    obtain rfl : (Chain.delegate amt validator true c).2 = c' := congrArg Prod.snd h
    have hd : ∀ v, (Chain.delegate amt validator true c).2.delegated v =
        if v = validator then c.delegated validator + amt else c.delegated v :=
      fun v => Function.update_apply c.delegated validator (c.delegated validator + amt) v
    refine ⟨fun v => ?_, validator, ?_⟩
    · rw [hd]
      split
      · rename_i hv
        rw [hv]
        omega
      · exact le_refl _
    · rw [hd, if_pos rfl]
      omega
  transfer_made a amt (c : Chain) c' ha h := by
    obtain rfl := Chain.send_ok h
    exact Chain.move_from amt (Ne.symm ha)
  transfer_refused a amt (c : Chain) e c' h denom := by
    rcases Chain.send_cases a Chain.tierAccount amt c with hc | hc
    · obtain rfl : c = c' := congrArg Prod.snd (hc.symm.trans h)
      rfl
    · cases congrArg Prod.fst (hc.symm.trans h)
  transfer_others a b amt (c : Chain) denom hb hm := by
    show localChain.getBalance (Chain.send a Chain.tierAccount amt c).2 b denom = _
    rcases Chain.send_cases a Chain.tierAccount amt c with hc | hc
    · rw [hc]
    · rw [hc]
      cases denom with
      | uopen => exact Chain.move_other amt hb hm
      | ucredit => rfl
  delegate_others amt (validator : Bytes) (c : Chain) b denom hm := by
    cases denom with
    | uopen => exact Function.update_of_ne hm _ _
    | ucredit => rfl
  mint_others amt (c : Chain) b denom hm := by
    cases denom with
    | uopen => rfl
    | ucredit => exact Function.update_of_ne hm _ _
  send_others a amt (c : Chain) b _ := congrFun (Chain.sendCredit_else Chain.tierAccount a amt c).1 b

/-! ### A developer who has granted a hundred credits and has none -/

def firstBlock : Ctx := ⟨5, by decide, epochStart, none⟩

/-- The chain with a developer who locks automatically and has granted a hundred credits to a user. -/
def grantedHundred (c : Chain) : State localChain :=
  { genesisOn c with
    developers := KVStore.empty.set (developerKey alice) ⟨alice, true⟩
    subscriptions := KVStore.empty.set (userSubscriptionKey alice (str "did:key:user"))
      ⟨alice, str "did:key:user", 100, epochStart, 3600, epochStart⟩
    totalDevGranted := KVStore.empty.set (totalDevGrantedKey alice) 100 }

/-- The same after the burning and the giving out of credits: nobody has a lockup. -/
def grantedReset (c : Chain) : State localChain := { grantedHundred c with totalCredits := some 0 }

def grantedChecked (c : Chain) : State localChain := (checkDeveloperCredits firstBlock (grantedReset c)).2

/-- The developer's lock in the hook, where it fails. -/
def grantedFailure (c : Chain) (error : Error) (hcheck : (checkDeveloperCredits firstBlock (grantedReset c)).1.isOk = true)
    (hdue : (grantedReset c).AutoLockDue alice)
    (hfailed : (autoLockDeveloperCredits firstBlock alice ((grantedReset c).missingCredits alice) (grantedReset c)).1 =
      .err error) : FailedAutoLock firstBlock (grantedHundred c) (grantedChecked c) where
  burned := grantedReset c
  reset := grantedReset c
  burn_ok := rfl
  reset_ok := rfl
  check_ok := ok_unit_of_isOk hcheck
  earlier := []
  developerAddr := alice
  attempted := grantedReset c
  later := []
  checks_eq := rfl
  due := hdue
  error := error
  failed := hfailed

def noValidators : Chain := { oneDelegator with validators := [] }

end Vera.Tier
