import Vera.Tier.Conservation
import Vera.Tier.Totals

/-!
# The stake behind pending unlocks

What delegators get back is recorded when they unlock; the stake for it is in the module's unbonding entries and, when these
have matured, on the module's account. No step of the module takes from the one without taking as much from the other. The
staking module does: when a validator is slashed it also slashes the entries that are unbonding from it, and the records of
the tier module stay as they are.
-/

namespace Vera.Tier

open Eff KVStore List
open Bytes (str)
open ConservationAux

/-! ## The backing -/

/-- The balances of some unbonding entries, summed. -/
def entriesSum (entries : List UnbondingEntry) : Int := (entries.map UnbondingEntry.balance).sum

/-- The stake on the module's account and in its open unbonding entries. -/
def backing (Γ : StakingEnv) (openUnbonding : Γ.σ → Int) (env : Γ.σ) : Int :=
  Γ.getBalance env Γ.moduleAddress .uopen + openUnbonding env

/-- What the bank and the staking module do to the backing. Reward payments may add to it at any time. -/
structure BackingLaws (Γ : StakingEnv) (openUnbonding : Γ.σ → Int) : Prop where
  /-- Stake received from an account, unless it is the module's own; a failed transfer takes nothing. -/
  receive : ∀ a amt env env', a ≠ Γ.moduleAddress → (Γ.delegateCoinsFromAccountToModule a amt).Succeeds env () env' →
    backing Γ openUnbonding env + amt ≤ backing Γ openUnbonding env'
  receive_err : ∀ a amt env e env', Γ.delegateCoinsFromAccountToModule a amt env = (.err e, env') →
    backing Γ openUnbonding env ≤ backing Γ openUnbonding env'
  /-- Stake paid out. -/
  pay : ∀ a amt env env', 0 ≤ amt → (Γ.undelegateCoinsFromModuleToAccount a amt).Succeeds env () env' →
    backing Γ openUnbonding env - amt ≤ backing Γ openUnbonding env'
  /-- Credits are no stake. -/
  mint : ∀ amt env, backing Γ openUnbonding env ≤ backing Γ openUnbonding (Γ.mintCoins amt env).2
  burn : ∀ amt env, backing Γ openUnbonding env ≤ backing Γ openUnbonding (Γ.burnCoins amt env).2
  sendCredit : ∀ a amt env, backing Γ openUnbonding env ≤ backing Γ openUnbonding (Γ.sendCoinsFromModuleToAccount a amt env).2
  takeCredit : ∀ a amt env, backing Γ openUnbonding env ≤ backing Γ openUnbonding (Γ.sendCoinsFromAccountToModule a amt env).2
  /-- A delegation from the module's account takes its amount at most. -/
  delegate : ∀ amt src validator env, 0 < amt →
    backing Γ openUnbonding env - amt ≤ backing Γ openUnbonding (Γ.delegate amt src validator true env).2
  /-- A delegation of stake that is unbonding leaves the account, and leaves the entries for the caller to adjust. -/
  delegateBack : ∀ amt src validator env shares env', (Γ.delegate amt src validator false).Succeeds env shares env' →
    backing Γ openUnbonding env ≤ backing Γ openUnbonding env' ∧
      ∀ valAddr, Γ.getUnbondingDelegation env' valAddr = Γ.getUnbondingDelegation env valAddr
  undelegate : ∀ env env' valAddr amt shares completionTime returnAmount, 0 < amt →
    Γ.validateUnbondAmount env valAddr amt = .ok shares →
    (Γ.undelegate valAddr shares).Succeeds env (completionTime, returnAmount) env' →
    0 ≤ returnAmount ∧ backing Γ openUnbonding env + returnAmount ≤ backing Γ openUnbonding env'
  setEntries : ∀ env env' valAddr entries entries', Γ.getUnbondingDelegation env valAddr = .ok entries →
    (Γ.setUnbondingDelegation valAddr entries').Succeeds env () env' →
    backing Γ openUnbonding env + (entriesSum entries' - entriesSum entries) ≤ backing Γ openUnbonding env'
  removeEntries : ∀ env env' valAddr entries, Γ.getUnbondingDelegation env valAddr = .ok entries →
    (Γ.removeUnbondingDelegation valAddr).Succeeds env () env' →
    backing Γ openUnbonding env - entriesSum entries ≤ backing Γ openUnbonding env'
  beginRedelegation : ∀ src dst shares env,
    backing Γ openUnbonding env ≤ backing Γ openUnbonding (Γ.beginRedelegation src dst shares env).2
  delegateInsurance : ∀ amt validator env,
    backing Γ openUnbonding env ≤ backing Γ openUnbonding (Γ.delegateInsurance amt validator env).2

/-- The amounts of all unlocking lockups, summed. -/
def State.unlockingsSum {Γ : Env} (s : State Γ) : Int := s.unlockings.sumBy fun _ u => u.amount

def PendingBacked {Γ : StakingEnv} (openUnbonding : Γ.σ → Int) (s : State Γ.toEnv) : Prop :=
  s.unlockingsSum ≤ backing Γ openUnbonding s.env

/-- A step does not lower the backing from outside: nobody locks the module's own stake, and what the other modules do by
themselves, such as maturing unbonding entries, leaves the backing, so no unbonding entry is slashed. -/
def KeepsBacking {Γ : StakingEnv} (openUnbonding : Γ.σ → Int) (s : State Γ.toEnv) : TierStep Γ → Prop
  | .lock _ delAddr _ _ => delAddr ≠ Γ.moduleAddress
  | .lockAuto _ delAddr _ => delAddr ≠ Γ.moduleAddress
  | .beforeEpochStart _ _ => ∀ e ∈ s.subscriptions.entries, ∀ developerAddr userDid,
    (userSubscriptionKeyToAddresses e.1 : Outcome Error _) = .ok (developerAddr, userDid) → developerAddr ≠ Γ.moduleAddress
  | .others env => backing Γ openUnbonding s.env ≤ backing Γ openUnbonding env
  | _ => True

namespace BackingAux

variable {Γ : StakingEnv} {openUnbonding : Γ.σ → Int} (laws : BackingLaws Γ openUnbonding)

/-! ## Calls that leave the records -/

/-- Since a state, the backing has not become less, and the unlocking lockups and subscriptions are the same. -/
structure Held (openUnbonding : Γ.σ → Int) (s₀ s : State Γ.toEnv) : Prop where
  unlockings : s.unlockings = s₀.unlockings
  subscriptions : s.subscriptions = s₀.subscriptions
  backing : backing Γ openUnbonding s₀.env ≤ backing Γ openUnbonding s.env

variable {s₀ : State Γ.toEnv}

theorem held_refl (s : State Γ.toEnv) : Held openUnbonding s s := ⟨rfl, rfl, le_refl _⟩

variable {s : State Γ.toEnv} {env : Γ.σ} {α : Type} {d v : Bytes} {ctx : Ctx} {amt creationHeight : Int}
  {entries : List UnbondingEntry} {u r : Unit}

theorem Held.congr {t : State Γ.toEnv} (hs : Held openUnbonding s₀ s) (hen : t.env = s.env)
    (hu : t.unlockings = s.unlockings) (hsu : t.subscriptions = s.subscriptions) :
    Held openUnbonding s₀ t :=
  ⟨hu.trans hs.unlockings, hsu.trans hs.subscriptions, hen ▸ hs.backing⟩

theorem Held.withEnv (hs : Held openUnbonding s₀ s)
    (hen : Tier.backing Γ openUnbonding s₀.env ≤ Tier.backing Γ openUnbonding env) :
    Held openUnbonding s₀ { s with env := env } := ⟨hs.unlockings, hs.subscriptions, hen⟩

theorem callEnv_held {w : Bytes → Error} {x : Eff Γ.σ Bytes α}
    (h : ∀ env, backing Γ openUnbonding env ≤ backing Γ openUnbonding (x env).2) :
    (callEnv w x : M Γ.toEnv α).Keeps (Held openUnbonding s₀) :=
  fun s hs _ => hs.withEnv (hs.backing.trans (h s.env))

theorem emit_held (e : Event) : (emit e : M Γ.toEnv Unit).Keeps (Held openUnbonding s₀) :=
  .modify fun _ hs => hs.congr rfl rfl rfl

theorem setTotalLockupsAmount_held (total : Int) :
    (setTotalLockupsAmount total : M Γ.toEnv Unit).Keeps (Held openUnbonding s₀) :=
  .bind (.modify fun _ hs => hs.congr rfl rfl rfl) fun _ => .ite (fun _ => .pure ()) fun _ => .crash _

theorem addLockup_held (d v : Bytes) (amount : Int) : (addLockup d v amount : M Γ.toEnv Unit).Keeps (Held openUnbonding s₀) :=
  .bind .read fun _ => .bind (setTotalLockupsAmount_held _) fun _ => .modify fun _ hs => hs.congr rfl rfl rfl

theorem subtractLockup_held (d v : Bytes) (amount : Int) :
    (subtractLockup d v amount : M Γ.toEnv Unit).Keeps (Held openUnbonding s₀) := by
  refine .bind .read fun s => ?_
  cases s.getLockup d v with
  | none => exact .fail _
  | some lockup =>
    refine .ite (fun _ => .fail _) fun _ => .bind (setTotalLockupsAmount_held _) fun _ => ?_
    exact .ite (fun _ => .modify fun _ hs => hs.congr rfl rfl rfl) fun _ => .modify fun _ hs => hs.congr rfl rfl rfl

theorem moveInsurance_held (d src dst : Bytes) : (moveInsurance d src dst : M Γ.toEnv Unit).Keeps (Held openUnbonding s₀) := by
  refine .bind .read fun s => .ite (fun _ => ?_) fun _ => .pure ()
  refine .bind (.modify fun _ hs => hs.congr rfl rfl rfl) fun _ => .bind .read fun _ => ?_
  exact .modify fun _ hs => hs.congr rfl rfl rfl

theorem adjustLockups_held (v : Bytes) (slashingRate coverageRate : Dec) :
    (adjustLockups v slashingRate coverageRate : M Γ.toEnv Unit).Keeps (Held openUnbonding s₀) := by
  refine .bind .read fun s => .forEach (fun e => .bind (.lift _) fun (d, v') => .ite (fun _ => .pure ()) fun _ => ?_) _
  refine .bind .read fun s => ?_
  cases s.getLockup d v' with
  | none => exact .fail _
  | some lockup =>
    refine .ite (fun _ => .pure ()) fun _ => .bind (setTotalLockupsAmount_held _) fun _ => .ite (fun _ => ?_) fun _ => ?_
    · exact .bind (.modify fun _ hs => hs.congr rfl rfl rfl) fun _ => .modify fun _ hs => hs.congr rfl rfl rfl
    · refine .bind (.modify fun _ hs => hs.congr rfl rfl rfl) fun _ => .ite (fun _ => ?_) fun _ => .pure ()
      exact .bind .read fun _ => .modify fun _ hs => hs.congr rfl rfl rfl

theorem setTotalCreditAmount_held (total : Int) :
    (setTotalCreditAmount total : M Γ.toEnv Unit).Keeps (Held openUnbonding s₀) :=
  .bind (.modify fun _ hs => hs.congr rfl rfl rfl) fun _ => .ite (fun _ => .crash _) fun _ => .pure ()

include laws

theorem mintCredit_held (d : Bytes) (amount : Int) : (mintCredit d amount : M Γ.toEnv Unit).Keeps (Held openUnbonding s₀) :=
  .bind (.lift _) fun _ => .require_bind fun _ => .bind (callEnv_held (laws.mint amount)) fun _ =>
    callEnv_held (laws.sendCredit d amount)

/-- A lock receives stake and delegates as much; also if it fails on the way, no other stake is gone. -/
theorem lock_held (ctx : Ctx) (d v : Bytes) (amt : Int) (hd : d ≠ Γ.moduleAddress) :
    (lock ctx d v amt : M Γ.toEnv Unit).Keeps (Held openUnbonding s₀) := by
  refine .require_bind fun hp => .bind (.query _) fun validator => newCoin_bind_keeps fun s hs => ?_
  refine Eff.KeepsAt.bind ?_ (fun _ t ht => ?_) hs
  · refine Eff.KeepsAt.of_cases (fun _ t _ h => ?_) fun e t _ h => ?_
    · obtain ⟨env, hr, rfl⟩ := callEnv_ok.1 h
      have hm := laws.receive d amt _ _ hd hr
      exact hs.withEnv (by have := hs.backing; omega)
    · obtain ⟨e', env, hfailed, rfl⟩ := callEnv_eq_err h
      exact hs.withEnv (hs.backing.trans (laws.receive_err _ _ _ _ _ hfailed))
  · obtain ⟨env, hr, rfl⟩ := callEnv_ok.1 ht
    have hm := laws.receive d amt _ _ hd hr
    have hl := laws.delegate amt .unbonded validator env hp
    refine Eff.KeepsAt.bind (fun _ _ => hs.withEnv ?_) fun _ t _ => Eff.Keeps.bind (proratedCredit_keeps ctx d amt) (fun credit => ?_) t
    · have := hs.backing
      show _ ≤ backing Γ openUnbonding (Γ.delegate amt .unbonded validator true env).2
      omega
    · refine .bind (mintCredit_held laws d credit).mapErr fun _ => .bind (addLockup_held d v amt).mapErr fun _ => ?_
      exact .bind .read fun s => .bind (setTotalCreditAmount_held _).mapErr fun _ => emit_held _

theorem hookParts_held (hd : ∀ e ∈ s₀.subscriptions.entries, ∀ developerAddr userDid,
      (userSubscriptionKeyToAddresses e.1 : Outcome Error _) = .ok (developerAddr, userDid) → developerAddr ≠ Γ.moduleAddress) :
    HookParts (Held openUnbonding s₀) (· ≠ Γ.moduleAddress) where
  burnCredit d amount := .bind (callEnv_held (laws.takeCredit d amount)) fun _ => callEnv_held (laws.burn amount)
  mintCredit := mintCredit_held laws
  setTotalCreditAmount := setTotalCreditAmount_held
  lock := lock_held laws
  emit := emit_held
  developers _ hs e he := hd e (hs.subscriptions ▸ he)

theorem lockAuto_held (ctx : Ctx) (d : Bytes) (amt : Int) (hd : d ≠ Γ.moduleAddress) :
    (lockAuto ctx d amt : M Γ.toEnv Bytes).Keeps (Held openUnbonding s₀) := by
  refine .bind (.bind (.query _) fun chosen => ?_) fun v => .bind (lock_held laws ctx d v amt hd) fun _ => .pure _
  cases chosen with
  | some v => exact .pure v
  | none => exact .query _

theorem redelegate_held (d src dst : Bytes) (amt : Int) :
    (redelegate d src dst amt : M Γ.toEnv Time).Keeps (Held openUnbonding s₀) := by
  refine .require_bind fun _ => .bind (subtractLockup_held d src amt).mapErr fun _ => ?_
  refine .bind (addLockup_held d dst amt).mapErr fun _ => .bind (moveInsurance_held d src dst) fun _ => ?_
  refine .bind (.query _) fun shares => .bind (callEnv_held (laws.beginRedelegation src dst shares)) fun _ => ?_
  exact .bind (emit_held _) fun _ => .pure _

theorem handleSlashingEvent_held (event : BlockEvent) :
    (handleSlashingEvent event : M Γ.toEnv Unit).Keeps (Held openUnbonding s₀) := by
  refine .ite (fun _ => .bind (Eff.Keeps.attempt (.ite (fun _ => ?_) fun _ => ?_)) fun _ => .pure ()) fun _ => .pure ()
  · exact .bind (.query _) fun d => .require_bind fun _ => adjustLockups_held _ _ _
  · refine .bind (.query _) fun d => .require_bind fun _ => .bind .read fun s => ?_
    exact .bind (callEnv_held (laws.delegateInsurance _ _)) fun _ => adjustLockups_held _ _ _

omit laws

/-! ## Calls that change the records -/

/-- The pending unlocks are backed, none is negative, and each is stored under the key of its height. -/
structure Solvent (openUnbonding : Γ.σ → Int) (s : State Γ.toEnv) : Prop where
  backed : PendingBacked openUnbonding s
  nonneg : ∀ key u, s.unlockings.get key = some u → 0 ≤ u.amount
  keyed : WellKeyed s

variable {s t : State Γ.toEnv}

theorem Solvent.of_held (hs : Solvent openUnbonding s) (h : Held openUnbonding s t) : Solvent openUnbonding t := by
  refine ⟨?_, ?_, hs.keyed.of_eq h.unlockings⟩
  · have hb := hs.backed
    have hm := h.backing
    unfold PendingBacked State.unlockingsSum at hb ⊢
    rw [h.unlockings]
    omega
  · rw [h.unlockings]
    exact hs.nonneg

theorem Solvent.commit_held {x : M Γ.toEnv α} (hs : Solvent openUnbonding s)
    (hx : Eff.KeepsAt (Held openUnbonding s) x s) : Solvent openUnbonding (x.commit s) :=
  hs.of_held (hx.commit (held_refl s))

theorem Solvent.set (hs : Solvent openUnbonding s) {h : Int} {u : UnlockingLockup}
    (ht : t.unlockings = s.unlockings.set (unlockingLockupKey d v h) u) (hheight : u.creationHeight = h) (ha : 0 ≤ u.amount)
    (hba : backing Γ openUnbonding s.env + u.amount - ((s.getUnlockingLockup d v h).map UnlockingLockup.amount).getD 0 ≤
      backing Γ openUnbonding t.env) : Solvent openUnbonding t := by
  have hsu : t.unlockingsSum + ((s.getUnlockingLockup d v h).map UnlockingLockup.amount).getD 0 = s.unlockingsSum + u.amount := by
    unfold State.unlockingsSum
    rw [ht]
    exact sumBy_set _ s.unlockings _ _
  refine ⟨?_, ?_, hs.keyed.set ht hheight⟩
  · have hb := hs.backed
    unfold PendingBacked at hb ⊢
    omega
  · rw [ht]
    exact All.set hs.nonneg ha

theorem Solvent.delete (hs : Solvent openUnbonding s) {h : Int}
    (ht : t.unlockings = s.unlockings.delete (unlockingLockupKey d v h))
    (hba : backing Γ openUnbonding s.env - ((s.getUnlockingLockup d v h).map UnlockingLockup.amount).getD 0 ≤
      backing Γ openUnbonding t.env) : Solvent openUnbonding t := by
  have hsu : t.unlockingsSum + ((s.getUnlockingLockup d v h).map UnlockingLockup.amount).getD 0 = s.unlockingsSum := by
    unfold State.unlockingsSum
    rw [ht]
    exact sumBy_delete _ s.unlockings _
  refine ⟨?_, ?_, hs.keyed.delete ht⟩
  · have hb := hs.backed
    unfold PendingBacked at hb ⊢
    omega
  · rw [ht]
    exact All.delete hs.nonneg _

theorem Solvent.getD_nonneg (hs : Solvent openUnbonding s) (d v : Bytes) (h : Int) :
    0 ≤ ((s.getUnlockingLockup d v h).map UnlockingLockup.amount).getD 0 := by
  cases hget : s.getUnlockingLockup d v h with
  | none => exact le_refl 0
  | some u => exact hs.nonneg _ u hget

include laws

theorem unlock_solvent {r : Int × Time × Time}
    (h : (unlock ctx d v amt).Succeeds s r t) (hs : Solvent openUnbonding s) : Solvent openUnbonding t := by
  have hp : 0 < amt := by
    unfold unlock at h
    exact (require_bind_ok.1 h).1
  obtain ⟨s₁, shares, completionTime, unlockTime, returnAmount, hsu, hv, hun, -, hu, -, -⟩ := unlock_ok h
  obtain ⟨hen₁, hu₁, -⟩ := subtractLockup_frame hsu
  obtain ⟨hno, hm⟩ := laws.undelegate _ _ _ _ _ _ _ hp hv hun
  rw [hu₁] at hu
  rw [hen₁] at hm
  have hold := hs.getD_nonneg d v ctx.blockHeight
  refine hs.set hu rfl ?_ ?_
  · dsimp only
    split <;> omega
  · dsimp only
    split <;> omega

omit laws

/-! ### Cancelling -/

theorem findEntry_spec {k i : Nat} {e : UnbondingEntry}
    (h : findEntry ctx creationHeight entries k = some (i, e)) : ∃ j, i = k + j ∧ entries[j]? = some e := by
  induction entries generalizing k with
  | nil => cases h
  | cons a rest ih =>
    unfold findEntry at h
    split at h
    · obtain ⟨rfl, rfl⟩ := Prod.mk.inj (Option.some.inj h)
      exact ⟨0, rfl, rfl⟩
    · obtain ⟨j, hi, hj⟩ := ih h
      exact ⟨j + 1, by omega, hj⟩

theorem entriesSum_takeFromEntry {i : Nat} {e : UnbondingEntry} (h : entries[i]? = some e)
    (amt : Int) : entriesSum (takeFromEntry entries i e amt) = entriesSum entries - amt := by
  unfold takeFromEntry
  induction entries generalizing i with
  | nil => cases h
  | cons a rest ih =>
    cases i with
    | zero =>
      obtain rfl := Option.some.inj h
      split
      · simp only [entriesSum, eraseIdx_zero, tail_cons, map_cons, sum_cons]
        omega
      · simp only [entriesSum, set_cons_zero, map_cons, sum_cons]
        omega
    | succ i =>
      have hrest := ih h
      split at hrest <;> rename_i hc
      · rw [if_pos hc]
        simp only [entriesSum, eraseIdx_cons_succ, map_cons, sum_cons] at hrest ⊢
        omega
      · rw [if_neg hc]
        simp only [entriesSum, set_cons_succ, map_cons, sum_cons] at hrest ⊢
        omega

theorem cancelUnlocking_entries (h : (cancelUnlocking ctx d v creationHeight amt).Succeeds s u t) :
    ∃ validator entries i e shares env₁ env₂, ∃ s₂ : State Γ.toEnv,
      Γ.getUnbondingDelegation s.env v = .ok entries ∧ entries[i]? = some e ∧
      (Γ.delegate amt .unbonding validator false).Succeeds s.env shares env₁ ∧
      (if takeFromEntry entries i e amt = [] then Γ.removeUnbondingDelegation v
        else Γ.setUnbondingDelegation v (takeFromEntry entries i e amt)).Succeeds env₁ () env₂ ∧
      (subtractUnlockingLockup d v creationHeight amt).Succeeds { s with env := env₂ } () s₂ ∧
      t.env = s₂.env ∧ t.unlockings = s₂.unlockings := by
  unfold cancelUnlocking requireValidator requireUnbondingDelegation at h
  simp only [require_bind_ok, query_bind_ok, Outcome.ofExcept_eq_ok] at h
  obtain ⟨-, validator, -, entries, hent, h⟩ := h
  obtain ⟨⟨i, e⟩, s₁, hen, hrest⟩ := bind_ok.1 h
  have hs₁ := requireEntry_ok hen
  simp only [require_bind_ok, callEnv_bind_ok] at hrest
  obtain ⟨-, shares, env₁, hd, _, env₂, hu, hrest⟩ := hrest
  obtain ⟨_, s₂, hsu, hrest⟩ := bind_ok.1 hrest
  obtain ⟨_, s₃, ha, hem⟩ := bind_ok.1 hrest
  have hs₃ := (addLockup_ok.1 (mapErr_ok.1 ha)).2
  have ht := emit_ok.1 hem
  subst hs₃ ht hs₁
  have hf : entries[i]? = some e := by
    unfold requireEntry at hen
    split at hen
    · exact absurd hen fail_ok
    · rename_i found hfi
      obtain rfl := (pure_ok.1 hen).1
      obtain ⟨j, hi, hj⟩ := findEntry_spec hfi
      rw [Nat.zero_add] at hi
      exact hi ▸ hj
  exact ⟨validator, entries, i, e, shares, env₁, env₂, s₂, hent, hf, hd, hu, mapErr_ok.1 hsu, rfl, rfl⟩

theorem subtractUnlockingLockup_solvent
    (h : (subtractUnlockingLockup d v creationHeight amt).Succeeds { s with env := env } u t) (hs : Solvent openUnbonding s)
    (hb : backing Γ openUnbonding s.env - amt ≤ backing Γ openUnbonding env) : Solvent openUnbonding t := by
  obtain ⟨old, hold, hca⟩ := subtractUnlockingLockup_ok h
  have hget : s.getUnlockingLockup d v creationHeight = some old := hold
  have hle := subtractUnlockingLockup_le h hold
  rcases hca with ⟨heq, rfl⟩ | ⟨new, hheight, ha, rfl⟩
  · refine hs.delete rfl ?_
    rw [hget, Option.map_some, Option.getD_some, ← heq]
    exact hb
  · refine hs.set rfl hheight (by omega) ?_
    rw [hget, Option.map_some, Option.getD_some, ha]
    show _ ≤ backing Γ openUnbonding env
    omega

include laws

theorem cancelUnlocking_solvent
    (h : (cancelUnlocking ctx d v creationHeight amt).Succeeds s u t) (hs : Solvent openUnbonding s) :
    Solvent openUnbonding t := by
  obtain ⟨validator, entries, i, e, shares, env₁, env₂, s₂, hen, hf, hd, hup, hsub, henv, hu⟩ :=
    cancelUnlocking_entries h
  obtain ⟨hm, hsame⟩ := laws.delegateBack _ _ _ _ _ _ hd
  rw [← hsame] at hen
  have hsu := entriesSum_takeFromEntry hf amt
  have hl : backing Γ openUnbonding s.env - amt ≤ backing Γ openUnbonding env₂ := by
    split at hup
    · rename_i hempty
      have hr := laws.removeEntries _ _ _ _ hen hup
      rw [hempty] at hsu
      change 0 = _ at hsu
      omega
    · have hse := laws.setEntries _ _ _ _ _ hen hup
      omega
  have hs₂ := subtractUnlockingLockup_solvent hsub hs hl
  refine ⟨?_, ?_, hs₂.keyed.of_eq hu⟩
  · have hb := hs₂.backed
    unfold PendingBacked State.unlockingsSum at hb ⊢
    rw [henv, hu]
    exact hb
  · rw [hu]
    exact hs₂.nonneg

/-! ### Redeeming -/

theorem afterEpochEnd_solvent {identifier : Bytes}
    (h : (afterEpochEnd ctx identifier).Succeeds s r t) (hs : Solvent openUnbonding s) : Solvent openUnbonding t := by
  unfold afterEpochEnd at h
  split at h
  · exact (pure_ok.1 h).2 ▸ hs
  refine completeUnlocking_induction (fun _ => Solvent.keyed) (fun s d v env u hs hget _ hno hp => ?_) (mapErr_ok.1 h) hs
  refine hs.delete rfl ?_
  unfold State.getUnlockingLockup
  rw [hget, Option.map_some, Option.getD_some]
  exact laws.pay _ _ _ _ hno hp

/-! ## Runs -/

theorem tierStep_solvent (s : State Γ.toEnv) (m : TierStep Γ) (hs : Solvent openUnbonding s)
    (hke : KeepsBacking openUnbonding s m) : Solvent openUnbonding (tierStep s m) := by
  cases m with
  | lock ctx d v amt => exact hs.commit_held (lock_held laws ctx d v amt hke s)
  | lockAuto ctx d amt => exact hs.commit_held (lockAuto_held laws ctx d amt hke s)
  | unlock ctx d v amt => exact commit_of_ok hs fun _ _ h => unlock_solvent laws h hs
  | redelegate d src dst amt => exact hs.commit_held (redelegate_held laws d src dst amt s)
  | cancelUnlocking ctx d v h amt => exact commit_of_ok hs fun _ _ h => cancelUnlocking_solvent laws h hs
  | beforeEpochStart ctx identifier =>
    exact hs.commit_held ((hookParts_held laws hke).beforeEpochStart ctx identifier s)
  | afterEpochEnd ctx identifier => exact commit_of_ok hs fun _ _ h => afterEpochEnd_solvent laws h hs
  | adjustLockups v rate coverage => exact hs.commit_held ((adjustLockups_held v rate coverage).attempt s)
  | slashingEvent event => exact hs.commit_held (handleSlashingEvent_held laws event s)
  | others env => exact hs.of_held ⟨rfl, rfl, hke⟩

end BackingAux

open BackingAux

/-- In every run from a state without pending unlocks and with a backing that is not negative, whose steps do not lower the
backing from outside, the pending unlocks are backed. -/
theorem pending_backed {Γ : StakingEnv} {openUnbonding : Γ.σ → Int} (laws : BackingLaws Γ openUnbonding)
    {s : State Γ.toEnv} (hempty : s.unlockings = KVStore.empty) (hbacking : 0 ≤ backing Γ openUnbonding s.env)
    (steps : List (TierStep Γ)) (hkeep : Run.AllSteps tierStep (KeepsBacking openUnbonding) s steps) :
    PendingBacked openUnbonding (Run.run tierStep s steps) := by
  refine (Run.run_induction tierStep (tierStep_solvent laws) hkeep ⟨?_, ?_, ?_⟩).backed
  · unfold PendingBacked State.unlockingsSum
    rw [hempty]
    exact hbacking
  · intro key u h
    rw [hempty] at h
    cases h
  · intro key u h
    rw [hempty] at h
    cases h

/-! ## The local chain with one validator -/

/-- The open unbonding entries of the local chain with one validator. -/
def localUnbonding (w : LocalValidator) (c : Chain) : Int := entriesSum (c.unbonding w.operatorAddress)

namespace BackingAux

variable {w : LocalValidator}

variable {c : Chain} {v : Bytes}

theorem localBacking_le {c' : Chain} (huo : c'.uopen Chain.tierAccount = c.uopen Chain.tierAccount)
    (hu : c'.unbonding = c.unbonding) :
    backing (localStaking [w]) (localUnbonding w) c ≤ backing (localStaking [w]) (localUnbonding w) c' := by
  show c.uopen Chain.tierAccount + entriesSum (c.unbonding w.operatorAddress) ≤
    c'.uopen Chain.tierAccount + entriesSum (c'.unbonding w.operatorAddress)
  rw [huo, hu]

theorem localBacking_sendCredit (a b : Bytes) (amount : Int) (c : Chain) : backing (localStaking [w]) (localUnbonding w) c ≤
      backing (localStaking [w]) (localUnbonding w) (Chain.sendCredit a b amount c).2 :=
  localBacking_le (congrFun (Chain.sendCredit_else a b amount c).1 _) (Chain.sendCredit_else a b amount c).2.1

theorem localUnbonding_of_get {entries : List UnbondingEntry}
    (h : (localStaking [w]).getUnbondingDelegation c v = .ok entries) :
    v = w.operatorAddress ∧ entries = c.unbonding w.operatorAddress := by
  change (if (∃ w' ∈ [w], w'.operatorAddress = v) ∧ c.unbonding v ≠ [] then Except.ok (c.unbonding v) else _) = _ at h
  by_cases hif : (∃ w' ∈ [w], w'.operatorAddress = v) ∧ c.unbonding v ≠ []
  · rw [if_pos hif] at h
    obtain ⟨⟨w', hmem, rfl⟩, -⟩ := hif
    rw [mem_singleton] at hmem
    subst hmem
    exact ⟨rfl, (Except.ok.inj h).symm⟩
  · rw [if_neg hif] at h
    cases h

theorem localValidate_ok {amt : Int} {shares : Int}
    (h : (localStaking [w]).validateUnbondAmount c v amt = .ok shares) : v = w.operatorAddress ∧ shares = amt := by
  change (if (∃ w' ∈ [w], w'.operatorAddress = v) ∧ amt ≤ c.delegated v then Except.ok amt
    else (.error (str "invalid shares amount") : Except Bytes Int)) = .ok shares at h
  by_cases hif : (∃ w' ∈ [w], w'.operatorAddress = v) ∧ amt ≤ c.delegated v
  · rw [if_pos hif] at h
    obtain ⟨⟨w', hmem, rfl⟩, -⟩ := hif
    rw [mem_singleton] at hmem
    subst hmem
    exact ⟨rfl, (Except.ok.inj h).symm⟩
  · rw [if_neg hif] at h
    cases h

end BackingAux

/-- The local chain with one validator does what is asked of the bank and the staking module. -/
theorem localStaking_backing (w : LocalValidator) : BackingLaws (localStaking [w]) (localUnbonding w) where
  receive a amt (c : Chain) c' ha h := by
    obtain rfl := Chain.send_ok h
    show c.uopen Chain.tierAccount + localUnbonding w c + amt ≤
      Chain.move c.uopen a Chain.tierAccount amt Chain.tierAccount + localUnbonding w c
    rw [Chain.move_to amt (a := a) (b := Chain.tierAccount) (Ne.symm ha)]
    omega
  receive_err a amt (c : Chain) e (c' : Chain) h := by
    rcases Chain.send_cases a Chain.tierAccount amt c with hc | hc
    · obtain rfl : c = c' := congrArg Prod.snd (hc.symm.trans h)
      exact le_refl _
    · cases congrArg Prod.fst (hc.symm.trans h)
  pay a amt (c : Chain) c' ham h := by
    obtain rfl := Chain.send_ok h
    show c.uopen Chain.tierAccount + localUnbonding w c - amt ≤
      Chain.move c.uopen Chain.tierAccount a amt Chain.tierAccount + localUnbonding w c
    by_cases ha : a = Chain.tierAccount
    · subst ha
      rw [Chain.move_self]
      omega
    · rw [Chain.move_from amt ha]
      omega
  mint _ _ := localBacking_le rfl rfl
  burn _ _ := localBacking_le rfl rfl
  sendCredit a amt c := localBacking_sendCredit _ _ _ _
  takeCredit a amt c := localBacking_sendCredit _ _ _ _
  delegate amt _ validator (c : Chain) _ := by
    show c.uopen Chain.tierAccount + localUnbonding w c - amt ≤
      Function.update c.uopen Chain.tierAccount (c.uopen Chain.tierAccount - amt) Chain.tierAccount + localUnbonding w c
    rw [Function.update_self]
    omega
  delegateBack amt _ validator (c : Chain) shares c' h := by
    obtain rfl : (Chain.delegate amt validator.operatorAddress false c).2 = c' := congrArg Prod.snd h
    exact ⟨le_refl _, fun _ => rfl⟩
  undelegate (c : Chain) c' v amt shares completionTime returnAmount ham hv h := by
    obtain ⟨rfl, hs⟩ := localValidate_ok hv
    have hr : returnAmount = shares := Chain.undelegate_ok h
    have hc' : (Chain.undelegate w.operatorAddress shares c).2 = c' := congrArg Prod.snd h
    rw [hs] at hr hc'
    subst hr hc'
    refine ⟨by omega, ?_⟩
    show c.uopen Chain.tierAccount + entriesSum (c.unbonding w.operatorAddress) + returnAmount ≤
      c.uopen Chain.tierAccount + entriesSum (Function.update c.unbonding w.operatorAddress _ w.operatorAddress)
    rw [Function.update_self]
    simp only [entriesSum, map_append, map_cons, map_nil, sum_append, sum_cons, sum_nil]
    omega
  setEntries (c : Chain) c' v entries entries' hget h := by
    obtain ⟨rfl, rfl⟩ := localUnbonding_of_get hget
    obtain rfl := modify_ok.1 h
    show c.uopen Chain.tierAccount + entriesSum (c.unbonding w.operatorAddress) + (entriesSum entries' - _) ≤
      c.uopen Chain.tierAccount + entriesSum (Function.update c.unbonding w.operatorAddress entries' w.operatorAddress)
    rw [Function.update_self]
    omega
  removeEntries (c : Chain) c' v entries hget h := by
    obtain ⟨rfl, rfl⟩ := localUnbonding_of_get hget
    obtain rfl := modify_ok.1 h
    show c.uopen Chain.tierAccount + entriesSum (c.unbonding w.operatorAddress) - _ ≤
      c.uopen Chain.tierAccount + entriesSum (Function.update c.unbonding w.operatorAddress [] w.operatorAddress)
    rw [Function.update_self]
    show _ ≤ c.uopen Chain.tierAccount + 0
    omega
  beginRedelegation _ _ _ _ := localBacking_le rfl rfl
  delegateInsurance amt _ (c : Chain) := by
    rw [show ((localStaking [w]).delegateInsurance amt _ c).2 =
      (Chain.send Chain.insurancePool (str "bonded tokens pool..") amt c).2 from bind_pure_snd _ _ _]
    rcases Chain.send_cases Chain.insurancePool (str "bonded tokens pool..") amt c with hc | hc
    · rw [hc]
    · rw [hc]
      refine localBacking_le ?_ rfl
      show Chain.move c.uopen Chain.insurancePool (str "bonded tokens pool..") amt Chain.tierAccount = _
      exact Chain.move_other amt (by decide) (by decide)

/-- The chain when the unbonding of 40 has matured: they are on the module's account. -/
def maturedForty : Chain :=
  { oneDelegator with
    uopen := Function.update (Function.update (fun _ => 0) alice 900) Chain.tierAccount 40
    delegated := Function.update (fun _ => 0) operator 60 }

/-- A lock of 100, an unlock of 40 that matures and is paid, and an unlock of 5 of which 2 are cancelled: 3 are pending. -/
theorem pending_backed_matured :
    let s := emptyState (localStaking [⟨operator, 1000, Dec.ofInt 1000⟩]).toEnv oneDelegator
    let steps : List (TierStep (localStaking [⟨operator, 1000, Dec.ofInt 1000⟩])) :=
      [.lock (midEpoch 5) alice operator 100, .unlock (midEpoch 5) alice operator 40, .others maturedForty,
        .afterEpochEnd afterUnbonding epochIdentifier, .unlock (midEpoch 5) alice operator 5,
        .cancelUnlocking (midEpoch 5) alice operator 5 2]
    PendingBacked (localUnbonding ⟨operator, 1000, Dec.ofInt 1000⟩) (Run.run tierStep s steps) ∧
      (Run.run tierStep s steps).unlockingsSum = 3 :=
  ⟨pending_backed (localStaking_backing _) rfl (by decide +kernel) _
      ⟨show alice ≠ Chain.tierAccount by decide, trivial, show (_ : Int) ≤ _ by decide +kernel, trivial, trivial,
        trivial, trivial⟩,
    by decide +kernel⟩

/-- The chain after a slash of a half: the entry that is unbonding lost half of its balance. -/
def slashedUnbonding : Chain :=
  { oneDelegator with
    uopen := Function.update (fun _ => 0) alice 900
    delegated := Function.update (fun _ => 0) operator 30
    unbonding := Function.update (fun _ => []) operator [⟨5, oneDelegator.now.add Chain.unbondingTime, 20⟩] }

/-- A lock of 100, an unlock of 40 and a slash of a half: 40 are pending, 20 are behind them. -/
theorem pending_backed_false :
    let w : LocalValidator := ⟨operator, 1000, Dec.ofInt 1000⟩
    let s := Run.run tierStep (emptyState (localStaking [w]).toEnv oneDelegator)
      [.lock (midEpoch 5) alice operator 100, .unlock (midEpoch 5) alice operator 40, .others slashedUnbonding]
    s.unlockingsSum = 40 ∧ backing (localStaking [w]) (localUnbonding w) s.env = 20 ∧ ¬ PendingBacked (localUnbonding w) s :=
  ⟨by decide +kernel, by decide +kernel, show ¬ (_ : Int) ≤ _ by decide +kernel⟩

end Vera.Tier
