import Vera.Lib.Run
import Vera.Tier.Keeper
import Vera.Tier.LocalChain

/-!
# Conservation of locked stake

A delegator's stake with a validator is locked, is being unlocked, or has been redeemed. The reports of the module say how
much was locked and how much was redeemed; the store says how much is locked and how much is being unlocked. The two agree
along every run in which no unlock meets a record that was made for the same pair at the same height: such an unlock
overwrites the record, and its amount is lost.
-/

namespace Vera.Tier

open Eff KVStore

variable {Γ : Env}

/-- The actions that move stake, and a change of the other modules' state between them. -/
inductive StakeStep (Γ : Env) where
  | lock (ctx : Ctx) (delAddr valAddr : Bytes) (amt : Int)
  | unlock (ctx : Ctx) (delAddr valAddr : Bytes) (amt : Int)
  | cancelUnlocking (ctx : Ctx) (delAddr valAddr : Bytes) (creationHeight amt : Int)
  | completeUnlocking (ctx : Ctx)
  | others (env : Γ.σ)

/-- A message that fails changes nothing; nor does a redemption that fails, as the epoch hook runs in a cached context. -/
def stakeStep (s : State Γ) : StakeStep Γ → State Γ
  | .lock ctx delAddr valAddr amt => (lock ctx delAddr valAddr amt).commit s
  | .unlock ctx delAddr valAddr amt => (unlock ctx delAddr valAddr amt).commit s
  | .cancelUnlocking ctx delAddr valAddr creationHeight amt =>
    (cancelUnlocking ctx delAddr valAddr creationHeight amt).commit s
  | .completeUnlocking ctx => (completeUnlocking ctx).commit s
  | .others env => { s with env := env }

/-! ## The law -/

/-- What an event reports as locked for a pair. -/
def lockedIn (delAddr valAddr : Bytes) : Event → Int
  | .lock d v amt _ => if d = delAddr ∧ v = valAddr then amt else 0
  | _ => 0

/-- What an event reports as paid out for a pair. -/
def paidIn (delAddr valAddr : Bytes) : Event → Int
  | .completeUnlocking d v _ amt => if d = delAddr ∧ v = valAddr then amt else 0
  | _ => 0

/-- The total amount a delegator has locked with a validator. -/
def State.totalLocked (s : State Γ) (delAddr valAddr : Bytes) : Int := (s.events.map (lockedIn delAddr valAddr)).sum

/-- The total amount that was paid out for a pair. -/
def State.totalPaid (s : State Γ) (delAddr valAddr : Bytes) : Int := (s.events.map (paidIn delAddr valAddr)).sum

/-- What a record counts for a pair: its amount if it is stored under a key of the pair. -/
def pairAmount (delAddr valAddr : Bytes) (key : Bytes) (u : UnlockingLockup) : Int :=
  if key = unlockingLockupKey delAddr valAddr u.creationHeight then u.amount else 0

/-- The amounts of a pair's unlocking lockups, summed. -/
def State.unlockingAmount (s : State Γ) (delAddr valAddr : Bytes) : Int := s.unlockings.sumBy (pairAmount delAddr valAddr)

/-- What was locked is locked, or being unlocked, or paid out. -/
def Conserved (delAddr valAddr : Bytes) (s : State Γ) : Prop :=
  s.totalLocked delAddr valAddr =
    s.getLockupAmount delAddr valAddr + s.unlockingAmount delAddr valAddr + s.totalPaid delAddr valAddr

/-- No stake was locked yet. -/
structure State.Fresh (s : State Γ) : Prop where
  lockups : s.lockups = KVStore.empty
  unlockings : s.unlockings = KVStore.empty
  events : s.events = []

/-- The staking module undelegates what it was asked for. -/
def ExactUndelegation (Γ : Env) : Prop :=
  ∀ (env env' : Γ.σ) (valAddr : Bytes) (amt : Int) (shares : Γ.Shares) (completionTime : Time) (returnAmount : Int),
    Γ.validateUnbondAmount env valAddr amt = .ok shares →
    (Γ.undelegate valAddr shares).Succeeds env (completionTime, returnAmount) env' → returnAmount = amt

/-- A step keeps the account of a pair: an unlock of the pair meets no record of the current height. For pairs of addresses
of twenty bytes that is all; a longer or shorter address can give the key of another pair, so a lock of another pair must
have another key, and a redemption must read the pair from its own key. -/
def KeepsAccount (delAddr valAddr : Bytes) (s : State Γ) : StakeStep Γ → Prop
  | .lock _ d v _ => lockupKey d v = lockupKey delAddr valAddr → d = delAddr ∧ v = valAddr
  | .unlock ctx d v _ => lockupKey d v = lockupKey delAddr valAddr → s.getUnlockingLockup d v ctx.blockHeight = none
  | .cancelUnlocking .. => True
  | .completeUnlocking _ =>
    ∀ d v, (lockupKeyToAddresses (lockupKey delAddr valAddr) : Outcome Error (Bytes × Bytes)) = .ok (d, v) →
      d = delAddr ∧ v = valAddr
  | .others _ => True

namespace ConservationAux

/-! ## The quantities after a change of the store -/

variable {s t : State Γ} {d v d' v' : Bytes} {amount amt : Int} {u r : Unit} {ctx : Ctx}

theorem totalLocked_congr (h : t.events = s.events) (d v : Bytes) : t.totalLocked d v = s.totalLocked d v := by
  unfold State.totalLocked
  rw [h]

theorem totalPaid_congr (h : t.events = s.events) (d v : Bytes) : t.totalPaid d v = s.totalPaid d v := by
  unfold State.totalPaid
  rw [h]

theorem unlockingAmount_congr (h : t.unlockings = s.unlockings) (d v : Bytes) :
    t.unlockingAmount d v = s.unlockingAmount d v := by
  unfold State.unlockingAmount
  rw [h]

theorem getLockupAmount_congr (h : t.lockups = s.lockups) (d v : Bytes) :
    t.getLockupAmount d v = s.getLockupAmount d v := by
  unfold State.getLockupAmount State.getLockup
  rw [h]

theorem totalLocked_append {e : Event} (h : t.events = s.events ++ [e]) (d v : Bytes) :
    t.totalLocked d v = s.totalLocked d v + lockedIn d v e := by
  simp [State.totalLocked, h]

theorem totalPaid_append {e : Event} (h : t.events = s.events ++ [e]) (d v : Bytes) :
    t.totalPaid d v = s.totalPaid d v + paidIn d v e := by
  simp [State.totalPaid, h]

theorem getLockupAmount_set (h : t.lockups = s.withLockup d v amount) (d' v' : Bytes) :
    t.getLockupAmount d' v' = if lockupKey d v = lockupKey d' v' then amount else s.getLockupAmount d' v' := by
  unfold State.getLockupAmount State.getLockup
  rw [h, State.withLockup, get_set]
  by_cases hk : lockupKey d v = lockupKey d' v'
  · rw [if_pos hk.symm, if_pos hk]
    rfl
  · rw [if_neg (Ne.symm hk), if_neg hk]

theorem getLockupAmount_delete (h : t.lockups = s.lockups.delete (lockupKey d v)) (d' v' : Bytes) :
    t.getLockupAmount d' v' = if lockupKey d v = lockupKey d' v' then 0 else s.getLockupAmount d' v' := by
  unfold State.getLockupAmount State.getLockup
  rw [h, get_delete]
  by_cases hk : lockupKey d v = lockupKey d' v'
  · rw [if_pos hk.symm, if_pos hk]
    rfl
  · rw [if_neg (Ne.symm hk), if_neg hk]

theorem getLockupAmount_of_key_eq (s : State Γ) (h : lockupKey d v = lockupKey d' v') :
    s.getLockupAmount d v = s.getLockupAmount d' v' := by
  unfold State.getLockupAmount State.getLockup
  rw [h]

theorem getLockupAmount_subtract (h : (subtractLockup d v amount).Succeeds s u t) (d' v' : Bytes) :
    t.getLockupAmount d' v' = s.getLockupAmount d' v' - if lockupKey d v = lockupKey d' v' then amount else 0 := by
  obtain ⟨lockup, hl, h⟩ := subtractLockup_ok h
  have hold : s.getLockupAmount d v = lockup.amount := by
    unfold State.getLockupAmount
    rw [hl]
    rfl
  rcases h with ⟨heq, rfl⟩ | ⟨-, rfl⟩
  · rw [getLockupAmount_delete rfl]
    split
    · rename_i hk
      rw [← getLockupAmount_of_key_eq s hk]
      omega
    · omega
  · rw [getLockupAmount_set rfl]
    split
    · rename_i hk
      rw [← getLockupAmount_of_key_eq s hk]
      omega
    · omega

/-! ### Unlocking lockups -/

/-- Every unlocking lockup is stored under the key of its height. -/
def WellKeyed (s : State Γ) : Prop :=
  ∀ key u, s.unlockings.get key = some u → ∃ d v, key = unlockingLockupKey d v u.creationHeight

theorem pairAmount_key (d v d' v' : Bytes) {h : Int} {u : UnlockingLockup} (hu : u.creationHeight = h) :
    pairAmount d' v' (unlockingLockupKey d v h) u = if lockupKey d v = lockupKey d' v' then u.amount else 0 := by
  subst hu
  unfold pairAmount
  exact if_congr (by simp [unlockingLockupKey_inj]) rfl rfl

theorem WellKeyed.creationHeight_eq (hs : WellKeyed s) {h : Int} {u : UnlockingLockup}
    (hu : s.getUnlockingLockup d v h = some u) : u.creationHeight = h := by
  obtain ⟨d', v', hke⟩ := hs _ u hu
  exact (unlockingLockupKey_inj.1 hke).2.symm

theorem WellKeyed.set (hs : WellKeyed s) {h : Int} {u : UnlockingLockup}
    (ht : t.unlockings = s.unlockings.set (unlockingLockupKey d v h) u) (hu : u.creationHeight = h) : WellKeyed t := by
  unfold WellKeyed
  rw [ht]
  exact All.set hs ⟨d, v, by rw [hu]⟩

theorem WellKeyed.delete (hs : WellKeyed s) {k : Bytes} (ht : t.unlockings = s.unlockings.delete k) : WellKeyed t := by
  unfold WellKeyed
  rw [ht]
  exact All.delete hs _

theorem WellKeyed.of_eq (hs : WellKeyed s) (ht : t.unlockings = s.unlockings) : WellKeyed t := by
  intro key w hw
  exact hs key w (ht ▸ hw)

theorem unlockingAmount_new {h : Int} {u : UnlockingLockup}
    (ht : t.unlockings = s.unlockings.set (unlockingLockupKey d v h) u) (hu : u.creationHeight = h)
    (hnone : lockupKey d v = lockupKey d' v' → s.getUnlockingLockup d v h = none) (hs : WellKeyed s) :
    t.unlockingAmount d' v' = s.unlockingAmount d' v' + if lockupKey d v = lockupKey d' v' then u.amount else 0 := by
  have hsu := sumBy_set (pairAmount d' v') s.unlockings (unlockingLockupKey d v h) u
  rw [pairAmount_key d v d' v' hu, ← ht] at hsu
  -- A record that is overwritten counts for the pair only if it is one of the pair's.
  have hold : ((s.unlockings.get (unlockingLockupKey d v h)).map (pairAmount d' v' (unlockingLockupKey d v h))).getD 0 = 0 := by
    cases hget : s.unlockings.get (unlockingLockupKey d v h) with
    | none => rfl
    | some w =>
      have hne : lockupKey d v ≠ lockupKey d' v' := fun heq => nomatch hget.symm.trans (hnone heq)
      rw [Option.map_some, Option.getD_some, pairAmount_key d v d' v' (hs.creationHeight_eq hget), if_neg hne]
  rw [hold, add_zero] at hsu
  exact hsu

theorem unlockingAmount_subtract (hs : WellKeyed s) {h : Int}
    (hsub : (subtractUnlockingLockup d v h amount).Succeeds s u t) (d' v' : Bytes) :
    t.unlockingAmount d' v' = s.unlockingAmount d' v' - if lockupKey d v = lockupKey d' v' then amount else 0 := by
  obtain ⟨old, hold, hca⟩ := subtractUnlockingLockup_ok hsub
  have hget : s.unlockings.get (unlockingLockupKey d v h) = some old := hold
  have hco := pairAmount_key d v d' v' (hs.creationHeight_eq hold)
  rcases hca with ⟨heq, rfl⟩ | ⟨new, hnew, ha, rfl⟩
  · have hsu := sumBy_delete (pairAmount d' v') s.unlockings (unlockingLockupKey d v h)
    rw [hget, Option.map_some, Option.getD_some, hco] at hsu
    rw [heq]
    exact eq_sub_of_add_eq hsu
  · have hsu := sumBy_set (pairAmount d' v') s.unlockings (unlockingLockupKey d v h) new
    rw [hget, Option.map_some, Option.getD_some, hco, pairAmount_key d v d' v' hnew] at hsu
    show (s.unlockings.set (unlockingLockupKey d v h) new).sumBy (pairAmount d' v') = s.unlockings.sumBy (pairAmount d' v') - _
    split at hsu <;> rename_i hk
    · rw [if_pos hk]
      omega
    · rw [if_neg hk]
      omega

/-! ## One step -/

/-- The law for a pair, with what the steps need of the store. -/
structure Account (d v : Bytes) (s : State Γ) : Prop where
  wellKeyed : WellKeyed s
  conserved : Conserved d v s

theorem lock_account (h : (lock ctx d' v' amt).Succeeds s u t) (hke : lockupKey d' v' = lockupKey d v → d' = d ∧ v' = v)
    (hs : Account d v s) : Account d v t := by
  obtain ⟨env, totalLockups, totalCredits, credit, rfl⟩ := lock_ok h
  refine ⟨hs.wellKeyed.of_eq rfl, ?_⟩
  have hold := hs.conserved
  unfold Conserved at hold ⊢
  rw [totalLocked_append rfl, totalPaid_append rfl, getLockupAmount_set rfl]
  show _ + _ = _ + s.unlockingAmount d v + (s.totalPaid d v + 0)
  by_cases hk : lockupKey d' v' = lockupKey d v
  · obtain ⟨rfl, rfl⟩ := hke hk
    rw [if_pos rfl, lockedIn, if_pos ⟨rfl, rfl⟩]
    omega
  · have hne : ¬(d' = d ∧ v' = v) := fun ⟨h1, h2⟩ => hk (by rw [h1, h2])
    rw [if_neg hk, lockedIn, if_neg hne]
    omega

theorem subtractLockup_frame (h : (subtractLockup d v amount).Succeeds s u t) :
    t.env = s.env ∧ t.unlockings = s.unlockings ∧ t.events = s.events := by
  obtain ⟨_, -, ⟨-, rfl⟩ | ⟨-, rfl⟩⟩ := subtractLockup_ok h
  · exact ⟨rfl, rfl, rfl⟩
  · exact ⟨rfl, rfl, rfl⟩

theorem unlock_account (hexa : ExactUndelegation Γ) {r : Int × Time × Time} (h : (unlock ctx d' v' amt).Succeeds s r t)
    (hke : lockupKey d' v' = lockupKey d v → s.getUnlockingLockup d' v' ctx.blockHeight = none)
    (hs : Account d v s) : Account d v t := by
  obtain ⟨s₁, shares, completionTime, unlockTime, returnAmount, hsu, hv, hund, hl, hun, hev, -⟩ := unlock_ok h
  obtain rfl := hexa _ _ _ _ _ _ _ hv hund
  rw [ite_self] at hun hev
  obtain ⟨-, hu₁, he₁⟩ := subtractLockup_frame hsu
  have hs₁ : WellKeyed s₁ := hs.wellKeyed.of_eq hu₁
  refine ⟨hs₁.set hun rfl, ?_⟩
  have hnone : lockupKey d' v' = lockupKey d v → s₁.getUnlockingLockup d' v' ctx.blockHeight = none := by
    intro hk
    unfold State.getUnlockingLockup
    rw [hu₁]
    exact hke hk
  have hold := hs.conserved
  unfold Conserved at hold ⊢
  rw [totalLocked_append hev, totalPaid_append hev, getLockupAmount_congr hl, getLockupAmount_subtract hsu,
    unlockingAmount_new hun rfl hnone hs₁, unlockingAmount_congr hu₁, totalLocked_congr he₁, totalPaid_congr he₁]
  dsimp only [lockedIn, paidIn]
  omega

theorem cancelUnlocking_account {creationHeight : Int}
    (h : (cancelUnlocking ctx d' v' creationHeight amt).Succeeds s u t) (hs : Account d v s) : Account d v t := by
  obtain ⟨env, s₂, hsu, rfl⟩ := cancelUnlocking_ok h
  have ha := unlockingAmount_subtract (s := { s with env := env }) (hs.wellKeyed.of_eq rfl) hsu d v
  obtain ⟨old, -, hca⟩ := subtractUnlockingLockup_ok hsu
  have hf : s₂.lockups = s.lockups ∧ s₂.events = s.events ∧ WellKeyed s₂ := by
    rcases hca with ⟨-, rfl⟩ | ⟨new, hnew, -, rfl⟩
    · exact ⟨rfl, rfl, hs.wellKeyed.delete rfl⟩
    · exact ⟨rfl, rfl, hs.wellKeyed.set rfl hnew⟩
  obtain ⟨hl, hev, hke⟩ := hf
  refine ⟨hke.of_eq rfl, ?_⟩
  have hold := hs.conserved
  unfold Conserved at hold ⊢
  rw [totalLocked_append rfl, totalPaid_append rfl, getLockupAmount_set rfl, getLockupAmount_congr hl,
    getLockupAmount_congr hl, totalLocked_congr hev, totalPaid_congr hev]
  show _ = _ + s₂.unlockingAmount d v + _
  rw [ha]
  show _ = _ + (s.unlockingAmount d v - _) + _
  dsimp only [lockedIn, paidIn]
  by_cases hk : lockupKey d' v' = lockupKey d v
  · rw [if_pos hk, if_pos hk, getLockupAmount_of_key_eq s hk]
    omega
  · rw [if_neg hk, if_neg hk]
    omega

/-! ## The redemptions of one epoch -/

/-- What is kept when one record is paid and removed is kept by the loop over all of them: a record not yet met is still in the
store, as only records already met were removed. -/
theorem completeUnlocking_induction {P : State Γ → Prop} (hkeye : ∀ s, P s → WellKeyed s)
    (hp : ∀ s d v env u, P s → s.unlockings.get (unlockingLockupKey d v u.creationHeight) = some u →
      (lockupKeyToAddresses (lockupKey d v) : Outcome Error (Bytes × Bytes)) = .ok (d, v) → 0 ≤ u.amount →
      (Γ.undelegateCoinsFromModuleToAccount d u.amount).Succeeds s.env () env →
      P { s with
        env := env
        unlockings := s.unlockings.delete (unlockingLockupKey d v u.creationHeight)
        events := s.events ++ [.completeUnlocking d v u.creationHeight u.amount] })
    (h : (completeUnlocking ctx).Succeeds s r t) (hs : P s) : P t := by
  unfold completeUnlocking at h
  rw [read_bind_ok, mapErr_ok] at h
  have hmem : ∀ e ∈ s.unlockings.entries, s.unlockings.get e.1 = some e.2 := fun e he => s.unlockings.mem_entries.1 he
  have hd : s.unlockings.entries.Pairwise fun a b => a.1 ≠ b.1 := by
    refine s.unlockings.sorted.imp fun {a b} hlt heq => ?_
    rw [heq] at hlt
    simp at hlt
  generalize s.unlockings.entries = entries at h hmem hd
  induction entries generalizing s with
  | nil => exact (pure_ok.1 h).2 ▸ hs
  | cons e rest ih =>
    obtain ⟨_, s₁, he, hrest⟩ := bind_ok.1 h
    obtain ⟨hne, hd⟩ := List.pairwise_cons.1 hd
    have hget := hmem e List.mem_cons_self
    have hmem := fun e' he' => hmem e' (List.mem_cons_of_mem _ he')
    unfold redeemEntry at he
    simp only [bind_ok, lift_ok, mapErr_ok] at he
    obtain ⟨⟨d₁, v₁, h₁⟩, s', ⟨hre, hs'⟩, hr⟩ := he
    rw [hs'] at hr
    rcases redeem_ok hr with rfl | ⟨env, hno, hpa, rfl⟩
    · exact ih hs hrest hmem hd
    -- The key was written for some pair at the record's height; what is read from it is a pair with the same lockup key.
    obtain ⟨d₀, v₀, hke⟩ := hkeye s hs _ _ hget
    rw [hke] at hre
    obtain ⟨hde, hl, rfl⟩ := unlockingLockupKey_read hre
    have hke₁ : e.1 = unlockingLockupKey d₁ v₁ e.2.creationHeight := by
      rw [hke]
      exact unlockingLockupKey_inj.2 ⟨hl, rfl⟩
    rw [hl] at hde
    refine ih (hp s d₁ v₁ env e.2 hs (hke₁ ▸ hget) hde hno hpa) hrest (fun e' he' => ?_) hd
    rw [get_delete, ← hke₁, if_neg (hne e' he').symm]
    exact hmem e' he'

theorem completeUnlocking_account (h : (completeUnlocking ctx).Succeeds s r t)
    (hke : ∀ d' v', (lockupKeyToAddresses (lockupKey d v) : Outcome Error (Bytes × Bytes)) = .ok (d', v') → d' = d ∧ v' = v)
    (hs : Account d v s) : Account d v t := by
  refine completeUnlocking_induction (fun _ => Account.wellKeyed) (fun s d₁ v₁ env u hs hget hd _ _ => ?_) h hs
  refine ⟨hs.wellKeyed.delete rfl, ?_⟩
  have hsu := sumBy_delete (pairAmount d v) s.unlockings (unlockingLockupKey d₁ v₁ u.creationHeight)
  rw [hget, Option.map_some, Option.getD_some, pairAmount_key d₁ v₁ d v rfl] at hsu
  have hold := hs.conserved
  unfold Conserved at hold ⊢
  rw [totalLocked_append rfl, totalPaid_append rfl]
  show _ = s.getLockupAmount d v + (s.unlockings.delete _).sumBy (pairAmount d v) + _
  have hco : s.unlockingAmount d v = s.unlockings.sumBy (pairAmount d v) := rfl
  dsimp only [lockedIn, paidIn]
  by_cases hk : lockupKey d₁ v₁ = lockupKey d v
  · rw [hk] at hd
    rw [if_pos hk] at hsu
    rw [if_pos (hke d₁ v₁ hd)]
    omega
  · have hne : ¬(d₁ = d ∧ v₁ = v) := fun ⟨h1, h2⟩ => hk (by rw [h1, h2])
    rw [if_neg hk] at hsu
    rw [if_neg hne]
    omega

/-! ## Runs -/

theorem commit_account {α : Type} {x : M Γ α} (hs : Account d v s)
    (hx : ∀ a t, x.Succeeds s a t → Account d v t) : Account d v (x.commit s) := by
  rcases commit_cases x s with h | ⟨a, h⟩
  · rw [h]
    exact hs
  · exact hx a _ h

theorem stakeStep_account (hexa : ExactUndelegation Γ) (s : State Γ) (m : StakeStep Γ) (hs : Account d v s)
    (hke : KeepsAccount d v s m) : Account d v (stakeStep s m) := by
  cases m with
  | lock ctx d' v' amt => exact commit_account hs fun _ _ h => lock_account h hke hs
  | unlock ctx d' v' amt => exact commit_account hs fun _ _ h => unlock_account hexa h hke hs
  | cancelUnlocking ctx d' v' h' amt => exact commit_account hs fun _ _ h => cancelUnlocking_account h hs
  | completeUnlocking ctx => exact commit_account hs fun _ _ h => completeUnlocking_account h hke hs
  | others env => exact ⟨hs.wellKeyed.of_eq rfl, hs.conserved⟩

theorem fresh_account (hs : s.Fresh) (d v : Bytes) : Account d v s := by
  refine ⟨fun key u h => ?_, ?_⟩
  · rw [hs.unlockings, get_empty] at h
    cases h
  · unfold Conserved State.totalLocked State.getLockupAmount State.getLockup State.unlockingAmount State.totalPaid
    rw [hs.lockups, hs.unlockings, hs.events]
    rfl

end ConservationAux

open ConservationAux

/-- In every run from a fresh store whose steps keep the account of a pair, the stake of the pair is conserved. -/
theorem stake_conserved (hexact : ExactUndelegation Γ) {s : State Γ} (hs : s.Fresh) (delAddr valAddr : Bytes)
    (steps : List (StakeStep Γ)) (hkeep : Run.AllSteps stakeStep (KeepsAccount delAddr valAddr) s steps) :
    Conserved delAddr valAddr (Run.run stakeStep s steps) :=
  (Run.run_induction stakeStep (fun s m hs hm => stakeStep_account hexact s m hs hm) hkeep
    (fresh_account hs delAddr valAddr)).conserved

/-! ## On a local chain -/

section LocalChain

open Bytes (str)

instance (delAddr valAddr : Bytes) (s : State Γ) : Decidable (Conserved delAddr valAddr s) :=
  inferInstanceAs (Decidable (_ = _))

theorem localChain_exact : ExactUndelegation localChain := by
  intro env env' valAddr amt shares completionTime returnAmount hv hu
  simp only [localChain] at hv
  split at hv
  · obtain rfl := Except.ok.inj hv
    exact Chain.undelegate_ok hu
  · cases hv

theorem genesisOn_fresh (c : Chain) : (genesisOn c).Fresh := ⟨rfl, rfl, rfl⟩

/-- Two unlocks of one lockup in one block: the second overwrites the record of the first, and 40 of the 100 locked are
nowhere. -/
theorem stake_conserved_false :
    ∃ steps : List (StakeStep localChain), (genesisOn oneDelegator).Fresh ∧ ExactUndelegation localChain ∧
      ¬Conserved alice operator (Run.run stakeStep (genesisOn oneDelegator) steps) :=
  ⟨[.lock (midEpoch 5) alice operator 100, .unlock (midEpoch 5) alice operator 40, .unlock (midEpoch 5) alice operator 30],
    genesisOn_fresh _, localChain_exact, by decide +kernel⟩

/-- Two unlocks in different blocks, a cancellation of a part and a redemption. -/
theorem stake_conserved_two_heights : Conserved alice operator (Run.run stakeStep (genesisOn oneDelegator)
      [.lock (midEpoch 5) alice operator 100, .unlock (midEpoch 5) alice operator 40, .unlock (midEpoch 6) alice operator 30,
        .cancelUnlocking (midEpoch 6) alice operator 5 10, .others { oneDelegator with uopen := fun _ => 100 },
        .completeUnlocking afterUnbonding]) := by
  refine stake_conserved localChain_exact (genesisOn_fresh _) alice operator _
    ⟨fun _ => ⟨rfl, rfl⟩, ?_, ?_, trivial, trivial, ?_, trivial⟩
  · intro _
    decide +kernel
  · intro _
    decide +kernel
  · intro d v h
    have hself : (lockupKeyToAddresses (lockupKey alice operator) : Outcome Error (Bytes × Bytes)) = .ok (alice, operator) :=
      lockupKeyToAddresses_eq_ok.2 ⟨by decide, by decide, rfl⟩
    obtain ⟨rfl, rfl⟩ := Prod.mk.inj (Outcome.ok.inj (hself.symm.trans h))
    exact ⟨rfl, rfl⟩

end LocalChain

end Vera.Tier
