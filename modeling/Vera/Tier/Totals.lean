import Vera.Tier.StepParts

/-!
# The total of all lockups

The stored total is updated beside the records, by five calls that add to a lockup, take from one or adjust one. It stays
equal to the sum of the records, and no record becomes zero or negative. What is insured matters for that: an insured amount
stays locked, so a lockup is taken away as a whole only if nothing of it is insured.
-/

namespace Vera.Tier

open KVStore

section Ledger

variable {Γ : Env}

def State.lockupsSum (s : State Γ) : Int := s.lockups.sumBy fun _ l => l.amount

/-- The stored total is the sum of the lockups, and every lockup has a positive amount. -/
structure TotalsExact (s : State Γ) : Prop where
  total : s.totalLockups.getD 0 = s.lockupsSum
  positive : ∀ key lockup, s.lockups.get key = some lockup → 0 < lockup.amount

/-- The totals are exact, insured amounts are not negative, and nothing is insured where nothing is locked. -/
structure Ledger (s : State Γ) : Prop extends TotalsExact s where
  insured : ∀ key lockup, s.insurance.get key = some lockup → 0 ≤ lockup.amount
  orphan : ∀ key lockup, s.lockups.get key = none → s.insurance.get key = some lockup → lockup.amount = 0

/-- Nothing was locked yet. -/
structure State.NoLockups (s : State Γ) : Prop where
  lockups : s.lockups = KVStore.empty
  insurance : s.insurance = KVStore.empty
  totalLockups : s.totalLockups = none

theorem ledger_of_noLockups {s : State Γ} (hs : s.NoLockups) : Ledger s := by
  refine ⟨⟨?_, ?_⟩, ?_, ?_⟩
  · unfold State.lockupsSum
    rw [hs.lockups, hs.totalLockups]
    rfl
  · intro key lockup h
    rw [hs.lockups, get_empty] at h
    cases h
  · intro key lockup h
    rw [hs.insurance, get_empty] at h
    cases h
  · intro key lockup _ h
    rw [hs.insurance, get_empty] at h
    cases h

/-! ## Changes of the store -/

variable {s t : State Γ}

theorem Ledger.congr (hs : Ledger s) (ht : t.totalLockups = s.totalLockups) (hl : t.lockups = s.lockups)
    (hin : t.insurance = s.insurance) : Ledger t := by
  refine ⟨⟨?_, ?_⟩, ?_, ?_⟩
  · unfold State.lockupsSum
    rw [ht, hl]
    exact hs.total
  · rw [hl]
    exact hs.positive
  · rw [hin]
    exact hs.insured
  · rw [hl, hin]
    exact hs.orphan

theorem Ledger.lockupsSum_nonneg (hs : Ledger s) : 0 ≤ s.lockupsSum := by
  refine sumBy_nonneg fun key lockup h => ?_
  exact (hs.positive key lockup h).le

theorem Ledger.getTotalLockupsAmount_eq (hs : Ledger s) : s.getTotalLockupsAmount = s.lockupsSum := by
  unfold State.getTotalLockupsAmount
  rw [hs.total]
  exact max_eq_right hs.lockupsSum_nonneg

theorem Ledger.getLockupAmount_nonneg (hs : Ledger s) (d v : Bytes) : 0 ≤ s.getLockupAmount d v := by
  unfold State.getLockupAmount State.getLockup
  cases h : s.lockups.get (lockupKey d v) with
  | none => exact le_refl 0
  | some lockup => exact (hs.positive _ lockup h).le

theorem Ledger.getInsuranceLockupAmount_nonneg (hs : Ledger s) (d v : Bytes) : 0 ≤ s.getInsuranceLockupAmount d v := by
  unfold State.getInsuranceLockupAmount State.getInsuranceLockup
  cases h : s.insurance.get (lockupKey d v) with
  | none => exact le_refl 0
  | some lockup => exact hs.insured _ lockup h

variable {d v : Bytes} {amount : Int} {α : Type}

theorem Ledger.setLockup (hs : Ledger s) (ha : 0 < amount) (hl : t.lockups = s.withLockup d v amount)
    (ht : t.totalLockups = some (s.lockupsSum - s.getLockupAmount d v + amount))
    (hin : t.insurance = s.insurance) : Ledger t := by
  have hsu : (s.withLockup d v amount).sumBy (fun _ l => l.amount) + s.getLockupAmount d v = s.lockupsSum + amount :=
    sumBy_set _ s.lockups _ _
  refine ⟨⟨?_, ?_⟩, ?_, ?_⟩
  · show _ = t.lockups.sumBy _
    rw [ht, hl, Option.getD_some]
    omega
  · rw [hl]
    exact All.set hs.positive ha
  · rw [hin]
    exact hs.insured
  · intro key lockup hnone h
    rw [hl, State.withLockup, get_set] at hnone
    rw [hin] at h
    split at hnone
    · cases hnone
    · exact hs.orphan key lockup hnone h

/-- A lockup is removed, and its amount taken from the total; nothing of it stays insured. -/
theorem Ledger.deleteLockup (hs : Ledger s) (hl : t.lockups = s.lockups.delete (lockupKey d v))
    (ht : t.totalLockups = some (s.lockupsSum - s.getLockupAmount d v))
    (hin : t.insurance = s.insurance ∧ s.getInsuranceLockupAmount d v = 0 ∨
      t.insurance = s.insurance.delete (lockupKey d v)) : Ledger t := by
  have hsu : (s.lockups.delete (lockupKey d v)).sumBy (fun _ l => l.amount) + s.getLockupAmount d v = s.lockupsSum :=
    sumBy_delete _ s.lockups _
  -- what is insured afterwards was insured before, and nothing of the lockup is
  have hlef : ∀ key lockup, t.insurance.get key = some lockup →
      s.insurance.get key = some lockup ∧ (key = lockupKey d v → lockup.amount = 0) := by
    intro key lockup h
    rcases hin with ⟨hsame, hz⟩ | hd
    · rw [hsame] at h
      refine ⟨h, fun heq => ?_⟩
      unfold State.getInsuranceLockupAmount State.getInsuranceLockup at hz
      rwa [← heq, h] at hz
    · rw [hd, get_delete] at h
      split at h
      · cases h
      · rename_i hne
        exact ⟨h, fun heq => absurd heq hne⟩
  refine ⟨⟨?_, ?_⟩, ?_, ?_⟩
  · show _ = t.lockups.sumBy _
    rw [ht, hl, Option.getD_some]
    omega
  · rw [hl]
    exact All.delete hs.positive _
  · intro key lockup h
    exact hs.insured key lockup (hlef key lockup h).1
  · intro key lockup hnone h
    rw [hl, get_delete] at hnone
    split at hnone
    · rename_i heq
      exact (hlef key lockup h).2 heq
    · exact hs.orphan key lockup hnone (hlef key lockup h).1

theorem Ledger.setInsurance (hs : Ledger s) {insurance : Lockup} (ha : 0 ≤ insurance.amount)
    (hlo : (s.getLockup d v).isSome) (hin : t.insurance = s.insurance.set (lockupKey d v) insurance)
    (ht : t.totalLockups = s.totalLockups) (hl : t.lockups = s.lockups) : Ledger t := by
  refine ⟨⟨?_, ?_⟩, ?_, ?_⟩
  · unfold State.lockupsSum
    rw [ht, hl]
    exact hs.total
  · rw [hl]
    exact hs.positive
  · rw [hin]
    exact All.set hs.insured ha
  · intro key lockup hnone h
    rw [hl] at hnone
    rw [hin, get_set] at h
    split at h
    · rename_i heq
      unfold State.getLockup at hlo
      rw [← heq, hnone] at hlo
      cases hlo
    · exact hs.orphan key lockup hnone h

/-! ## The calls that write lockups -/

theorem addLockup_keeps (ha : 0 < amount) : (addLockup d v amount : M Γ Unit).Keeps Ledger := by
  refine Eff.Keeps.of_ok ?_ ?_
  · intro s _ t hs h
    obtain ⟨-, rfl⟩ := addLockup_ok.1 h
    have hold := hs.getLockupAmount_nonneg d v
    refine hs.setLockup (by omega) rfl ?_ rfl
    show some (s.getTotalLockupsAmount + amount) = _
    rw [hs.getTotalLockupsAmount_eq]
    congr 1
    omega
  · intro s e t h
    exact absurd h ((setTotalLockupsAmount_noError _).bind (fun _ => .modify _) s e t)

theorem getLockupAmount_of_some {lockup : Lockup} (h : s.getLockup d v = some lockup) :
    s.getLockupAmount d v = lockup.amount := by
  unfold State.getLockupAmount
  rw [h]
  rfl

theorem subtractLockup_keeps (d v : Bytes) (amount : Int) : (subtractLockup d v amount : M Γ Unit).Keeps Ledger := by
  refine Eff.Keeps.of_ok ?_ fun s e t h => subtractLockup_err h
  intro s _ t hs h
  obtain ⟨lockup, hl, hca⟩ := subtractLockup_ok h
  have hin := subtractLockup_insured h hl
  have hno := hs.getInsuranceLockupAmount_nonneg d v
  have hold := getLockupAmount_of_some hl
  rcases hca with ⟨heq, rfl⟩ | ⟨hne, rfl⟩
  · refine hs.deleteLockup rfl ?_ (.inl ⟨rfl, by omega⟩)
    show some (s.getTotalLockupsAmount - amount) = _
    rw [hs.getTotalLockupsAmount_eq, hold, heq]
  · refine hs.setLockup (by omega) rfl ?_ rfl
    show some (s.getTotalLockupsAmount - amount) = _
    rw [hs.getTotalLockupsAmount_eq, hold]
    congr 1
    omega

theorem amountAtRate_nonneg {rate : Dec} (ha : 0 ≤ amount) (hr : 0 ≤ rate.raw) : 0 ≤ amountAtRate amount rate := by
  unfold amountAtRate
  rw [Dec.truncateInt_ofInt_mul]
  exact Int.tdiv_nonneg (mul_nonneg ha hr) Dec.precision_pos.le

theorem adjustLockup_keeps {slashingRate coverageRate : Dec} (hr : 0 ≤ slashingRate.raw) :
    (adjustLockup d v slashingRate coverageRate : M Γ Unit).Keeps Ledger := by
  refine Eff.Keeps.of_ok ?_ fun s e t h => (adjustLockup_err h).2
  intro s _ t hs h
  obtain ⟨lockup, after, hl, ha, hca⟩ := adjustLockup_ok h
  have hold := getLockupAmount_of_some hl
  have hp := hs.positive _ _ hl
  have hno : 0 ≤ after := ha ▸ amountAtRate_nonneg hp.le hr
  rcases hca with ⟨-, rfl⟩ | ⟨-, hz, rfl⟩ | ⟨-, hne, hcov⟩
  · exact hs
  · refine hs.deleteLockup rfl ?_ (.inr rfl)
    show some (s.getTotalLockupsAmount - lockup.amount + after) = _
    rw [hs.getTotalLockupsAmount_eq, hold, hz, add_zero]
  · have hse : Ledger { s with
        totalLockups := some (s.getTotalLockupsAmount - lockup.amount + after)
        lockups := s.withLockup d v after
        writes := s.writes ++ [.lockup d v] } := by
      refine hs.setLockup (by omega) rfl ?_ rfl
      show some (s.getTotalLockupsAmount - lockup.amount + after) = _
      rw [hs.getTotalLockupsAmount_eq, hold]
    rw [coverLockup_ok] at hcov
    subst hcov
    split
    · rename_i hco
      refine hse.setInsurance ?_ ?_ rfl rfl rfl
      · have hcove : 0 ≤ amountAtRate lockup.amount coverageRate :=
          amountAtRate_nonneg hp.le (of_decide_eq_true hco).le
        have hin := hs.getInsuranceLockupAmount_nonneg d v
        exact add_nonneg hcove hin
      · unfold State.getLockup State.withLockup
        rw [get_set_self]
        rfl
    · exact hse

/-! ## The calls that do not -/

/-- The lockups, the insurance and the total are the same. -/
def SameLockups (s t : State Γ) : Prop :=
  t.totalLockups = s.totalLockups ∧ t.lockups = s.lockups ∧ t.insurance = s.insurance

theorem keeps_of_sameLockups {x : M Γ α} (h : Eff.Respects SameLockups x) : x.Keeps Ledger :=
  fun s hs _ => hs.congr (h s).1 (h s).2.1 (h s).2.2

theorem callEnv_keeps (w : Bytes → Error) (x : Eff Γ.σ Bytes α) : (callEnv w x).Keeps Ledger :=
  keeps_of_sameLockups fun _ => ⟨rfl, rfl, rfl⟩

theorem emit_keeps (e : Event) : (emit e : M Γ Unit).Keeps Ledger := keeps_of_sameLockups fun _ => ⟨rfl, rfl, rfl⟩

theorem setTotalCreditAmount_keeps (total : Int) : (setTotalCreditAmount total : M Γ Unit).Keeps Ledger := by
  refine .bind (.modify fun s hs => hs.congr rfl rfl rfl) fun _ => ?_
  exact .ite (fun _ => .crash _) fun _ => .pure ()

theorem Ledger.deleteInsurance (hs : Ledger s) (key : Bytes) : Ledger { s with insurance := s.insurance.delete key } := by
  have hl : ∀ k lockup, (s.insurance.delete key).get k = some lockup → s.insurance.get k = some lockup := by
    intro k lockup h
    rw [get_delete] at h
    split at h
    · cases h
    · exact h
  exact ⟨⟨hs.total, hs.positive⟩, fun k lockup h => hs.insured k lockup (hl k lockup h),
    fun k lockup hnone h => hs.orphan k lockup hnone (hl k lockup h)⟩

theorem setUnlockingLockup_keeps (d v : Bytes) (h amt : Int) (completionTime unlockTime : Time) :
    (setUnlockingLockup d v h amt completionTime unlockTime : M Γ Unit).Keeps Ledger :=
  .ite (fun _ => .modify fun _ hs => hs.congr rfl rfl rfl) fun _ => .crash _

theorem moveInsurance_keeps (d src dst : Bytes) : (moveInsurance d src dst : M Γ Unit).Keeps Ledger := by
  refine fun s => Eff.KeepsAt.read_bind fun hs _ => ?_
  have hno : ¬((s.getLockup d src).isNone ∧ 0 < s.getInsuranceLockupAmount d src) := by
    rintro ⟨hnone, hp⟩
    unfold State.getInsuranceLockupAmount at hp
    cases h : s.getInsuranceLockup d src with
    | none => simp [h] at hp
    | some lockup =>
      have hz := hs.orphan _ lockup (Option.isNone_iff_eq_none.1 hnone) h
      simp [h, hz] at hp
  rw [if_neg hno]
  exact hs

theorem ledger_stepParts : StepParts (Γ := Γ) Ledger where
  callEnv := callEnv_keeps
  emit := emit_keeps
  setTotalCreditAmount := setTotalCreditAmount_keeps
  addLockup _ _ _ ha := addLockup_keeps ha
  subtractLockup := subtractLockup_keeps
  adjustLockup _ _ _ _ hr := adjustLockup_keeps hr
  removeInsuranceLockup _ _ := .modify fun _ hs => hs.deleteInsurance _
  moveInsurance := moveInsurance_keeps
  setUnlockingLockup := setUnlockingLockup_keeps
  removeUnlockingLockup _ _ _ := .modify fun _ hs => hs.congr rfl rfl rfl

end Ledger

/-! ## Runs -/

variable {Γ : StakingEnv}

theorem tierStep_ledger (s : State Γ.toEnv) (m : TierStep Γ) (hs : Ledger s) (hr : RatesInUnit s m) :
    Ledger (tierStep s m) :=
  ledger_stepParts.tierStep (fun _ _ hs => hs.congr rfl rfl rfl) s m hs hr

/-- In every run from a store without lockups, with slashing rates between zero and one, the ledger is in order. -/
theorem run_ledger {s : State Γ.toEnv} (hs : s.NoLockups) (steps : List (TierStep Γ))
    (hr : Run.AllSteps tierStep RatesInUnit s steps) : Ledger (Run.run tierStep s steps) :=
  Run.run_induction tierStep tierStep_ledger hr (ledger_of_noLockups hs)

/-- In every such run the stored total is the sum of the lockups, and every lockup has a positive amount. -/
theorem totalLockups_exact {s : State Γ.toEnv} (hs : s.NoLockups) (steps : List (TierStep Γ))
    (hrates : Run.AllSteps tierStep RatesInUnit s steps) : TotalsExact (Run.run tierStep s steps) :=
  (run_ledger hs steps hrates).toTotalsExact

/-- A validator with a thousand tokens, and another one. -/
def twoValidators : List LocalValidator :=
  [⟨operator, 1000, Dec.ofInt 1000⟩, ⟨Bytes.str "another validator...", 500, Dec.ofInt 500⟩]

/-- A lock, a slash of a half that is insured for a tenth, a move to another validator and an unlock: 45 stay locked. -/
theorem totalLockups_exact_slashed :
    let s := emptyState (localStaking twoValidators).toEnv oneDelegator
    let steps : List (TierStep (localStaking twoValidators)) :=
      [.lock (midEpoch 5) alice operator 100, .adjustLockups operator ⟨Dec.precision / 2⟩ ⟨Dec.precision / 10⟩,
        .redelegate alice operator (Bytes.str "another validator...") 20, .unlock (midEpoch 6) alice operator 5]
    TotalsExact (Run.run tierStep s steps) ∧ (Run.run tierStep s steps).lockupsSum = 45 :=
  ⟨totalLockups_exact ⟨rfl, rfl, rfl⟩ _ ⟨trivial, ⟨by decide, by decide⟩, trivial, trivial, trivial⟩, by decide +kernel⟩

end Vera.Tier
