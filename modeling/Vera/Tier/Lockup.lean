import Vera.Tier.State

/-!
# Lockups

Reading and writing of lockups, unlocking lockups and insurance lockups (`x/tier/keeper/lockup.go`, `insurance.go`).
-/

namespace Vera.Tier

open Eff
open Bytes (str)

variable {Γ : Env}

/-- The lockup of a delegator with a validator. -/
def State.getLockup (s : State Γ) (delAddr valAddr : Bytes) : Option Lockup := s.lockups.get (lockupKey delAddr valAddr)

/-- The amount locked by a delegator with a validator, zero if there is no lockup. -/
def State.getLockupAmount (s : State Γ) (delAddr valAddr : Bytes) : Int :=
  ((s.getLockup delAddr valAddr).map Lockup.amount).getD 0

/-- The unlocking lockup of a delegator with a validator, made at a height. -/
def State.getUnlockingLockup (s : State Γ) (delAddr valAddr : Bytes) (creationHeight : Int) : Option UnlockingLockup :=
  s.unlockings.get (unlockingLockupKey delAddr valAddr creationHeight)

/-- The insurance lockup of a delegator with a validator. -/
def State.getInsuranceLockup (s : State Γ) (delAddr valAddr : Bytes) : Option Lockup :=
  s.insurance.get (lockupKey delAddr valAddr)

/-- The insured amount of a delegator with a validator, zero if there is none. -/
def State.getInsuranceLockupAmount (s : State Γ) (delAddr valAddr : Bytes) : Int :=
  ((s.getInsuranceLockup delAddr valAddr).map Lockup.amount).getD 0

/-- The stored total of all lockups; nothing stored, or a negative number, counts as zero. -/
def State.getTotalLockupsAmount (s : State Γ) : Int := max 0 (s.totalLockups.getD 0)

/-- Store the total of all lockups. The gauge takes the total as a 64-bit number and panics on a larger one. -/
def setTotalLockupsAmount (total : Int) : M Γ Unit := do
  Eff.modify fun s => { s with totalLockups := some total }
  if isInt64 total then pure () else Eff.crash "Int64() out of bound"

def setLockup (delAddr valAddr : Bytes) (amount : Int) : M Γ Unit :=
  Eff.modify fun s => { s with
    lockups := s.lockups.set (lockupKey delAddr valAddr)
      ⟨Γ.accAddressString delAddr, Γ.valAddressString valAddr, amount⟩
    writes := s.writes ++ [.lockup delAddr valAddr] }

/-- Store an unlocking lockup, whatever is stored under its key. A record with a time outside the range of a protobuf
timestamp cannot be marshalled. -/
def setUnlockingLockup (delAddr valAddr : Bytes) (creationHeight amount : Int) (completionTime unlockTime : Time) :
    M Γ Unit :=
  if completionTime.marshalable && unlockTime.marshalable then
    Eff.modify fun s => { s with
      unlockings := s.unlockings.set (unlockingLockupKey delAddr valAddr creationHeight)
        ⟨Γ.accAddressString delAddr, Γ.valAddressString valAddr, creationHeight, amount, completionTime, unlockTime⟩
      writes := s.writes ++ [.unlockingLockup delAddr valAddr creationHeight] }
  else Eff.crash "timestamp out of range"

def removeLockup (delAddr valAddr : Bytes) : M Γ Unit :=
  Eff.modify fun s => { s with lockups := s.lockups.delete (lockupKey delAddr valAddr) }

def removeUnlockingLockup (delAddr valAddr : Bytes) (creationHeight : Int) : M Γ Unit :=
  Eff.modify fun s => { s with unlockings := s.unlockings.delete (unlockingLockupKey delAddr valAddr creationHeight) }

def removeInsuranceLockup (delAddr valAddr : Bytes) : M Γ Unit :=
  Eff.modify fun s => { s with insurance := s.insurance.delete (lockupKey delAddr valAddr) }

def addLockup (delAddr valAddr : Bytes) (amount : Int) : M Γ Unit := do
  let s ← Eff.read
  setTotalLockupsAmount (s.getTotalLockupsAmount + amount)
  setLockup delAddr valAddr (amount + s.getLockupAmount delAddr valAddr)

/-- Subtract an amount from a lockup and from the total. The part that is insured cannot be subtracted. -/
def subtractLockup (delAddr valAddr : Bytes) (amount : Int) : M Γ Unit := do
  let s ← Eff.read
  match s.getLockup delAddr valAddr with
  | none => Eff.fail ⟨.notFound, str "subtract lockup"⟩
  | some lockup =>
    if amount + s.getInsuranceLockupAmount delAddr valAddr > lockup.amount then
      Eff.fail ⟨.invalidAmount, str "subtract lockup"⟩
    else do
      setTotalLockupsAmount (s.getTotalLockupsAmount - amount)
      if amount = lockup.amount then removeLockup delAddr valAddr
      else setLockup delAddr valAddr (lockup.amount - amount)

def subtractUnlockingLockup (delAddr valAddr : Bytes) (creationHeight amount : Int) : M Γ Unit := do
  let s ← Eff.read
  match s.getUnlockingLockup delAddr valAddr creationHeight with
  | none => Eff.fail ⟨.notFound, str "subtract unlocking lockup"⟩
  | some u =>
    if amount > u.amount then Eff.fail ⟨.invalidAmount, str "subtract unlocking lockup"⟩
    else if amount = u.amount then removeUnlockingLockup delAddr valAddr creationHeight
    else setUnlockingLockup delAddr valAddr creationHeight (u.amount - amount) u.completionTime u.unlockTime

/-! ### Iterators -/

/-- The records of a lockup store with their addresses read from the keys; a key that cannot be read panics. -/
def readLockups : List (Bytes × Lockup) → Outcome Error (List (Bytes × Bytes × Lockup))
  | [] => .ok []
  | (key, lockup) :: rest => do
    let addrs ← lockupKeyToAddresses key
    let others ← readLockups rest
    pure ((addrs.1, addrs.2, lockup) :: others)

/-- The lockups that `mustIterateLockups` gives to its callback. -/
def iterateLockups : M Γ (List (Bytes × Bytes × Lockup)) :=
  Eff.query fun s => readLockups s.lockups.entries

/-- The insurance lockups that `mustIterateInsuranceLockups` gives to its callback. -/
def iterateInsuranceLockups : M Γ (List (Bytes × Bytes × Lockup)) :=
  Eff.query fun s => readLockups s.insurance.entries

/-- The amounts of a delegator in a list of lockups, summed. -/
def amountByAddr (delAddr : Bytes) (lockups : List (Bytes × Bytes × Lockup)) : Int :=
  ((lockups.filter fun l => l.1 = delAddr).map fun l => l.2.2.amount).sum

def totalLockedAmountByAddr (delAddr : Bytes) : M Γ Int := do
  let lockups ← iterateLockups
  pure (amountByAddr delAddr lockups)

/-- The total amount of a delegator's insurance lockups. -/
def totalInsuredAmountByAddr (delAddr : Bytes) : M Γ Int := do
  let lockups ← iterateInsuranceLockups
  pure (amountByAddr delAddr lockups)

/-! ### What the calls write when they succeed -/

def State.withLockup (s : State Γ) (delAddr valAddr : Bytes) (amount : Int) : KVStore Bytes Lockup :=
  s.lockups.set (lockupKey delAddr valAddr) ⟨Γ.accAddressString delAddr, Γ.valAddressString valAddr, amount⟩

variable {s t : State Γ} {u : Unit} {delAddr valAddr : Bytes} {amount creationHeight : Int}

theorem setTotalLockupsAmount_ok {total : Int} :
    (setTotalLockupsAmount total).Succeeds s u t ↔ isInt64 total = true ∧ t = { s with totalLockups := some total } := by
  unfold setTotalLockupsAmount
  by_cases h : isInt64 total = true
  · simp [h]
  · simp [h]

theorem setTotalLockupsAmount_noError (total : Int) : (setTotalLockupsAmount total : M Γ Unit).NoError :=
  (Eff.NoError.modify _).bind fun _ => .ite (.pure ()) (.crash _)

theorem addLockup_ok : (addLockup delAddr valAddr amount).Succeeds s u t ↔
      isInt64 (s.getTotalLockupsAmount + amount) = true ∧
      t = { s with
        totalLockups := some (s.getTotalLockupsAmount + amount)
        lockups := s.withLockup delAddr valAddr (amount + s.getLockupAmount delAddr valAddr)
        writes := s.writes ++ [.lockup delAddr valAddr] } := by
  unfold addLockup setLockup
  simp [setTotalLockupsAmount_ok, State.withLockup]

theorem subtractLockup_ok (h : (subtractLockup delAddr valAddr amount).Succeeds s u t) :
    ∃ lockup, s.getLockup delAddr valAddr = some lockup ∧ (amount = lockup.amount ∧ t = { s with
            totalLockups := some (s.getTotalLockupsAmount - amount)
            lockups := s.lockups.delete (lockupKey delAddr valAddr) } ∨
        amount ≠ lockup.amount ∧ t = { s with
            totalLockups := some (s.getTotalLockupsAmount - amount)
            lockups := s.withLockup delAddr valAddr (lockup.amount - amount)
            writes := s.writes ++ [.lockup delAddr valAddr] }) := by
  unfold subtractLockup at h
  rw [read_bind_ok] at h
  split at h
  · exact absurd h fail_ok
  rename_i lockup hl
  refine ⟨lockup, hl, ?_⟩
  split at h
  · exact absurd h fail_ok
  simp only [bind_ok, setTotalLockupsAmount_ok] at h
  obtain ⟨_, _, ⟨-, rfl⟩, h⟩ := h
  split at h
  · rename_i heq
    exact .inl ⟨heq, modify_ok.1 h⟩
  · rename_i hne
    exact .inr ⟨hne, modify_ok.1 h⟩

theorem subtractLockup_insured {lockup : Lockup}
    (h : (subtractLockup delAddr valAddr amount).Succeeds s u t) (hl : s.getLockup delAddr valAddr = some lockup) :
    amount + s.getInsuranceLockupAmount delAddr valAddr ≤ lockup.amount := by
  unfold subtractLockup at h
  rw [read_bind_ok] at h
  simp only [hl] at h
  split at h
  · exact absurd h fail_ok
  · omega

theorem subtractLockup_err {e : Error} (h : subtractLockup delAddr valAddr amount s = (.err e, t)) : t = s := by
  unfold subtractLockup at h
  rw [read_bind] at h
  cases hl : s.getLockup delAddr valAddr with
  | none =>
    rw [hl] at h
    exact (congrArg Prod.snd h).symm
  | some lockup =>
    simp only [hl] at h
    by_cases hin : amount + s.getInsuranceLockupAmount delAddr valAddr > lockup.amount
    · rw [if_pos hin] at h
      exact (congrArg Prod.snd h).symm
    · rw [if_neg hin] at h
      exact absurd h ((setTotalLockupsAmount_noError _).bind (fun _ => .ite (.modify _) (.modify _)) s e t)

theorem setUnlockingLockup_ok {completionTime unlockTime : Time} :
    (setUnlockingLockup delAddr valAddr creationHeight amount completionTime unlockTime).Succeeds s u t ↔
      (completionTime.marshalable && unlockTime.marshalable) = true ∧
      t = { s with
        unlockings := s.unlockings.set (unlockingLockupKey delAddr valAddr creationHeight)
          ⟨Γ.accAddressString delAddr, Γ.valAddressString valAddr, creationHeight, amount, completionTime, unlockTime⟩
        writes := s.writes ++ [.unlockingLockup delAddr valAddr creationHeight] } := by
  unfold setUnlockingLockup
  split
  · rename_i h
    simp [h]
  · rename_i h
    simp [h]

/-- A subtraction leaves the rest of the unlocking lockup, or removes it when nothing is left. -/
theorem subtractUnlockingLockup_ok (h : (subtractUnlockingLockup delAddr valAddr creationHeight amount).Succeeds s u t) :
    ∃ old, s.getUnlockingLockup delAddr valAddr creationHeight = some old ∧ (amount = old.amount ∧
          t = { s with unlockings := s.unlockings.delete (unlockingLockupKey delAddr valAddr creationHeight) } ∨
        ∃ new : UnlockingLockup, new.creationHeight = creationHeight ∧ new.amount = old.amount - amount ∧ t = { s with
            unlockings := s.unlockings.set (unlockingLockupKey delAddr valAddr creationHeight) new
            writes := s.writes ++ [.unlockingLockup delAddr valAddr creationHeight] }) := by
  unfold subtractUnlockingLockup at h
  rw [read_bind_ok] at h
  split at h
  · exact absurd h fail_ok
  rename_i old hold
  refine ⟨old, hold, ?_⟩
  split at h
  · exact absurd h fail_ok
  split at h
  · rename_i heq
    exact .inl ⟨heq, modify_ok.1 h⟩
  · exact .inr ⟨_, rfl, rfl, (setUnlockingLockup_ok.1 h).2⟩

theorem subtractUnlockingLockup_le
    {old : UnlockingLockup} (h : (subtractUnlockingLockup delAddr valAddr creationHeight amount).Succeeds s u t)
    (hold : s.getUnlockingLockup delAddr valAddr creationHeight = some old) : amount ≤ old.amount := by
  unfold subtractUnlockingLockup at h
  rw [read_bind_ok] at h
  simp only [hold] at h
  split at h
  · exact absurd h fail_ok
  · omega

end Vera.Tier
