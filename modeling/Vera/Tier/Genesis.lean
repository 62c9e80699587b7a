import Vera.Tier.GrantedTotals
import Vera.Tier.Totals

/-!
# The genesis of `x/tier`

`InitGenesis` and `ExportGenesis` (`x/tier/module/genesis.go`). The export has the parameters and the records of five kinds, as
the iterators give them. The import stores the records one by one under keys built from the addresses they name, and the total
of the lockups is summed on the way. The total of credits and the credits granted by each developer are in neither.
-/

namespace Vera.Tier

open Bytes (str)

variable {Γ : Env}

/-- `types.GenesisState`, with the parameters that the modelled calls read. -/
structure GenesisState where
  params : Params
  lockups : List Lockup
  unlockingLockups : List UnlockingLockup
  insuranceLockups : List Lockup
  developers : List Developer
  userSubscriptions : List UserSubscription
  deriving Repr, DecidableEq

/-! ## Export -/

/-- The values of a store, collected by an iterator that reads every key; a key that cannot be read panics. -/
def readValues {V α : Type} (readKey : Bytes → Outcome Error α) : List (Bytes × V) → Outcome Error (List V)
  | [] => .ok []
  | (key, value) :: rest => do
    let _ ← readKey key
    let others ← readValues readKey rest
    pure (value :: others)

def State.getAllLockups (s : State Γ) : Outcome Error (List Lockup) := readValues lockupKeyToAddresses s.lockups.entries

def State.getAllUnlockingLockups (s : State Γ) : Outcome Error (List UnlockingLockup) :=
  readValues unlockingLockupKeyToAddressesAtHeight s.unlockings.entries

def State.getAllInsuranceLockups (s : State Γ) : Outcome Error (List Lockup) :=
  readValues lockupKeyToAddresses s.insurance.entries

def State.getAllDevelopers (s : State Γ) : Outcome Error (List Developer) :=
  readValues developerKeyToAddress s.developers.entries

def State.getAllUserSubscriptions (s : State Γ) : Outcome Error (List UserSubscription) :=
  readValues userSubscriptionKeyToAddresses s.subscriptions.entries

def exportGenesis : M Γ GenesisState :=
  Eff.query fun s => do
    let lockups ← s.getAllLockups
    let unlockingLockups ← s.getAllUnlockingLockups
    let insuranceLockups ← s.getAllInsuranceLockups
    let developers ← s.getAllDevelopers
    let userSubscriptions ← s.getAllUserSubscriptions
    pure ⟨s.params, lockups, unlockingLockups, insuranceLockups, developers, userSubscriptions⟩

/-! ## Import -/

def mustAccAddressFromBech32 (address : Bytes) : M Γ Bytes :=
  (Eff.lift (Outcome.ofExcept (fun e => ⟨.plain, e⟩) (Γ.accAddressFromBech32 address))).must

def mustValAddressFromBech32 (address : Bytes) : M Γ Bytes :=
  (Eff.lift (Outcome.ofExcept (fun e => ⟨.plain, e⟩) (Γ.valAddressFromBech32 address))).must

/-- A lockup is added to what is there; an error of the call is ignored. -/
def initLockup (lockup : Lockup) : M Γ Unit := do
  let delAddr ← mustAccAddressFromBech32 lockup.delegatorAddress
  let valAddr ← mustValAddressFromBech32 lockup.validatorAddress
  let _ ← (addLockup delAddr valAddr lockup.amount).attempt
  pure ()

/-- An unlocking lockup is stored unless there is one under its key. -/
def initUnlockingLockup (u : UnlockingLockup) : M Γ Unit := do
  let delAddr ← mustAccAddressFromBech32 u.delegatorAddress
  let valAddr ← mustValAddressFromBech32 u.validatorAddress
  let s ← Eff.read
  if (s.getUnlockingLockup delAddr valAddr u.creationHeight).isSome then pure ()
  else setUnlockingLockup delAddr valAddr u.creationHeight u.amount u.completionTime u.unlockTime

def initInsuranceLockup (lockup : Lockup) : M Γ Unit := do
  let delAddr ← mustAccAddressFromBech32 lockup.delegatorAddress
  let valAddr ← mustValAddressFromBech32 lockup.validatorAddress
  addInsuranceLockup delAddr valAddr lockup.amount

def initDeveloper (developer : Developer) : M Γ Unit := do
  let developerAddr ← mustAccAddressFromBech32 developer.address
  setDeveloper developerAddr developer

def initUserSubscription (sub : UserSubscription) : M Γ Unit := do
  let developerAddr ← mustAccAddressFromBech32 sub.developer
  setUserSubscription developerAddr sub.userDid sub

def initGenesis (genState : GenesisState) : M Γ Unit := do
  Eff.modify fun s => { s with params := genState.params }
  Eff.forEach genState.lockups initLockup
  Eff.forEach genState.unlockingLockups initUnlockingLockup
  Eff.forEach genState.insuranceLockups initInsuranceLockup
  Eff.forEach genState.developers initDeveloper
  Eff.forEach genState.userSubscriptions initUserSubscription

/-! ## Records and their keys

Every record is stored under a key built from the addresses whose texts it has. -/

def LockupNamed (Γ : Env) (key : Bytes) (l : Lockup) : Prop :=
  ∃ d v, key = lockupKey d v ∧ l.delegatorAddress = Γ.accAddressString d ∧ l.validatorAddress = Γ.valAddressString v

/-- An unlocking lockup under its key, with times that could be marshalled. -/
def UnlockingNamed (Γ : Env) (key : Bytes) (u : UnlockingLockup) : Prop :=
  ∃ d v, key = unlockingLockupKey d v u.creationHeight ∧ u.delegatorAddress = Γ.accAddressString d ∧
    u.validatorAddress = Γ.valAddressString v ∧ (u.completionTime.marshalable && u.unlockTime.marshalable) = true

def DeveloperNamed (Γ : Env) (key : Bytes) (developer : Developer) : Prop :=
  ∃ d, key = developerKey d ∧ developer.address = Γ.accAddressString d

def SubscriptionNamed (Γ : Env) (key : Bytes) (sub : UserSubscription) : Prop :=
  ∃ d, key = userSubscriptionKey d sub.userDid ∧ sub.developer = Γ.accAddressString d

/-- Every record is stored under the key of what it names, and the total of the lockups could be shown as a 64-bit number. -/
structure Named (s : State Γ) : Prop where
  lockups : s.lockups.All (LockupNamed Γ)
  unlockings : s.unlockings.All (UnlockingNamed Γ)
  insurance : s.insurance.All (LockupNamed Γ)
  developers : s.developers.All (DeveloperNamed Γ)
  subscriptions : s.subscriptions.All (SubscriptionNamed Γ)
  total : ∀ n, s.totalLockups = some n → isInt64 n = true

theorem named_emptyState (env : Γ.σ) : Named (emptyState Γ env) :=
  ⟨.empty, .empty, .empty, .empty, .empty, fun _ h => nomatch h⟩

theorem lockupNamed_mk (Γ : Env) (d v : Bytes) (amount : Int) :
    LockupNamed Γ (lockupKey d v) ⟨Γ.accAddressString d, Γ.valAddressString v, amount⟩ := ⟨d, v, rfl, rfl, rfl⟩

/-! ### Every step keeps the records under their keys -/

theorem setLockup_named (d v : Bytes) (amount : Int) : (setLockup d v amount : M Γ Unit).Keeps Named :=
  .modify fun _ hs => { hs with lockups := hs.lockups.set (lockupNamed_mk Γ d v amount) }

theorem removeLockup_named (d v : Bytes) : (removeLockup d v : M Γ Unit).Keeps Named :=
  .modify fun _ hs => { hs with lockups := hs.lockups.delete _ }

theorem setInsuranceLockup_named (d v : Bytes) (amount : Int) : (setInsuranceLockup d v amount : M Γ Unit).Keeps Named :=
  .modify fun _ hs => { hs with insurance := hs.insurance.set (lockupNamed_mk Γ d v amount) }

theorem removeInsuranceLockup_named (d v : Bytes) : (removeInsuranceLockup d v : M Γ Unit).Keeps Named :=
  .modify fun _ hs => { hs with insurance := hs.insurance.delete _ }

theorem setTotalLockupsAmount_named (total : Int) : (setTotalLockupsAmount total : M Γ Unit).Keeps Named := by
  refine .of_ok ?_ fun s e t h => absurd h (setTotalLockupsAmount_noError total s e t)
  intro s _ t hs h
  obtain ⟨hf, rfl⟩ := setTotalLockupsAmount_ok.1 h
  exact { hs with total := fun n hn => Option.some.inj hn ▸ hf }

theorem addInsuranceLockup_named (d v : Bytes) (amount : Int) : (addInsuranceLockup d v amount : M Γ Unit).Keeps Named :=
  .bind .read fun _ => setInsuranceLockup_named d v _

theorem subtractLockup_named (d v : Bytes) (amount : Int) : (subtractLockup d v amount : M Γ Unit).Keeps Named := by
  refine .bind .read fun s => ?_
  cases s.getLockup d v with
  | none => exact .fail _
  | some lockup =>
    refine .ite (fun _ => .fail _) fun _ => .bind (setTotalLockupsAmount_named _) fun _ => ?_
    exact .ite (fun _ => removeLockup_named d v) fun _ => setLockup_named d v _

theorem adjustLockup_named (d v : Bytes) (slashingRate coverageRate : Dec) :
    (adjustLockup d v slashingRate coverageRate : M Γ Unit).Keeps Named := by
  refine .bind .read fun s => ?_
  cases s.getLockup d v with
  | none => exact .fail _
  | some lockup =>
    refine .ite (fun _ => .pure ()) fun _ => .bind (setTotalLockupsAmount_named _) fun _ => ?_
    refine .ite (fun _ => .bind (removeLockup_named d v) fun _ => removeInsuranceLockup_named d v) fun _ => ?_
    refine .bind (setLockup_named d v _) fun _ => .ite (fun _ => ?_) fun _ => .pure ()
    exact .bind .read fun _ => setInsuranceLockup_named d v _

theorem setUnlockingLockup_named (d v : Bytes) (h amt : Int) (completionTime unlockTime : Time) :
    (setUnlockingLockup d v h amt completionTime unlockTime : M Γ Unit).Keeps Named := by
  refine .ite (fun ht => .modify fun s hs => ?_) fun _ => .crash _
  exact { hs with unlockings := hs.unlockings.set ⟨d, v, rfl, rfl, rfl, ht⟩ }

theorem named_stepParts : StepParts (Γ := Γ) Named where
  callEnv _ _ := fun _ hs _ => ⟨hs.lockups, hs.unlockings, hs.insurance, hs.developers, hs.subscriptions, hs.total⟩
  emit _ := .modify fun _ hs => ⟨hs.lockups, hs.unlockings, hs.insurance, hs.developers, hs.subscriptions, hs.total⟩
  setTotalCreditAmount _ := .bind
    (.modify fun _ hs => ⟨hs.lockups, hs.unlockings, hs.insurance, hs.developers, hs.subscriptions, hs.total⟩)
    fun _ => .ite (fun _ => .crash _) fun _ => .pure ()
  addLockup d v _ _ := .bind .read fun _ => .bind (setTotalLockupsAmount_named _) fun _ => setLockup_named d v _
  subtractLockup := subtractLockup_named
  adjustLockup d v _ _ _ := adjustLockup_named d v _ _
  removeInsuranceLockup := removeInsuranceLockup_named
  moveInsurance d src dst := .bind .read fun _ =>
    .ite (fun _ => .bind (removeInsuranceLockup_named d src) fun _ => addInsuranceLockup_named d dst _) fun _ => .pure ()
  setUnlockingLockup := setUnlockingLockup_named
  removeUnlockingLockup _ _ _ := .modify fun _ hs => { hs with unlockings := hs.unlockings.delete _ }

theorem named_developerParts : DeveloperParts (Γ := Γ) Named where
  toStepParts := named_stepParts
  newDeveloper d _ := .modify fun _ hs => { hs with developers := hs.developers.set ⟨d, rfl, rfl⟩ }
  changedDeveloper s d developer _ hf := fun hs _ => { hs with developers := hs.developers.set (hs.developers _ developer hf) }
  deleteDeveloper _ := .modify fun _ hs => { hs with developers := hs.developers.delete _ }
  newSubscription d u _ _ _ _ := .modify fun _ hs => { hs with subscriptions := hs.subscriptions.set ⟨d, rfl, rfl⟩ }
  changedSubscription s d u sub _ _ _ hs hf := .modify fun t ht =>
    { ht with subscriptions := ht.subscriptions.set (hs.subscriptions _ sub hf) }
  deleteUserSubscription _ _ := .modify fun _ hs => { hs with subscriptions := hs.subscriptions.delete _ }
  setTotalDevGranted _ _ := .ite
    (fun _ => .modify fun _ hs => ⟨hs.lockups, hs.unlockings, hs.insurance, hs.developers, hs.subscriptions, hs.total⟩)
    fun _ => .crash _

theorem ledger_developerParts : DeveloperParts (Γ := Γ) Ledger where
  toStepParts := ledger_stepParts
  newDeveloper _ _ := .modify fun _ hs => hs.congr rfl rfl rfl
  changedDeveloper s _ _ _ _ := Eff.Keeps.modify (fun _ hs => hs.congr rfl rfl rfl) s
  deleteDeveloper _ := .modify fun _ hs => hs.congr rfl rfl rfl
  newSubscription _ _ _ _ _ _ := .modify fun _ hs => hs.congr rfl rfl rfl
  changedSubscription _ _ _ _ _ _ _ _ _ := .modify fun _ hs => hs.congr rfl rfl rfl
  deleteUserSubscription _ _ := .modify fun _ hs => hs.congr rfl rfl rfl
  setTotalDevGranted _ _ := .ite (fun _ => .modify fun _ hs => hs.congr rfl rfl rfl) fun _ => .crash _

section Runs

variable {Γ : ModuleEnv}

/-- In every run from an empty store, with slashing rates between zero and one, the records are under their keys and the ledger
is in order. -/
theorem run_named_ledger (env : Γ.σ) (steps : List (ModuleStep Γ))
    (hra : Run.AllSteps moduleStep ModuleRatesInUnit (emptyState Γ.toEnv env) steps) :
    Named (Run.run moduleStep (emptyState Γ.toEnv env) steps) ∧ Ledger (Run.run moduleStep (emptyState Γ.toEnv env) steps) := by
  constructor
  · refine Run.run_induction moduleStep (fun s m hs hr => ?_) hra (named_emptyState env)
    refine named_developerParts.moduleStep (fun s env hs => ?_) (fun s params hs => ?_) s m hs hr
    · exact ⟨hs.lockups, hs.unlockings, hs.insurance, hs.developers, hs.subscriptions, hs.total⟩
    · exact ⟨hs.lockups, hs.unlockings, hs.insurance, hs.developers, hs.subscriptions, hs.total⟩
  · refine Run.run_induction moduleStep (fun s m hs hr => ?_) hra (ledger_of_noLockups ⟨rfl, rfl, rfl⟩)
    exact ledger_developerParts.moduleStep (fun _ _ hs => hs.congr rfl rfl rfl) (fun _ _ hs => hs.congr rfl rfl rfl) s m hs hr

end Runs

end Vera.Tier
