import Vera.Tier.Subscription

/-!
# The start and the end of an epoch

At the start of an epoch all credits are burned and given out anew (`x/tier/keeper/credit.go`), and stake is locked for the
developers whose credits do not cover what they grant (`checkDeveloperCredits` of `subscription.go`); at its end the matured
lockups are redeemed. The hooks (`epoch_hook.go`) run in a cached context: an error or a panic drops their writes.
-/

namespace Vera.Tier

open Bytes (str)

variable {Γ : Env}

def creditText (amount : Int) : Bytes := Decimal.decInt amount ++ str "ucredit"

/-! ## Burning -/

/-- Take the credits of an account and burn them. -/
def burnCredit (delAddr : Bytes) (amount : Int) : M Γ Unit := do
  callEnv (wrap (str "send " ++ creditText amount ++ str " ucredit from " ++ Γ.accAddressString delAddr ++ str " to module"))
    (Γ.sendCoinsFromAccountToModule delAddr amount)
  callEnv (wrap (str "burn " ++ creditText amount ++ str " ucredit")) (Γ.burnCoins amount)

/-- The iteration of `burnAllCredits`, with the error variable that its callbacks share: each callback that finds credits
overwrites it, also with success. -/
def burnCredits : List (Bytes × Lockup) → Option Error → M Γ (Option Error)
  | [], err => pure err
  | e :: rest, err => do
    let (delAddr, _) ← Eff.lift (lockupKeyToAddresses e.1)
    let s ← Eff.read
    if Γ.getBalance s.env delAddr .ucredit ≤ 0 then burnCredits rest err
    else
      match ← (burnCredit delAddr (Γ.getBalance s.env delAddr .ucredit)).attempt with
      | .ok () => burnCredits rest none
      | .error e => burnCredits rest (some e)

/-- Burn the credits of all delegators with a lockup and set the total to zero. -/
def burnAllCredits : M Γ Unit := do
  let s ← Eff.read
  let err ← burnCredits s.lockups.entries none
  setTotalCreditAmount 0
  match err with
  | none => pure ()
  | some e => Eff.fail e

/-! ## Giving out -/

/-- Add an amount to the entry of a key in a Go map, kept in the order of insertion. -/
def addToEntry (key : Bytes) (amount : Int) : List (Bytes × Int) → List (Bytes × Int)
  | [] => [(key, amount)]
  | (k, a) :: rest => if k = key then (k, a + amount) :: rest else (k, a) :: addToEntry key amount rest

/-- The amounts that the delegators have locked and insured, by the text of their addresses. -/
def lockedAmounts (s : State Γ) : List (Bytes × Bytes × Lockup) → List (Bytes × Int) → List (Bytes × Int)
  | [], amounts => amounts
  | (delAddr, valAddr, lockup) :: rest, amounts =>
    lockedAmounts s rest
      (addToEntry (Γ.accAddressString delAddr) (lockup.amount + s.getInsuranceLockupAmount delAddr valAddr) amounts)

/-- The loop of `resetAllCredits` over the delegators, with the credits given out so far. -/
def resetCredits (rates : List Rate) : List (Bytes × Int) → Int → M Γ Int
  | [], totalCredit => pure totalCredit
  | (delStrAddr, amount) :: rest, totalCredit =>
    match Γ.accAddressFromBech32 delStrAddr with
    | .error _ => Eff.crash "invalid address"
    | .ok delAddr => do
      (mintCredit delAddr (calculateCredit rates 0 amount)).mapErr (Error.wrap
        (str "mint " ++ Decimal.decInt (calculateCredit rates 0 amount) ++ str " ucredit to " ++ Γ.accAddressString delAddr))
      resetCredits rates rest (totalCredit + calculateCredit rates 0 amount)

/-- Give every delegator with a lockup the credits of an epoch, and set the total. -/
def resetAllCredits : M Γ Unit := do
  let lockups ← iterateLockups
  let s ← Eff.read
  let totalCredit ← resetCredits s.params.rewardRates (Γ.rangeOrder (lockedAmounts s lockups [])) 0
  (setTotalCreditAmount totalCredit).mapErr (Error.wrap (str "set total credit amount"))

/-! ## Automatic locks -/

/-- Lock stake of a developer for credits that are missing. -/
def autoLockDeveloperCredits (ctx : Ctx) (developerAddr : Bytes) (lockAmount : Int) : M Γ Unit := do
  Eff.require (0 < lockAmount) ⟨.invalidAmount, str "auto-lock amount must be positive"⟩
  lockForDeveloper ctx developerAddr lockAmount

/-- Lock stake of a developer and report how it went. The error is swallowed, and what was written before it stays. -/
def tryAutoLock (ctx : Ctx) (developerAddr : Bytes) (lockAmount : Int) : M Γ Unit := do
  match ← (autoLockDeveloperCredits ctx developerAddr lockAmount).attempt with
  | .ok () => emit (.developerAutoLockSuccess developerAddr lockAmount)
  | .error e => emit (.developerAutoLockFailed developerAddr e)

/-- The credits that a developer lacks for what they grant. -/
def State.missingCredits (s : State Γ) (developerAddr : Bytes) : Int :=
  s.getTotalDevGranted developerAddr - Γ.getBalance s.env developerAddr .ucredit

def checkDeveloper (ctx : Ctx) (developerAddr : Bytes) : M Γ Unit := do
  let s ← Eff.read
  let creditBalance := Γ.getBalance s.env developerAddr .ucredit
  let totalGranted := s.getTotalDevGranted developerAddr
  if totalGranted ≤ creditBalance then pure ()
  else if ((s.getDeveloper developerAddr).map Developer.autoLockEnabled).getD false = false then
    emit (.developerInsufficientCredits developerAddr creditBalance totalGranted)
  else if Γ.getBalance s.env developerAddr .uopen < s.missingCredits developerAddr then
    emit (.developerInsufficientOpenForAutoLock developerAddr creditBalance totalGranted
      (Γ.getBalance s.env developerAddr .uopen) (s.missingCredits developerAddr))
  else tryAutoLock ctx developerAddr (s.missingCredits developerAddr)

/-- The iteration of `checkDeveloperCredits`, with the developers already met, by the text of their addresses. -/
def checkDevelopers (ctx : Ctx) : List (Bytes × UserSubscription) → List Bytes → M Γ Unit
  | [], _ => pure ()
  | e :: rest, processed => do
    let (developerAddr, _) ← Eff.lift (userSubscriptionKeyToAddresses e.1)
    if Γ.accAddressString developerAddr ∈ processed then checkDevelopers ctx rest processed
    else do
      checkDeveloper ctx developerAddr
      checkDevelopers ctx rest (Γ.accAddressString developerAddr :: processed)

/-- Check the credits of all developers who have granted some. -/
def checkDeveloperCredits (ctx : Ctx) : M Γ Unit := do
  let s ← Eff.read
  checkDevelopers ctx s.subscriptions.entries []

/-! ## The hooks -/

/-- The epoch that the hooks of the module run for. -/
def epochIdentifier : Bytes := str "tier"

def beforeEpochStart (ctx : Ctx) (identifier : Bytes) : M Γ Unit :=
  if identifier ≠ epochIdentifier then pure ()
  else do
    burnAllCredits.mapErr (Error.wrap (str "burn all credits"))
    resetAllCredits.mapErr (Error.wrap (str "reset all credits"))
    (checkDeveloperCredits ctx).mapErr (Error.wrap (str "check and lock developer credits"))

def afterEpochEnd (ctx : Ctx) (identifier : Bytes) : M Γ Unit :=
  if identifier ≠ epochIdentifier then pure ()
  else (completeUnlocking ctx).mapErr (Error.wrap (str "complete unlocking stakes"))

/-! ## What the hook at the start keeps -/

/-- The parts of the hook keep a property of the state: it may lock stake only for the developers of `D`. -/
structure HookParts (P : State Γ → Prop) (D : Bytes → Prop) : Prop where
  burnCredit : ∀ delAddr amount, (burnCredit delAddr amount : M Γ Unit).Keeps P
  mintCredit : ∀ delAddr amount, (mintCredit delAddr amount : M Γ Unit).Keeps P
  setTotalCreditAmount : ∀ total, (setTotalCreditAmount total : M Γ Unit).Keeps P
  lock : ∀ ctx developerAddr valAddr amt, D developerAddr → (lock ctx developerAddr valAddr amt : M Γ Unit).Keeps P
  emit : ∀ e, (emit e : M Γ Unit).Keeps P
  developers : ∀ s, P s → ∀ e ∈ s.subscriptions.entries, ∀ developerAddr userDid,
    (userSubscriptionKeyToAddresses e.1 : Outcome Error _) = .ok (developerAddr, userDid) → D developerAddr

section Credits

variable {P : State Γ → Prop}

theorem burnCredits_keeps (hb : ∀ delAddr amount, (burnCredit delAddr amount : M Γ Unit).Keeps P)
    (entries : List (Bytes × Lockup)) (err : Option Error) : (burnCredits entries err : M Γ _).Keeps P := by
  induction entries generalizing err with
  | nil => exact .pure _
  | cons e rest ih =>
    refine .bind (.lift _) fun (d, v) => .bind .read fun s => .ite (fun _ => ih err) fun _ => ?_
    refine .bind (hb _ _).attempt fun result => ?_
    cases result with
    | ok _ => exact ih none
    | error e => exact ih (some e)

theorem burnAllCredits_keeps (hb : ∀ delAddr amount, (burnCredit delAddr amount : M Γ Unit).Keeps P)
    (ht : ∀ total, (setTotalCreditAmount total : M Γ Unit).Keeps P) : (burnAllCredits : M Γ Unit).Keeps P := by
  refine .bind .read fun s => .bind (burnCredits_keeps hb _ _) fun err => .bind (ht 0) fun _ => ?_
  cases err with
  | none => exact .pure ()
  | some e => exact .fail e

theorem resetCredits_keeps (hm : ∀ delAddr amount, (mintCredit delAddr amount : M Γ Unit).Keeps P) (rates : List Rate)
    (amounts : List (Bytes × Int)) (total : Int) : (resetCredits rates amounts total : M Γ Int).Keeps P := by
  induction amounts generalizing total with
  | nil => exact .pure _
  | cons a rest ih =>
    unfold resetCredits
    split
    · exact .crash _
    · exact .bind (hm _ _).mapErr fun _ => ih _

theorem resetAllCredits_keeps (hm : ∀ delAddr amount, (mintCredit delAddr amount : M Γ Unit).Keeps P)
    (ht : ∀ total, (setTotalCreditAmount total : M Γ Unit).Keeps P) : (resetAllCredits : M Γ Unit).Keeps P :=
  .bind (.query _) fun _ => .bind .read fun _ => .bind (resetCredits_keeps hm _ _ _) fun _ => (ht _).mapErr

end Credits

section Hook

variable {P : State Γ → Prop} {D : Bytes → Prop} (parts : HookParts P D)

include parts

theorem HookParts.checkDeveloper (ctx : Ctx) {developerAddr : Bytes} (hD : D developerAddr) :
    (checkDeveloper ctx developerAddr : M Γ Unit).Keeps P := by
  refine .bind .read fun s => .ite (fun _ => .pure ()) fun _ => .ite (fun _ => parts.emit _) fun _ => ?_
  refine .ite (fun _ => parts.emit _) fun _ => .bind (Eff.Keeps.attempt ?_) fun result => ?_
  · exact .require_bind fun _ => .bind (.query _) fun _ => (parts.lock _ _ _ _ hD).mapErr
  · cases result with
    | ok _ => exact parts.emit _
    | error e => exact parts.emit _

theorem HookParts.checkDevelopers (ctx : Ctx) (entries : List (Bytes × UserSubscription)) (processed : List Bytes)
    (hD : ∀ e ∈ entries, ∀ developerAddr userDid,
      (userSubscriptionKeyToAddresses e.1 : Outcome Error _) = .ok (developerAddr, userDid) → D developerAddr) :
    (checkDevelopers ctx entries processed : M Γ Unit).Keeps P := by
  induction entries generalizing processed with
  | nil => exact .pure ()
  | cons e rest ih =>
    have hrest := fun e he => hD e (List.mem_cons_of_mem _ he)
    refine fun s => Eff.KeepsAt.lift_bind fun (d, did) hr => ?_
    refine Eff.Keeps.ite (fun _ => ih processed hrest) (fun _ => ?_) s
    exact .bind (parts.checkDeveloper ctx (hD e List.mem_cons_self d did hr)) fun _ => ih _ hrest

theorem HookParts.checkDeveloperCredits (ctx : Ctx) : (checkDeveloperCredits ctx : M Γ Unit).Keeps P :=
  fun s => Eff.KeepsAt.read_bind fun hs => parts.checkDevelopers ctx _ _ (parts.developers s hs) s hs

theorem HookParts.beforeEpochStart (ctx : Ctx) (identifier : Bytes) : (beforeEpochStart ctx identifier : M Γ Unit).Keeps P :=
  .ite (fun _ => .pure ()) fun _ =>
    .bind (burnAllCredits_keeps parts.burnCredit parts.setTotalCreditAmount).mapErr fun _ =>
    .bind (resetAllCredits_keeps parts.mintCredit parts.setTotalCreditAmount).mapErr fun _ =>
    (parts.checkDeveloperCredits ctx).mapErr

end Hook

end Vera.Tier
