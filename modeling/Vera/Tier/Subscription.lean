import Vera.Tier.Keeper

/-!
# Developers and their users

A developer grants users a number of credits in every period (`x/tier/keeper/subscription.go`, with `CreateDeveloper` and
`AddUserSubscription` of `keeper.go`). When the credits do not suffice and the developer wants it, stake is locked for them.
-/

namespace Vera.Tier

open Eff
open Bytes (str)

variable {Γ : Env}

def State.getDeveloper (s : State Γ) (developerAddr : Bytes) : Option Developer :=
  s.developers.get (developerKey developerAddr)

def State.getUserSubscription (s : State Γ) (developerAddr userDid : Bytes) : Option UserSubscription :=
  s.subscriptions.get (userSubscriptionKey developerAddr userDid)

def State.getTotalDevGranted (s : State Γ) (developerAddr : Bytes) : Int :=
  ((s.totalDevGranted.get (totalDevGrantedKey developerAddr)).getD 0).toNat

def State.availableCredits (s : State Γ) (developerAddr : Bytes) : Int :=
  Γ.getBalance s.env developerAddr .ucredit - s.getTotalDevGranted developerAddr

def setDeveloper (developerAddr : Bytes) (developer : Developer) : M Γ Unit :=
  Eff.modify fun s => { s with
    developers := s.developers.set (developerKey developerAddr) developer
    writes := s.writes ++ [.developer developerAddr] }

def setUserSubscription (developerAddr userDid : Bytes) (userSubscription : UserSubscription) : M Γ Unit :=
  Eff.modify fun s => { s with
    subscriptions := s.subscriptions.set (userSubscriptionKey developerAddr userDid) userSubscription
    writes := s.writes ++ [.userSubscription developerAddr userDid] }

def createDeveloper (developerAddr : Bytes) (autoLockEnabled : Bool) : M Γ Unit := do
  let s ← Eff.read
  Eff.require ((s.getDeveloper developerAddr).isNone = true)
    ⟨.invalidAddress, str "developer " ++ Γ.accAddressString developerAddr ++ str " already exists"⟩
  setDeveloper developerAddr ⟨Γ.accAddressString developerAddr, autoLockEnabled⟩
  emit (.developerCreated developerAddr autoLockEnabled)

/-! ### Locking for a developer -/

/-- The first of the largest lockups of a developer: its validator and its amount. -/
def largestLockup (developerAddr : Bytes) : List (Bytes × Bytes × Lockup) → Option (Bytes × Int) → Option (Bytes × Int)
  | [], chosen => chosen
  | (delAddr, valAddr, lockup) :: rest, chosen =>
    if delAddr ≠ developerAddr then largestLockup developerAddr rest chosen
    else
      match chosen with
      | none => largestLockup developerAddr rest (some (valAddr, lockup.amount))
      | some (valAddr', amount) =>
        largestLockup developerAddr rest (some (if lockup.amount > amount then (valAddr, lockup.amount) else (valAddr', amount)))

def firstValidator (s : State Γ) : Outcome Error Bytes :=
  match Γ.getAllValidators s.env with
  | .error e => .err ⟨.invalidAmount, str "failed to get validators: " ++ e⟩
  | .ok [] => .err ⟨.invalidAmount, str "no validators available for lockup"⟩
  | .ok (operator :: _) =>
    Outcome.ofExcept (fun e => ⟨.invalidAmount, str "invalid validator address: " ++ e⟩) (Γ.valAddressFromBech32 operator)

/-- The validator stake is locked with for a developer: that of the largest lockup, or else the first of all. -/
def chooseValidator (developerAddr : Bytes) : M Γ Bytes :=
  Eff.query fun s => do
    let lockups ← readLockups s.lockups.entries
    match largestLockup developerAddr lockups none with
    | some (valAddr, _) => pure valAddr
    | none => firstValidator s

/-- Lock stake of a developer with a validator chosen for them; `autoLockDeveloperCredits` and `addLockupForRegistration`
both end in this. -/
def lockForDeveloper (ctx : Ctx) (developerAddr : Bytes) (lockAmount : Int) : M Γ Unit := do
  let chosenValAddr ← chooseValidator developerAddr
  (lock ctx developerAddr chosenValAddr lockAmount).mapErr
    (fun e => ⟨.invalidAmount, str "failed to add lockup: " ++ e.text⟩)

/-- Lock stake for the credits that are missing for an amount. -/
def addLockupForRegistration (ctx : Ctx) (developerAddr : Bytes) (requiredAmount : Int) : M Γ Unit := do
  let s ← Eff.read
  if requiredAmount - s.availableCredits developerAddr ≤ 0 then pure ()
  else lockForDeveloper ctx developerAddr (requiredAmount - s.availableCredits developerAddr)

/-! ### Subscriptions -/

/-- Check that a developer has credits for an amount that are not granted. -/
def State.validateDeveloperCredits (s : State Γ) (developerAddr : Bytes) (requestedAmount : Int) : Except Error Unit :=
  if s.availableCredits developerAddr < requestedAmount then
    .error ⟨.invalidAddress,
      str "insufficient available credits: requested " ++ Decimal.decInt requestedAmount ++ str ", available " ++
      Decimal.decInt (s.availableCredits developerAddr) ++ str " (balance: " ++
      Decimal.decInt (Γ.getBalance s.env developerAddr .ucredit) ++ str ", already granted: " ++
      Decimal.decInt (s.getTotalDevGranted developerAddr) ++ str ")"⟩
  else .ok ()

/-- The rate by which missing credits are turned into stake: the first that applies to the amount, or else the last. -/
def effectiveRate (rewardRates : List Rate) (amount : Int) : Outcome Error Int :=
  let rate := ((rewardRates.find? fun r => r.amount ≤ amount).map (·.rate)).getD 0
  if rate ≤ 0 then
    match rewardRates.getLast? with
    | none => .panic "runtime error: index out of range [-1]"
    | some last => .ok last.rate
  else .ok rate

/-- The stake that earns an amount of credits at the effective rate, rounded up. -/
def stakeForCredits (rewardRates : List Rate) (amount : Int) : Outcome Error Int := do
  let rate ← effectiveRate rewardRates amount
  if rate = 0 then .panic "division by zero"
  else
    let lockAmt := (amount * 100 + Int.bmod (rate - 1) (2 ^ 64)).tdiv rate
    pure (if 0 < lockAmt then lockAmt else 1)

/-- Make sure that a developer has the credits for a subscription: lock stake for those that are missing. -/
def coverSubscription (ctx : Ctx) (developer : Developer) (developerAddr : Bytes) (amount : Int) : M Γ Unit := do
  let s ← Eff.read
  match s.validateDeveloperCredits developerAddr amount with
  | .ok () => pure ()
  | .error e => do
    Eff.require (developer.autoLockEnabled = true)
      ⟨.invalidAmount, str "insufficient credits and auto-lock disabled: " ++ e.text⟩
    let lockAmt ← Eff.query fun s => stakeForCredits s.params.rewardRates amount
    (addLockupForRegistration ctx developerAddr lockAmt).mapErr
      (fun e => ⟨.invalidAmount, str "auto-lock failed: " ++ e.text⟩)

/-- Store the credits a developer has granted, as an unsigned number. -/
def setTotalDevGranted (developerAddr : Bytes) (total : Int) : M Γ Unit :=
  if 0 ≤ total ∧ total < 2 ^ 64 then
    Eff.modify fun s => { s with
      totalDevGranted := s.totalDevGranted.set (totalDevGrantedKey developerAddr) (UInt64.ofNat total.toNat) }
  else Eff.crash "Uint64() out of bounds"

/-- Adjust the credits a developer has granted; a gauge shows them as a signed number. -/
def updateDeveloperTotalGranted (developerAddr : Bytes) (delta : Int) (add : Bool) : M Γ Unit := do
  let s ← Eff.read
  let current := s.getTotalDevGranted developerAddr
  let newTotal := if add then current + delta else current - delta
  Eff.require (add = true ∨ 0 ≤ newTotal) ⟨.invalidAmount, str "subtract " ++ Decimal.decInt delta ++
    str " from developer total granted " ++ Decimal.decInt current ++ str " would result in negative amount"⟩
  setTotalDevGranted developerAddr newTotal
  if isInt64 newTotal then pure () else Eff.crash "Int64() out of bound"

/-- Grant a user an allowance in every period; a grant that is there is updated. -/
def grantPeriodicDIDAllowance (ctx : Ctx) (granter granteeDID : Bytes) (spendLimit period : Int) : M Γ Unit := do
  let periodReset := ctx.blockTime.add period
  match ← (callEnv (wrap []) (Γ.updateDIDAllowance granter granteeDID spendLimit period periodReset)).attempt with
  | .ok () => pure ()
  | .error _ =>
    callEnv (wrap (str "failed to grant periodic DID allowance from " ++ Γ.accAddressString granter ++ str " to " ++ granteeDID))
      (Γ.grantDIDAllowance granter granteeDID spendLimit period periodReset)

/-- The length of the periods of a subscription in nanoseconds, in 64 bits; an epoch if it is zero. -/
def grantPeriod (period : UInt64) : M Γ Int :=
  Eff.query fun s =>
    let seconds := Int.bmod (Int.bmod period.toNat (2 ^ 64) * 1000000000) (2 ^ 64)
    if seconds = 0 then
      match s.params.epochDuration with
      | none => .panic "invalid memory address or nil pointer dereference"
      | some d => .ok d
    else .ok seconds

/-- The developer who acts: the one of the message, or the one the DID of the transaction stands for. -/
def actingDeveloper (Γ : Env) (ctx : Ctx) (developerAddr : Bytes) : Except Bytes Bytes :=
  match ctx.extractedDID with
  | some (b :: did) => Γ.getAddressFromDID (b :: did)
  | _ => .ok developerAddr

/-- The configuration of a developer; there must be one. -/
def requireDeveloper (developerAddr : Bytes) : M Γ Developer :=
  Eff.query fun s =>
    match s.getDeveloper developerAddr with
    | none => .err ⟨.invalidAddress, str "developer " ++ Γ.accAddressString developerAddr ++ str " not found"⟩
    | some developer => .ok developer

def addUserSubscription (ctx : Ctx) (developerAddr userDid : Bytes) (amount period : UInt64) : M Γ Unit := do
  let developerAddr ← Eff.query fun _ =>
    Outcome.ofExcept (wrap (str "convert DID to address")) (actingDeveloper Γ ctx developerAddr)
  let s ← Eff.read
  Eff.require ((s.getUserSubscription developerAddr userDid).isNone = true) ⟨.invalidAddress,
    str "user " ++ userDid ++ str " is already subscribed to developer " ++ Γ.accAddressString developerAddr⟩
  let developer ← requireDeveloper developerAddr
  coverSubscription ctx developer developerAddr amount.toNat
  setUserSubscription developerAddr userDid
    ⟨Γ.accAddressString developerAddr, userDid, amount, ctx.blockTime, period, ctx.blockTime⟩
  let grantPeriod ← grantPeriod period
  (grantPeriodicDIDAllowance ctx developerAddr userDid amount.toNat grantPeriod).mapErr
    (Error.wrap (str "grant periodic DID allowance"))
  (updateDeveloperTotalGranted developerAddr amount.toNat true).mapErr
    (fun e => ⟨.invalidAmount, str "failed to update total granted amount: " ++ e.text⟩)
  emit (.userSubscriptionCreated developerAddr userDid amount period)

/-! ### What the calls write when they succeed -/

variable {developerAddr : Bytes} {s t : State Γ} {u : Unit} {ctx : Ctx}

theorem createDeveloper_ok {autoLockEnabled : Bool} (h : (createDeveloper developerAddr autoLockEnabled).Succeeds s u t) :
    t.writes = s.writes ++ [.developer developerAddr] := by
  unfold createDeveloper setDeveloper at h
  simp only [read_bind_ok, require_bind_ok, modify_bind_ok] at h
  rw [emit_ok.1 h.2]

/-- The validator with which stake is locked to cover a subscription; none if the credits suffice. -/
def State.coveringValidator (s : State Γ) (developerAddr : Bytes) (amount : Int) : Option Bytes :=
  match s.validateDeveloperCredits developerAddr amount, stakeForCredits s.params.rewardRates amount,
      (chooseValidator developerAddr s).1 with
  | .error _, .ok lockAmt, .ok valAddr => if lockAmt - s.availableCredits developerAddr ≤ 0 then none else some valAddr
  | _, _, _ => none

theorem chooseValidator_ok {valAddr : Bytes}
    (h : (chooseValidator developerAddr).Succeeds s valAddr t) : (chooseValidator developerAddr s).1 = .ok valAddr ∧ t = s := by
  unfold chooseValidator at h ⊢
  exact query_ok.1 h

theorem coverSubscription_ok {developer : Developer} {amount : Int}
    (h : (coverSubscription ctx developer developerAddr amount).Succeeds s u t) :
    t.writes = s.writes ++ (s.coveringValidator developerAddr amount).toList.map (.lockup developerAddr) := by
  unfold coverSubscription at h
  rw [read_bind_ok] at h
  unfold State.coveringValidator
  split at h
  · rename_i hcr
    rw [hcr, (pure_ok.1 h).2]
    simp
  · rename_i e hcr
    simp only [require_bind_ok, query_bind_ok, mapErr_ok] at h
    obtain ⟨-, lockAmt, hs, h⟩ := h
    rw [hcr, hs]
    unfold addLockupForRegistration lockForDeveloper at h
    rw [read_bind_ok] at h
    split at h
    · rename_i hco
      rw [(pure_ok.1 h).2]
      split
      · rename_i hl _
        cases hl
        simp [hco]
      · simp
    · rename_i hm
      obtain ⟨valAddr, s₁, hch, h⟩ := bind_ok.1 h
      obtain ⟨hv, rfl⟩ := chooseValidator_ok hch
      obtain ⟨env, totalLockups, totalCredits, credit, rfl⟩ := lock_ok (mapErr_ok.1 h)
      simp [hv, hm]

theorem updateDeveloperTotalGranted_ok {delta : Int} {add : Bool}
    (h : (updateDeveloperTotalGranted developerAddr delta add).Succeeds s u t) :
    ∃ totalDevGranted, t = { s with totalDevGranted := totalDevGranted } := by
  unfold updateDeveloperTotalGranted at h
  simp only [read_bind_ok, require_bind_ok] at h
  obtain ⟨-, h⟩ := h
  generalize (if add = true then s.getTotalDevGranted developerAddr + delta else s.getTotalDevGranted developerAddr - delta) =
    newTotal at h
  obtain ⟨_, s₁, hs, h⟩ := bind_ok.1 h
  have ht : t = s₁ := by
    split at h
    · exact (pure_ok.1 h).2
    · exact absurd h crash_ok
  rw [ht]
  unfold setTotalDevGranted at hs
  split at hs
  · exact ⟨_, modify_ok.1 hs⟩
  · exact absurd hs crash_ok

/-- An allowance is updated, or else granted; the records of this module are not the concern of either. -/
theorem grantPeriodicDIDAllowance_ok {granter granteeDID : Bytes} {spendLimit period : Int}
    (h : (grantPeriodicDIDAllowance ctx granter granteeDID spendLimit period).Succeeds s u t) :
    ∃ env env', t = { s with env := env' } ∧
      ((Γ.updateDIDAllowance granter granteeDID spendLimit period (ctx.blockTime.add period)).Succeeds env () env' ∨
        (Γ.grantDIDAllowance granter granteeDID spendLimit period (ctx.blockTime.add period)).Succeeds env () env') := by
  unfold grantPeriodicDIDAllowance at h
  obtain ⟨r, s₁, hu, h⟩ := bind_ok.1 h
  cases r with
  | ok v =>
    obtain ⟨-, rfl⟩ := pure_ok.1 h
    obtain ⟨env, hen, rfl⟩ := callEnv_ok.1 (attempt_eq_ok hu)
    exact ⟨s.env, env, rfl, .inl hen⟩
  | error e =>
    -- an update that fails keeps what it wrote to the fee grants
    obtain ⟨env, hen, rfl⟩ := callEnv_ok.1 h
    have hs₁ := attempt_ok_state hu
    rw [callEnv] at hs₁
    exact ⟨s₁.env, env, by rw [hs₁], .inr hen⟩

theorem grantPeriod_ok {period : UInt64} {p : Int} :
    (grantPeriod period).Succeeds s p t ↔ (grantPeriod period s).1 = .ok p ∧ t = s := by
  simp only [grantPeriod, query_ok, Eff.query]

/-- The calls of a new subscription, one after the other. -/
theorem addUserSubscription_inv {userDid : Bytes} {amount period : UInt64}
    (h : (addUserSubscription ctx developerAddr userDid amount period).Succeeds s u t) :
    ∃ acting developer p s₁ s₂ s₃ s₄, actingDeveloper Γ ctx developerAddr = .ok acting ∧
      s.getUserSubscription acting userDid = none ∧ (coverSubscription ctx developer acting amount.toNat).Succeeds s () s₁ ∧
      s₂ = { s₁ with
        subscriptions := s₁.subscriptions.set (userSubscriptionKey acting userDid)
          ⟨Γ.accAddressString acting, userDid, amount, ctx.blockTime, period, ctx.blockTime⟩
        writes := s₁.writes ++ [.userSubscription acting userDid] } ∧
      (grantPeriod period s₂).1 = .ok p ∧
      (grantPeriodicDIDAllowance ctx acting userDid amount.toNat p).Succeeds s₂ () s₃ ∧
      (updateDeveloperTotalGranted acting amount.toNat true).Succeeds s₃ () s₄ ∧
      t = { s₄ with events := s₄.events ++ [.userSubscriptionCreated acting userDid amount period] } := by
  unfold addUserSubscription requireDeveloper setUserSubscription at h
  simp only [query_bind_ok, read_bind_ok, require_bind_ok, Outcome.ofExcept_eq_ok] at h
  obtain ⟨acting, ha, hnew, developer, -, h⟩ := h
  simp only [bind_ok, mapErr_ok, modify_ok, emit_ok] at h
  obtain ⟨_, s₁, hco, _, _, hs, p, s₂, hpe, _, s₃, hg, _, s₄, hto, ht⟩ := h
  obtain ⟨hp, rfl⟩ := grantPeriod_ok.1 hpe
  exact ⟨acting, developer, p, s₁, s₂, s₃, s₄, ha, Option.isNone_iff_eq_none.1 hnew, hco, hs, hp, hg, hto, ht⟩

theorem addUserSubscription_ok {userDid : Bytes} {amount period : UInt64}
    (h : (addUserSubscription ctx developerAddr userDid amount period).Succeeds s u t) :
    ∃ acting, actingDeveloper Γ ctx developerAddr = .ok acting ∧
      t.writes = s.writes ++ (s.coveringValidator acting amount.toNat).toList.map (.lockup acting) ++
        [.userSubscription acting userDid] := by
  obtain ⟨acting, _, _, s₁, _, _, _, ha, -, hco, rfl, -, hg, ht, rfl⟩ := addUserSubscription_inv h
  obtain ⟨_, _, rfl, -⟩ := grantPeriodicDIDAllowance_ok hg
  obtain ⟨_, rfl⟩ := updateDeveloperTotalGranted_ok ht
  exact ⟨acting, ha, by rw [coverSubscription_ok hco]⟩

end Vera.Tier
