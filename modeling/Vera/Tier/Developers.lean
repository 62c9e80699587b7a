import Vera.Tier.Subscription

/-!
# Changing and removing developers and subscriptions

`UpdateDeveloper`, `RemoveDeveloper`, `UpdateUserSubscription` and `RemoveUserSubscription` (`x/tier/keeper/keeper.go`). A
change or removal of a subscription is for the developer whom the DID of the transaction stands for, if there is one. The
removal of a developer removes the subscriptions it finds under the developer's address one by one, in the same way, and goes
on when one of them cannot be removed.
-/

namespace Vera.Tier

open List Outcome
open Bytes (str)

/-- The modules that `x/tier` calls, with the expiry of fee grants, which only the removal of a subscription calls. -/
structure GrantEnv extends Env where
  expireDIDAllowance : Ctx → Bytes → Bytes → Eff σ Bytes Unit

section Calls

variable {Γ : Env}

/-- `removeDeveloper` of `subscription.go`: delete the configuration of a developer. -/
def deleteDeveloper (developerAddr : Bytes) : M Γ Unit :=
  Eff.modify fun s => { s with developers := s.developers.delete (developerKey developerAddr) }

/-- `removeUserSubscription` of `subscription.go`: delete a subscription. -/
def deleteUserSubscription (developerAddr userDid : Bytes) : M Γ Unit :=
  Eff.modify fun s => { s with subscriptions := s.subscriptions.delete (userSubscriptionKey developerAddr userDid) }

/-- The developer to be changed or removed; there must be one. -/
def requireExistingDeveloper (developerAddr : Bytes) : M Γ Developer :=
  Eff.query fun s => Outcome.ofOption
    ⟨.invalidAddress, str "developer " ++ Γ.accAddressString developerAddr ++ str " does not exist"⟩
    (s.getDeveloper developerAddr)

/-- The subscription to be changed or removed; there must be one. -/
def requireUserSubscription (developerAddr userDid : Bytes) : M Γ UserSubscription :=
  Eff.query fun s => Outcome.ofOption
    ⟨.invalidAddress, str "user " ++ userDid ++ str " is not subscribed to developer " ++ Γ.accAddressString developerAddr⟩
    (s.getUserSubscription developerAddr userDid)

/-- The developer who acts, or the error of a DID that has no address. -/
def requireActingDeveloper (ctx : Ctx) (developerAddr : Bytes) : M Γ Bytes :=
  Eff.query fun _ => Outcome.ofExcept (wrap (str "convert DID to address")) (actingDeveloper Γ ctx developerAddr)

/-- Change whether missing credits of a developer are locked automatically. -/
def updateDeveloper (developerAddr : Bytes) (autoLockEnabled : Bool) : M Γ Unit := do
  let developer ← requireExistingDeveloper developerAddr
  setDeveloper developerAddr { developer with autoLockEnabled := autoLockEnabled }
  emit (.developerUpdated developerAddr autoLockEnabled)

/-- Adjust the credits a developer has granted when the amount of a subscription changes. -/
def adjustTotalGranted (developerAddr : Bytes) (oldAmount amount : UInt64) : M Γ Unit :=
  if oldAmount < amount then updateDeveloperTotalGranted developerAddr (amount - oldAmount).toNat true
  else if amount < oldAmount then updateDeveloperTotalGranted developerAddr (oldAmount - amount).toNat false
  else pure ()

/-- Change the amount and the period of a subscription. -/
def updateUserSubscription (ctx : Ctx) (developerAddr userDid : Bytes) (amount period : UInt64) : M Γ Unit := do
  let developerAddr ← requireActingDeveloper ctx developerAddr
  let userSubscription ← requireUserSubscription developerAddr userDid
  adjustTotalGranted developerAddr userSubscription.creditAmount amount
  setUserSubscription developerAddr userDid
    { userSubscription with creditAmount := amount, period := period, lastRenewed := ctx.blockTime }
  let updatePeriod ← grantPeriod period
  (grantPeriodicDIDAllowance ctx developerAddr userDid amount.toNat updatePeriod).mapErr
    (Error.wrap (str "grant periodic DID allowance"))
  emit (.userSubscriptionUpdated developerAddr userDid amount period)

/-- The developers and users in a list of subscription keys; a key that cannot be read panics. -/
def readSubscriptionKeys : List (Bytes × UserSubscription) → Outcome Error (List (Bytes × Bytes))
  | [] => .ok []
  | (key, _) :: rest => do
    let addrs ← userSubscriptionKeyToAddresses key
    let others ← readSubscriptionKeys rest
    pure (addrs :: others)

/-- What `mustIterateUserSubscriptionsForDeveloper` gives to its callback: all keys that start with the bytes of the address,
as the reader reads them. -/
def State.subscriptionsForDeveloper (s : State Γ) (developerAddr : Bytes) : Outcome Error (List (Bytes × Bytes)) :=
  readSubscriptionKeys (s.subscriptions.entries.filter fun e => developerAddr.isPrefixOf e.1)

end Calls

section Removal

variable {Γ : GrantEnv}

/-- Remove a subscription. An error of the fee grants is ignored. -/
def removeUserSubscription (ctx : Ctx) (developerAddr userDid : Bytes) : M Γ.toEnv Unit := do
  let developerAddr ← requireActingDeveloper ctx developerAddr
  let existingSub ← requireUserSubscription developerAddr userDid
  updateDeveloperTotalGranted developerAddr existingSub.creditAmount.toNat false
  deleteUserSubscription developerAddr userDid
  let _ ← (callEnv (wrap []) (Γ.expireDIDAllowance ctx developerAddr userDid)).attempt
  emit (.userSubscriptionRemoved developerAddr userDid)

def tryRemoveUserSubscription (ctx : Ctx) (sub : Bytes × Bytes) : M Γ.toEnv Unit := do
  let _ ← (removeUserSubscription ctx sub.1 sub.2).attempt
  pure ()

def removeDeveloper (ctx : Ctx) (developerAddr : Bytes) : M Γ.toEnv Unit := do
  let _ ← requireExistingDeveloper developerAddr
  let subscriptionsToRemove ← Eff.query fun s => s.subscriptionsForDeveloper developerAddr
  Eff.forEach subscriptionsToRemove (tryRemoveUserSubscription ctx)
  deleteDeveloper developerAddr
  emit (.developerRemoved developerAddr)

end Removal

/-! ## Keys -/

/-- Whether a key is that of a subscription of a developer. -/
def subscriptionKeyOf (developerAddr key : Bytes) : Bool :=
  key = userSubscriptionKey developerAddr (slice key (developerAddr.length + 1) (key.length - 1))

theorem userSubscriptionKey_user (d u : Bytes) :
    slice (userSubscriptionKey d u) (d.length + 1) ((userSubscriptionKey d u).length - 1) = u :=
  KeysAux.slice_middle (d ++ [keySeparator]) u [keySeparator] (by simp) (by simp [userSubscriptionKey]; omega)

variable {d key u u' d' : Bytes} {entries : List (Bytes × UserSubscription)} {subs : List (Bytes × Bytes)}

theorem subscriptionKeyOf_iff : subscriptionKeyOf d key = true ↔ ∃ u, key = userSubscriptionKey d u := by
  unfold subscriptionKeyOf
  rw [decide_eq_true_eq]
  constructor
  · intro h
    exact ⟨_, h⟩
  · rintro ⟨u, rfl⟩
    rw [userSubscriptionKey_user]

theorem userSubscriptionKey_inj_right (h : userSubscriptionKey d u = userSubscriptionKey d u') : u = u' := by
  unfold userSubscriptionKey at h
  exact append_cancel_left (append_cancel_right h)

theorem userSubscriptionKey_inj (hl : d.length = d'.length)
    (h : userSubscriptionKey d u = userSubscriptionKey d' u') : d = d' ∧ u = u' := by
  have hd : d = d' := by
    unfold userSubscriptionKey at h
    simp only [append_assoc] at h
    exact (append_inj h hl).1
  subst hd
  exact ⟨rfl, userSubscriptionKey_inj_right h⟩

theorem totalDevGrantedKey_inj : totalDevGrantedKey d = totalDevGrantedKey d' ↔ d = d' :=
  append_left_inj _

theorem developerKey_inj : developerKey d = developerKey d' ↔ d = d' := append_left_inj _

/-- The keys the iteration over a developer's subscriptions reads: each starts with the bytes of the address, and its
developer has twenty. -/
theorem mem_readSubscriptionKeys (h : readSubscriptionKeys entries = .ok subs) (a u : Bytes) :
    (a, u) ∈ subs ↔ a.length = 20 ∧ ∃ sub, (userSubscriptionKey a u, sub) ∈ entries := by
  induction entries generalizing subs with
  | nil =>
    obtain rfl := Outcome.ok.inj h
    simp
  | cons e rest ih =>
    obtain ⟨key, sub⟩ := e
    rw [readSubscriptionKeys, bind_eq_ok] at h
    obtain ⟨⟨a', u'⟩, hr, h⟩ := h
    obtain ⟨others, hot, h⟩ := bind_eq_ok.1 h
    obtain rfl := pure_eq_ok.1 h
    obtain ⟨hl, rfl⟩ := userSubscriptionKeyToAddresses_eq_ok.1 hr
    rw [mem_cons, ih hot]
    constructor
    · rintro (heq | ⟨ha, sub', hmem⟩)
      · obtain ⟨rfl, rfl⟩ := Prod.mk.inj heq
        exact ⟨hl, sub, mem_cons_self⟩
      · exact ⟨ha, sub', mem_cons_of_mem _ hmem⟩
    · rintro ⟨ha, sub', hmem⟩
      rcases mem_cons.1 hmem with heq | hmem
      · obtain ⟨rfl, rfl⟩ := userSubscriptionKey_inj (ha.trans hl.symm) (Prod.mk.inj heq).1
        exact .inl rfl
      · exact .inr ⟨ha, sub', hmem⟩

theorem key_of_readSubscriptionKeys
    (h : readSubscriptionKeys entries = .ok subs) {sub : UserSubscription} (hmem : (key, sub) ∈ entries) :
    ∃ a u, a.length = 20 ∧ key = userSubscriptionKey a u ∧ (a, u) ∈ subs := by
  induction entries generalizing subs with
  | nil => cases hmem
  | cons e rest ih =>
    rw [readSubscriptionKeys, bind_eq_ok] at h
    obtain ⟨⟨a, u⟩, hr, h⟩ := h
    obtain ⟨others, hot, h⟩ := bind_eq_ok.1 h
    obtain rfl := pure_eq_ok.1 h
    rcases mem_cons.1 hmem with rfl | hmem
    · obtain ⟨hl, hke⟩ := userSubscriptionKeyToAddresses_eq_ok.1 hr
      exact ⟨a, u, hl, hke, mem_cons_self⟩
    · obtain ⟨a', u', hl, hke, hin⟩ := ih hot hmem
      exact ⟨a', u', hl, hke, mem_cons_of_mem _ hin⟩

end Vera.Tier
