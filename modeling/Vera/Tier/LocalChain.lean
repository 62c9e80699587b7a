import Mathlib.Logic.Function.Basic
import Vera.Tier.State

/-!
# A local chain

A bank and a staking module as simple as they can be: balances, the delegations of the tier module and their unbonding. The
modules behind `x/tier` behave like this one when nobody is slashed and a share is worth one token.
-/

namespace Vera.Tier

open Eff
open Bytes (str)

/-- The state of the modules behind `x/tier`. -/
structure Chain where
  uopen : Bytes → Int
  ucredit : Bytes → Int
  validators : List Bytes
  delegated : Bytes → Int
  unbonding : Bytes → List UnbondingEntry
  height : Int
  now : Time
  epoch : EpochInfo

namespace Chain

/-- The address of the tier module's account. -/
def tierAccount : Bytes := str "tier module account."

/-- The time unbonding takes, in nanoseconds: 21 days. -/
def unbondingTime : Int := 21 * 86400 * 1000000000

def move (balances : Bytes → Int) (a b : Bytes) (amount : Int) : Bytes → Int :=
  let taken := Function.update balances a (balances a - amount)
  Function.update taken b (taken b + amount)

def send (a b : Bytes) (amount : Int) : Eff Chain Bytes Unit := do
  let c ← Eff.read
  Eff.require (amount ≤ c.uopen a) (str "insufficient funds")
  Eff.modify fun c => { c with uopen := move c.uopen a b amount }

/-- Send credits from one account to another. -/
def sendCredit (a b : Bytes) (amount : Int) : Eff Chain Bytes Unit := do
  let c ← Eff.read
  Eff.require (amount ≤ c.ucredit a) (str "insufficient funds")
  Eff.modify fun c => { c with ucredit := move c.ucredit a b amount }

/-- Change the credits of the tier module's account. -/
def addCredit (amount : Int) : Eff Chain Bytes Unit :=
  Eff.modify fun c => { c with ucredit := Function.update c.ucredit tierAccount (c.ucredit tierAccount + amount) }

/-- Delegate stake of the tier module, from its account or from what is unbonding. -/
def delegate (amount : Int) (validator : Bytes) (subtractAccount : Bool) : Eff Chain Bytes Int := do
  Eff.modify fun c => { c with delegated := Function.update c.delegated validator (c.delegated validator + amount) }
  if subtractAccount then
    Eff.modify fun c => { c with uopen := Function.update c.uopen tierAccount (c.uopen tierAccount - amount) }
  else pure ()
  pure amount

def undelegate (validator : Bytes) (shares : Int) : Eff Chain Bytes (Time × Int) := do
  let c ← Eff.read
  let completionTime := c.now.add unbondingTime
  Eff.modify fun c => { c with
    delegated := Function.update c.delegated validator (c.delegated validator - shares)
    unbonding := Function.update c.unbonding validator (c.unbonding validator ++ [⟨c.height, completionTime, shares⟩]) }
  pure (completionTime, shares)

variable {c c' : Chain} {balances : Bytes → Int} {a b : Bytes} {amount : Int} {u : Unit}

theorem undelegate_ok {validator : Bytes} {shares : Int} {r : Time × Int}
    (h : (undelegate validator shares).Succeeds c r c') : r.2 = shares := by
  unfold undelegate at h
  simp only [read_bind_ok, modify_bind_ok, pure_ok] at h
  rw [h.1]

theorem move_from (amount : Int) (h : b ≠ a) : move balances a b amount a = balances a - amount := by
  unfold move
  rw [Function.update_of_ne h.symm, Function.update_self]

theorem move_to (amount : Int) (h : b ≠ a) : move balances a b amount b = balances b + amount := by
  unfold move
  rw [Function.update_self, Function.update_of_ne h]

theorem move_self (amount : Int) : move balances a a amount a = balances a := by
  unfold move
  rw [Function.update_self, Function.update_self]
  omega

theorem move_other {c : Bytes} (amount : Int) (ha : c ≠ a) (hb : c ≠ b) : move balances a b amount c = balances c := by
  unfold move
  rw [Function.update_of_ne hb, Function.update_of_ne ha]

theorem send_ok (h : (send a b amount).Succeeds c u c') : c' = { c with uopen := move c.uopen a b amount } := by
  unfold send at h
  rw [read_bind_ok, require_bind_ok] at h
  exact modify_ok.1 h.2

theorem sendCredit_ok
    (h : (sendCredit a b amount).Succeeds c u c') : c' = { c with ucredit := move c.ucredit a b amount } := by
  unfold sendCredit at h
  rw [read_bind_ok, require_bind_ok] at h
  exact modify_ok.1 h.2

theorem send_cases (a b : Bytes) (amount : Int) (c : Chain) : send a b amount c = (.err (str "insufficient funds"), c) ∨
      send a b amount c = (.ok (), { c with uopen := move c.uopen a b amount }) := by
  unfold send
  rw [read_bind, require_bind_apply]
  split
  · exact .inr rfl
  · exact .inl rfl

theorem sendCredit_else (a b : Bytes) (amount : Int) (c : Chain) :
    (sendCredit a b amount c).2.uopen = c.uopen ∧ (sendCredit a b amount c).2.unbonding = c.unbonding ∧
      (sendCredit a b amount c).2.delegated = c.delegated := by
  unfold sendCredit
  rw [read_bind, require_bind_apply]
  split <;> exact ⟨rfl, rfl, rfl⟩

/-- An address of one byte or more, and at most 255. -/
def parseAddress (s : Bytes) : Except Bytes Bytes :=
  if s = [] then .error (str "empty address string is not allowed")
  else if 255 < s.length then .error (str "address max length is 255")
  else .ok s

end Chain

/-- The local chain as the environment of `x/tier`; the text of an address is the address. -/
def localChain : Env where
  σ := Chain
  Validator := Bytes
  Shares := Int
  moduleAddress := Chain.tierAccount
  accAddressFromBech32 := Chain.parseAddress
  valAddressFromBech32 := Chain.parseAddress
  accAddressString := id
  valAddressString := id
  validDenom := fun denom => decide (3 ≤ denom.length)
  getAddressFromDID := fun did => .ok (did.drop 4)
  getBalance := fun c a denom =>
    match denom with
    | .uopen => c.uopen a
    | .ucredit => c.ucredit a
  delegateCoinsFromAccountToModule := fun a amount => Chain.send a Chain.tierAccount amount
  undelegateCoinsFromModuleToAccount := fun a amount => Chain.send Chain.tierAccount a amount
  mintCoins := Chain.addCredit
  burnCoins := fun amount => Chain.addCredit (-amount)
  sendCoinsFromModuleToAccount := fun a amount => Chain.sendCredit Chain.tierAccount a amount
  sendCoinsFromAccountToModule := fun a amount => Chain.sendCredit a Chain.tierAccount amount
  getValidator := fun c v => if v ∈ c.validators then .ok v else .error (str "validator does not exist")
  getAllValidators := fun c => .ok c.validators
  delegate := fun amount _ validator subtractAccount => Chain.delegate amount validator subtractAccount
  getDelegation := fun c v => .ok (c.delegated v)
  validateUnbondAmount := fun c v amount => if amount ≤ c.delegated v then .ok amount else .error (str "invalid shares amount")
  isPositive := fun shares => decide (0 < shares)
  undelegate := Chain.undelegate
  getUnbondingDelegation := fun c v =>
    if c.unbonding v = [] then .error (str "no unbonding delegation found") else .ok (c.unbonding v)
  setUnbondingDelegation := fun v entries =>
    Eff.modify fun c : Chain => { c with unbonding := Function.update c.unbonding v entries }
  removeUnbondingDelegation := fun v => Eff.modify fun c : Chain => { c with unbonding := Function.update c.unbonding v [] }
  getEpochInfo := Chain.epoch
  updateDIDAllowance := fun _ _ _ _ _ => Eff.fail (str "fee-grant not found")
  grantDIDAllowance := fun _ _ _ _ _ => pure ()
  rangeOrder := id

/-- A store with nothing in it, on a local chain. -/
def genesisOn (c : Chain) : State localChain where
  env := c
  lockups := KVStore.empty
  unlockings := KVStore.empty
  insurance := KVStore.empty
  developers := KVStore.empty
  subscriptions := KVStore.empty
  totalDevGranted := KVStore.empty
  totalLockups := none
  totalCredits := none
  params := defaultParams
  events := []
  writes := []

/-! ### One delegator and one validator, at height 5 in the middle of an epoch -/

def alice : Bytes := str "delegator address 20"

def operator : Bytes := str "validator address 20"

def epochStart : Time := Time.ofUnix 1700000000

def oneDelegator : Chain where
  uopen := Function.update (fun _ => 0) alice 1000
  ucredit := fun _ => 0
  validators := [operator]
  delegated := fun _ => 0
  unbonding := fun _ => []
  height := 5
  now := epochStart.add 150000000000
  epoch := ⟨epochStart, 300000000000⟩

instance neZero_ten : NeZero 10 := ⟨by decide⟩

/-- The context of a message at a height, in the middle of the epoch. -/
def midEpoch (height : Fin 10) : Ctx := ⟨(height : Nat), by omega, epochStart.add 150000000000, none⟩

/-- The context of the end of an epoch, 22 days later. -/
def afterUnbonding : Ctx := ⟨9, by decide, epochStart.add (22 * 86400 * 1000000000), none⟩

end Vera.Tier
