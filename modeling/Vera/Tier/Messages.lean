import Vera.Tier.LocalChain
import Vera.Tier.Subscription

/-!
# Messages of the tier module

The stateless checks of the messages (`x/tier/types/messages.go`) and the message server (`x/tier/keeper/msg_server.go`), with
the keys the messages write. The checks accept an account address of any length, and the keys have no length in them: an
iterator that cuts a key after twenty bytes reads back what the key was built from exactly when the addresses have twenty.
-/

namespace Vera.Tier

open Eff
open Bytes (str)

variable {Γ : Env}

/-- A coin of a message; the amount is missing when the field is. -/
structure Coin where
  denom : Bytes
  amount : Option Int
  deriving Repr, DecidableEq

def Coin.text (c : Coin) : Bytes := (c.amount.map Decimal.decInt).getD (str "<nil>") ++ c.denom

/-- `Coin.IsValid`: a denomination that is allowed and an amount that is there and not negative. -/
def Coin.isValid (Γ : Env) (c : Coin) : Bool :=
  Γ.validDenom c.denom &&
    match c.amount with
    | none => false
    | some amount => 0 ≤ amount

/-- The messages that write records of the four kinds. -/
inductive Msg where
  | lock (delegatorAddress validatorAddress : Bytes) (stake : Coin)
  | unlock (delegatorAddress validatorAddress : Bytes) (stake : Coin)
  | createDeveloper (developer : Bytes) (autoLockEnabled : Bool)
  | addUserSubscription (developer userDid : Bytes) (amount period : UInt64)
  deriving Repr, DecidableEq

/-! ## Stateless checks -/

def validateAccAddr (Γ : Env) (address : Bytes) : Except Error Unit :=
  match Γ.accAddressFromBech32 address with
  | .error e => .error ⟨.invalidAddress, str "delegator address " ++ address ++ str ":" ++ e⟩
  | .ok _ => .ok ()

def validateValAddr (Γ : Env) (address : Bytes) : Except Error Unit :=
  match Γ.valAddressFromBech32 address with
  | .error e => .error ⟨.invalidAddress, str "validator address " ++ address ++ str ":" ++ e⟩
  | .ok _ => .ok ()

/-- Check a stake: a positive 64-bit amount of `uopen`. -/
def validateDenom (Γ : Env) (stake : Coin) : Except Error Unit :=
  if stake.isValid Γ = false ∨ ¬0 < stake.amount.getD 0 ∨ isInt64 (stake.amount.getD 0) = false then
    .error ⟨.invalidDenom, str "invalid amount " ++ stake.text⟩
  else if stake.denom ≠ str "uopen" then
    .error ⟨.invalidDenom, str "got " ++ stake.denom ++ str ", expected uopen"⟩
  else .ok ()

def validateSubscription (Γ : Env) (developer userDid : Bytes) (amount period : UInt64) : Except Error Unit := do
  validateAccAddr Γ developer
  if userDid.length ≤ 4 ∨ userDid.take 4 ≠ str "did:" then .error ⟨.invalidDID, []⟩
  else if amount = 0 then .error ⟨.invalidAmount, []⟩
  else if period = 0 then .error ⟨.invalidSubscriptionPeriod, []⟩
  else pure ()

def Msg.validateBasic (Γ : Env) : Msg → Except Error Unit
  | .lock d v stake | .unlock d v stake => do
    validateAccAddr Γ d
    validateValAddr Γ v
    validateDenom Γ stake
  | .createDeveloper developer _ => validateAccAddr Γ developer
  | .addUserSubscription developer userDid amount period => validateSubscription Γ developer userDid amount period

/-! ## The message server -/

def mustAccAddress (address : Bytes) : M Γ Bytes :=
  Eff.query fun _ =>
    match Γ.accAddressFromBech32 address with
    | .error _ => .panic "invalid account address"
    | .ok addr => .ok addr

def mustValAddress (address : Bytes) : M Γ Bytes :=
  Eff.query fun _ =>
    match Γ.valAddressFromBech32 address with
    | .error _ => .panic "invalid validator address"
    | .ok addr => .ok addr

/-- The amount of a stake; one that is missing is a nil pointer. -/
def stakeAmount (stake : Coin) : M Γ Int :=
  Eff.query fun _ =>
    match stake.amount with
    | none => .panic "invalid memory address or nil pointer dereference"
    | some amount => .ok amount

def handle (ctx : Ctx) : Msg → M Γ Unit
  | .lock d v stake => do
    let delAddr ← mustAccAddress d
    let valAddr ← mustValAddress v
    let amount ← stakeAmount stake
    (lock ctx delAddr valAddr amount).mapErr (Error.wrap (str "lock"))
  | .unlock d v stake => do
    let delAddr ← mustAccAddress d
    let valAddr ← mustValAddress v
    let amount ← stakeAmount stake
    let _ ← (unlock ctx delAddr valAddr amount).mapErr (Error.wrap (str "undelegate"))
    pure ()
  | .createDeveloper developer autoLockEnabled => do
    let developerAddr ← mustAccAddress developer
    (createDeveloper developerAddr autoLockEnabled).mapErr (Error.wrap (str "create developer"))
  | .addUserSubscription developer userDid amount period => do
    let developerAddr ← mustAccAddress developer
    (addUserSubscription ctx developerAddr userDid amount period).mapErr (Error.wrap (str "add subscription"))

def deliver (ctx : Ctx) (msg : Msg) : M Γ Unit := do
  Eff.query fun _ => Outcome.ofExcept id (msg.validateBasic Γ)
  handle ctx msg

/-! ## The keys of a message -/

/-- The addresses in the keys a message writes: those of the delegator and the validator, or of the developer who acts and of
the validator with which stake is locked to cover a subscription. -/
def Msg.keyAddresses (ctx : Ctx) (s : State Γ) : Msg → List Bytes
  | .lock d v _ | .unlock d v _ =>
    (Γ.accAddressFromBech32 d).toOption.toList ++ (Γ.valAddressFromBech32 v).toOption.toList
  | .createDeveloper developer _ => (Γ.accAddressFromBech32 developer).toOption.toList
  | .addUserSubscription developer _ amount _ =>
    match Γ.accAddressFromBech32 developer >>= actingDeveloper Γ ctx with
    | .ok acting => acting :: (s.coveringValidator acting amount.toNat).toList
    | .error _ => []

namespace MessagesAux

variable {β : Type} {address d v : Bytes} {f : Bytes → M Γ β} {s t : State Γ} {b : β} {amt : Int} {u : Unit}

theorem mustAccAddress_bind_ok :
    (mustAccAddress address >>= f).Succeeds s b t ↔ ∃ a, Γ.accAddressFromBech32 address = .ok a ∧ (f a).Succeeds s b t := by
  unfold mustAccAddress
  rw [query_bind_ok]
  cases Γ.accAddressFromBech32 address with
  | error e => simp
  | ok a => simp

theorem mustValAddress_bind_ok :
    (mustValAddress address >>= f).Succeeds s b t ↔ ∃ a, Γ.valAddressFromBech32 address = .ok a ∧ (f a).Succeeds s b t := by
  unfold mustValAddress
  rw [query_bind_ok]
  cases Γ.valAddressFromBech32 address with
  | error e => simp
  | ok a => simp

theorem stakeAmount_bind_ok {stake : Coin} {f : Int → M Γ β}
    (h : (stakeAmount stake >>= f).Succeeds s b t) : ∃ a, (f a).Succeeds s b t := by
  unfold stakeAmount at h
  obtain ⟨a, -, h⟩ := query_bind_ok.1 h
  exact ⟨a, h⟩

/-- What a message writes: keys in the range of the clock, with the addresses of the message in them. -/
def WritesKeys (s t : State Γ) (addresses : List Bytes) : Prop :=
  ∃ keys : List RecordKey, t.writes = s.writes ++ keys ∧ (∀ k ∈ keys, k.HeightInRange) ∧
    ∀ a, a ∈ addresses ↔ ∃ k ∈ keys, a ∈ k.addresses

theorem lock_writes {ctx : Ctx} (h : (lock ctx d v amt).Succeeds s u t) : WritesKeys s t [d, v] := by
  obtain ⟨_, _, _, _, rfl⟩ := lock_ok h
  refine ⟨[.lockup d v], rfl, by simp [RecordKey.HeightInRange], by simp [RecordKey.addresses]⟩

theorem unlock_writes {ctx : Ctx} {r : Int × Time × Time}
    (h : (unlock ctx d v amt).Succeeds s r t) : WritesKeys s t [d, v] := by
  obtain ⟨s₁, _, _, _, _, hs, -, -, -, -, -, hw⟩ := unlock_ok h
  obtain ⟨lockup, -, ⟨-, rfl⟩ | ⟨-, rfl⟩⟩ := subtractLockup_ok hs
  · exact ⟨[.unlockingLockup d v ctx.blockHeight], hw, by simpa [RecordKey.HeightInRange] using ctx.int64_height,
      by simp [RecordKey.addresses]⟩
  -- what is left of the lockup is written too, under the same two addresses
  · refine ⟨[.lockup d v, .unlockingLockup d v ctx.blockHeight], by simp [hw], ?_, by simp [RecordKey.addresses]⟩
    simpa [RecordKey.HeightInRange] using ctx.int64_height

theorem addUserSubscription_writes {ctx : Ctx} {developer acting userDid : Bytes} {amount period : UInt64}
    (h : (addUserSubscription ctx developer userDid amount period).Succeeds s u t)
    (ha : actingDeveloper Γ ctx developer = .ok acting) :
    WritesKeys s t (acting :: (s.coveringValidator acting amount.toNat).toList) := by
  obtain ⟨acting', ha', hw⟩ := addUserSubscription_ok h
  obtain rfl : acting = acting' := Except.ok.inj (ha.symm.trans ha')
  refine ⟨(s.coveringValidator acting amount.toNat).toList.map (.lockup acting) ++ [.userSubscription acting userDid],
    by rw [hw, List.append_assoc], ?_, ?_⟩
  · cases s.coveringValidator acting amount.toNat <;> simp [RecordKey.HeightInRange]
  · cases s.coveringValidator acting amount.toNat <;> simp [RecordKey.addresses, or_comm]

theorem deliver_writes {ctx : Ctx} {msg : Msg} (h : (deliver ctx msg).Succeeds s u t) :
    WritesKeys s t (msg.keyAddresses ctx s) := by
  unfold deliver at h
  obtain ⟨_, -, h⟩ := query_bind_ok.1 h
  cases msg with
  | lock d v stake =>
    simp only [handle, mustAccAddress_bind_ok, mustValAddress_bind_ok] at h
    obtain ⟨delAddr, hd, valAddr, hv, h⟩ := h
    obtain ⟨amount, h⟩ := stakeAmount_bind_ok h
    simp only [Msg.keyAddresses, hd, hv]
    exact lock_writes (mapErr_ok.1 h)
  | unlock d v stake =>
    simp only [handle, mustAccAddress_bind_ok, mustValAddress_bind_ok] at h
    obtain ⟨delAddr, hd, valAddr, hv, h⟩ := h
    obtain ⟨amount, h⟩ := stakeAmount_bind_ok h
    obtain ⟨_, s₁, hu, h⟩ := bind_ok.1 h
    rw [(pure_ok.1 h).2]
    simp only [Msg.keyAddresses, hd, hv]
    exact unlock_writes (mapErr_ok.1 hu)
  | createDeveloper developer autoLockEnabled =>
    simp only [handle, mustAccAddress_bind_ok] at h
    obtain ⟨developerAddr, hd, h⟩ := h
    simp only [Msg.keyAddresses, hd]
    exact ⟨[.developer developerAddr], createDeveloper_ok (mapErr_ok.1 h), by simp [RecordKey.HeightInRange],
      by simp [RecordKey.addresses, Except.toOption]⟩
  | addUserSubscription developer userDid amount period =>
    simp only [handle, mustAccAddress_bind_ok] at h
    obtain ⟨developerAddr, hd, h⟩ := h
    have h := mapErr_ok.1 h
    obtain ⟨acting, ha, -⟩ := addUserSubscription_ok h
    have hb : (Γ.accAddressFromBech32 developer >>= actingDeveloper Γ ctx) = .ok acting := by
      rw [hd]
      exact ha
    simp only [Msg.keyAddresses, hb]
    exact addUserSubscription_writes h ha

end MessagesAux

open MessagesAux

/-! ## On a local chain -/

section LocalChain

/-- An account address of 32 bytes, as accounts derived from a module have. -/
def derivedAccount : Bytes := str "account address of thirty-two b."

/-- The chain on which both accounts hold 1000. -/
def twoDelegators : Chain :=
  { oneDelegator with uopen := Function.update (Function.update (fun _ => 0) alice 1000) derivedAccount 1000 }

def lockOf (delegator : Bytes) : Msg := .lock delegator operator ⟨str "uopen", some 100⟩

end LocalChain

end Vera.Tier
