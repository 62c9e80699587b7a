import Vera.Core.Ante
import Vera.Feegrant.Keeper

/-!
# The fees of a transaction

`CustomDeductFeeDecorator` (`app/ante/fee.go`) behind `ExtensionOptionsDecorator` in the chain of `NewAnteHandler`. Who pays
depends on the values that the first decorator put in the context: a relay pays through a fee grant to its worker, the holder
of a bearer token through a grant to the DID, and anybody else through the fee granter of the transaction or alone.
-/

namespace Vera.App

open Bytes (str)

/-- The libraries and the keepers of the two decorators. -/
structure Env where
  sdk : Core.Sdk
  jws : Core.Jws
  grants : Feegrant.Env
  /-- The balances. -/
  Bank : Type
  /-- `accountKeeper.GetModuleAddress` of the fee collector. -/
  feeCollector : Option Bytes
  /-- `accountKeeper.GetAccount`: the address of the account, if there is one. -/
  getAccount : grants.σ → Bytes → Option Bytes
  /-- `Coins.IsValid`. -/
  isValid : grants.Coins → Bool
  coinsString : grants.Coins → Bytes
  /-- `bankKeeper.SendCoinsFromAccountToModule`, to the fee collector. -/
  sendCoinsFromAccountToModule : Bank → Bytes → grants.Coins → Except Bytes Bank

/-- The sentinel errors of the chain. -/
inductive Sentinel where
  | txDecode
  | invalidGasLimit
  | unauthorized
  | invalidRequest
  | unknownAddress
  | insufficientFee
  | insufficientFunds
  | invalidCoins
  /-- An error of the first decorator or of the store of tokens. -/
  | core (sentinel : Core.Sentinel)
  /-- An error of the fee grants. -/
  | feegrant (sentinel : Feegrant.Sentinel)
  /-- An error that wraps no sentinel. -/
  | plain
  deriving Repr, DecidableEq

/-- An error: the sentinel it wraps and its message. -/
structure Error where
  sentinel : Sentinel
  msg : Bytes
  deriving Repr, DecidableEq

variable (E : Env)

/-- The stores the chain works on, with the fees reported so far: the amount and who paid it. -/
structure State where
  core : Core.State
  grants : Feegrant.State E.grants
  bank : E.Bank
  events : List (Bytes × Bytes)

/-- What the decorators read of the context. -/
structure Ctx where
  block : Feegrant.Ctx
  height : Int
  extractedDID : Option Bytes := none
  trustedRelayFeeGranter : Option Bytes := none
  deriving Repr, DecidableEq

/-- The context as the first decorator sees it. -/
def Ctx.core (ctx : Ctx) : Core.Ctx := ⟨ctx.block.blockTime, ctx.extractedDID, ctx.trustedRelayFeeGranter⟩

/-- The context with the values of the first decorator. -/
def Ctx.withValues (ctx : Ctx) (values : Core.Ctx) : Ctx :=
  { ctx with extractedDID := values.extractedDID, trustedRelayFeeGranter := values.trustedRelayFeeGranter }

/-- A transaction: what the first decorator reads of it, the types of its messages, its gas limit and its fee. -/
structure Tx extends Core.Tx where
  msgs : List Bytes
  gas : Nat
  fee : E.grants.Coins

abbrev M (α : Type) : Type := Eff (State E) Error α

/-- The decorator. The fee checker gives the fees to be paid and the priority of the transaction. -/
structure CustomDeductFeeDecorator where
  hasFeegrantKeeper : Bool
  txFeeChecker : Ctx → Tx E → Outcome Error (E.grants.Coins × Int)

variable {E}

def onGrants {α : Type} (wrap : Feegrant.Error → Error) (call : Feegrant.M E.grants α) : M E α := fun s =>
  ((call s.grants).1.mapErr wrap, { s with grants := (call s.grants).2 })

def onCore {α : Type} (call : Eff Core.State Core.Error α) : M E α := fun s =>
  ((call s.core).1.mapErr fun e => ⟨.core e.sentinel, e.msg⟩, { s with core := (call s.core).2 })

/-- An address or a DID as part of a key, which panics when it is too long. An SDK transaction has no empty addresses. -/
def keyPart (b : Bytes) : Outcome Error Feegrant.KeyPart :=
  match Feegrant.KeyPart.ofBytes b with
  | some part => .ok part
  | none => .panic "address length should be max 255 bytes"

/-- An error of the fee grants with a text before it. -/
def wrapped (text : Bytes) (e : Feegrant.Error) : Error := ⟨.feegrant e.sentinel, text ++ str ": " ++ e.msg⟩

def useGrantedFees (ctx : Ctx) (granter payer : Bytes) (fees : E.grants.Coins) (msgs : List Bytes)
    (wrap : Feegrant.Error → Error) : M E Unit := do
  let granterPart ← Eff.lift (keyPart granter)
  let payerPart ← Eff.lift (keyPart payer)
  onGrants wrap (Feegrant.useGrantedFees ctx.block granterPart payerPart fees msgs)

/-- The branch of `handleFeegrant` for a relay: it pays through a grant to its worker. -/
def handleRelay (cdfd : CustomDeductFeeDecorator E) (ctx : Ctx) (trusted feeGranter feePayer : Bytes) (fees : E.grants.Coins)
    (msgs : List Bytes) : M E Bytes := do
  Eff.require (feeGranter ≠ []) ⟨.unauthorized, str "trusted relay fee granter is missing"⟩
  let feeGranterAddr := E.sdk.accAddressString feeGranter
  Eff.require (feeGranterAddr = trusted)
    ⟨.unauthorized, str "relay fee granter " ++ feeGranterAddr ++ str " does not match trusted account " ++ trusted⟩
  Eff.require (feeGranter ≠ feePayer) ⟨.unauthorized, str "relay worker must have a fee grant"⟩
  Eff.require (cdfd.hasFeegrantKeeper = true) ⟨.invalidRequest, str "fee grants are not enabled"⟩
  useGrantedFees ctx feeGranter feePayer fees msgs
    (wrapped (feeGranterAddr ++ str " does not authorize relay worker " ++ E.sdk.accAddressString feePayer))
  pure feeGranter

/-- The branch of `handleFeegrant` for a DID: the granter whose grant was used. An error leaves the choice to the next
branch, with what was written until then. -/
def handleDID (cdfd : CustomDeductFeeDecorator E) (ctx : Ctx) (fees : E.grants.Coins) (msgs : List Bytes) :
    M E (Option Bytes) :=
  let extractedDID := ctx.extractedDID.getD []
  if extractedDID ≠ [] ∧ cdfd.hasFeegrantKeeper = true then do
    let did ← Eff.lift (keyPart extractedDID)
    match ← (onGrants (fun e => ⟨.feegrant e.sentinel, e.msg⟩)
        (Feegrant.useFirstAvailableDIDGrant ctx.block did fees msgs)).attempt with
    | .ok usedGranter => pure (some usedGranter.bytes)
    | .error _ => pure none
  else pure none

/-- The last branches of `handleFeegrant`: the fee granter of the transaction, or the payer. -/
def handleGranter (cdfd : CustomDeductFeeDecorator E) (ctx : Ctx) (feeGranter feePayer : Bytes) (fees : E.grants.Coins)
    (msgs : List Bytes) : M E Bytes :=
  if feeGranter ≠ [] then do
    Eff.require (cdfd.hasFeegrantKeeper = true) ⟨.invalidRequest, str "fee grants are not enabled"⟩
    if feeGranter ≠ feePayer then do
      useGrantedFees ctx feeGranter feePayer fees msgs
        (wrapped (feeGranter ++ str " does not allow to pay fees for " ++ E.sdk.accAddressString feePayer))
      pure feeGranter
    else pure feeGranter
  else pure feePayer

/-- `handleFeegrant`: the account that pays. A missing fee granter is the empty one. -/
def handleFeegrant (cdfd : CustomDeductFeeDecorator E) (ctx : Ctx) (feeGranter feePayer : Bytes) (fees : E.grants.Coins)
    (msgs : List Bytes) : M E Bytes :=
  let trustedRelayFeeGranter := ctx.trustedRelayFeeGranter.getD []
  if trustedRelayFeeGranter ≠ [] then handleRelay cdfd ctx trustedRelayFeeGranter feeGranter feePayer fees msgs
  else do
    match ← handleDID cdfd ctx fees msgs with
    | some usedGranter => pure usedGranter
    | none => handleGranter cdfd ctx feeGranter feePayer fees msgs

def deductFees (address : Bytes) (fees : E.grants.Coins) : M E Unit := do
  Eff.require (E.isValid fees = true) ⟨.insufficientFee, str "invalid fee amount: " ++ E.coinsString fees⟩
  let bank ← Eff.query fun s =>
    Outcome.ofExcept (fun e => ⟨.insufficientFunds, e⟩) (E.sendCoinsFromAccountToModule s.bank address fees)
  Eff.modify fun s => { s with bank := bank }

def checkDeductFee (cdfd : CustomDeductFeeDecorator E) (ctx : Ctx) (tx : Tx E) (fees : E.grants.Coins) : M E Unit :=
  match tx.fees with
  | none => Eff.fail ⟨.txDecode, str "tx must be a FeeTx"⟩
  | some (feeGranter, feePayer) => do
    Eff.require (E.feeCollector.isSome = true)
      ⟨.plain, str "fee collector module account (fee_collector) has not been set"⟩
    let deductFeesFrom ← handleFeegrant cdfd ctx feeGranter feePayer fees tx.msgs
    let deductFeesFromAcc ← Eff.query fun s =>
      Outcome.ofOption
        ⟨.unknownAddress, str "fee payer address: " ++ E.sdk.accAddressString deductFeesFrom ++ str " does not exist"⟩
        (E.getAccount s.grants.accounts deductFeesFrom)
    if E.grants.isZero fees = false then deductFees deductFeesFromAcc fees else pure ()
    Eff.modify fun s =>
      { s with events := s.events ++ [(E.coinsString fees, E.sdk.accAddressString deductFeesFrom)] }

/-- The fees to be paid: those of the transaction in a simulation, otherwise those that the checker gives. -/
def CustomDeductFeeDecorator.fees (cdfd : CustomDeductFeeDecorator E) (ctx : Ctx) (tx : Tx E) (simulate : Bool) :
    Outcome Error E.grants.Coins :=
  if simulate then .ok tx.fee
  else do
    let checked ← cdfd.txFeeChecker ctx tx
    pure checked.1

/-- `CustomDeductFeeDecorator.AnteHandle`, for a transaction and the rest of the chain. -/
def CustomDeductFeeDecorator.anteHandle {α : Type} (cdfd : CustomDeductFeeDecorator E) (ctx : Ctx) (tx : Tx E) (simulate : Bool)
    (next : Ctx → M E α) : M E α := do
  Eff.require (tx.fees.isSome = true) ⟨.txDecode, str "tx must be a FeeTx"⟩
  if ctx.height = 0 then next ctx
  else do
    Eff.require ((!simulate && decide (0 < ctx.height) && tx.gas == 0) = false)
      ⟨.invalidGasLimit, str "must provide positive gas"⟩
    let fees ← Eff.lift (cdfd.fees ctx tx simulate)
    checkDeductFee cdfd ctx tx fees
    -- the priority is not read again, so the context goes on as it is
    next ctx

/-- The chain of the two decorators. `between` is what the decorators of the SDK between them answer, none of which writes to
the stores; the context the chain ends with is that of the messages. -/
def anteHandler (eod : Core.ExtensionOptionsDecorator) (cdfd : CustomDeductFeeDecorator E) (between : Ctx → Outcome Error Unit)
    (ctx : Ctx) (tx : Tx E) (simulate : Bool) : M E Ctx := do
  let values ← onCore (Core.anteHandle E.sdk E.jws eod ctx.core tx.toTx simulate pure)
  Eff.lift (between (ctx.withValues values))
  cdfd.anteHandle (ctx.withValues values) tx simulate pure

end Vera.App
