import Vera.Lib.Effect
import Vera.Lib.KVStore
import Vera.Lib.Sha256
import Vera.Lib.Time

/-!
# Stored bearer tokens

The records that `x/core` keeps of the JWS bearer tokens it has seen (`x/core/keeper/jws_token.go`), with the message that
invalidates one (`msg_invalidate_jws.go`) and the end blocker that expires them (`abci.go`).
-/

namespace Vera.Core

open Bytes (str)

/-- The validity of a stored token. -/
inductive JWSTokenStatus where
  | unspecified
  | valid
  | invalid
  deriving Repr, DecidableEq

/-- What is stored of a token. -/
structure JWSTokenRecord where
  tokenHash : Bytes
  bearerToken : Bytes
  issuerDid : Bytes
  authorizedAccount : Bytes
  issuedAt : Time
  expiresAt : Time
  status : JWSTokenStatus
  firstUsedAt : Option Time
  lastUsedAt : Option Time
  invalidatedAt : Option Time
  invalidatedBy : Bytes
  deriving Repr, DecidableEq

/-- Marshalling a record fails on an instant outside the range of a protobuf timestamp. -/
def JWSTokenRecord.marshalable (r : JWSTokenRecord) : Bool :=
  r.issuedAt.marshalable && r.expiresAt.marshalable && r.firstUsedAt.all Time.marshalable &&
    r.lastUsedAt.all Time.marshalable && r.invalidatedAt.all Time.marshalable

/-- The sentinel errors of `x/core`, and those of the SDK the ante handler wraps. -/
inductive Sentinel where
  | invalidSigner
  | invalidInput
  | jwsTokenNotFound
  | jwsTokenAlreadyInvalid
  | unauthorizedInvalidation
  | failedToInvalidateToken
  | jwsTokenExpired
  | jwsTokenInvalid
  | configSet
  | sdkInvalidRequest
  | sdkUnauthorized
  | sdkTxDecode
  /-- An error that wraps no sentinel. -/
  | plain
  deriving Repr, DecidableEq

/-- An error: the sentinel it wraps and its message. -/
structure Error where
  sentinel : Sentinel
  msg : Bytes
  deriving Repr, DecidableEq

/-- The settings of the chain, fixed at genesis. -/
structure ChainConfig where
  allowZeroFeeTxs : Bool
  ignoreBearerAuth : Bool
  allowAnyRelay : Bool
  deriving Repr, DecidableEq

/-- The parameters of `x/core`. -/
structure Params where
  trustedRelayFeeGranters : List Bytes
  deriving Repr, DecidableEq

/-- The store of `x/core`: the records by token hash, their two indices, the chain configuration and the parameters. -/
structure State where
  tokens : KVStore Bytes JWSTokenRecord
  byDID : KVStore Bytes Bytes
  byAccount : KVStore Bytes Bytes
  chainConfig : ChainConfig
  params : Params

/-- What a call reads of its context: the block time and the values the ante handler put there. -/
structure Ctx where
  blockTime : Time
  extractedDID : Option Bytes := none
  trustedRelayFeeGranter : Option Bytes := none
  deriving Repr, DecidableEq

/-- The SDK's address functions. -/
structure Sdk where
  /-- `sdk.AccAddressFromBech32`. -/
  accAddressFromBech32 : Bytes → Except Bytes Bytes
  /-- `AccAddress.String`. -/
  accAddressString : Bytes → Bytes
  /-- `sdk.GetFromBech32`: the address and the human-readable part. -/
  getFromBech32 : Bytes → Bytes → Except Bytes Bytes
  /-- `sdk.VerifyAddressFormat`. -/
  verifyAddressFormat : Bytes → Except Bytes Unit
  /-- `address.MustLengthPrefix`, which panics on input that is too long. -/
  lengthPrefixed : Bytes → Option Bytes

variable (Γ : Sdk)

/-- The stored hash of a token, as `HashJWSToken` computes it from the token's string. -/
def hashJWSToken (jwsToken : Bytes) : Bytes := Bytes.hex (Sha256.sum256 jwsToken)

def mustLengthPrefixed (bz : Bytes) : Outcome Error Bytes :=
  match Γ.lengthPrefixed bz with
  | some k => .ok k
  | none => .panic "address length should be max 255 bytes"

/-- The key of an index, `JWSTokenByDIDKey` or `JWSTokenByAccountKey`, within the store of the index. -/
def jwsTokenIndexKey (owner tokenHash : Bytes) : Outcome Error Bytes := do
  let o ← mustLengthPrefixed Γ owner
  let h ← mustLengthPrefixed Γ tokenHash
  pure (o ++ h)

/-- The check of the authorized account in `SetJWSToken`: a given account must be an address, and only a chain that
ignores bearer authorization may do without one. -/
def checkAuthorizedAccount (authorizedAccount : Bytes) : Eff State Error Unit := fun s =>
  if authorizedAccount ≠ [] then
    match Γ.accAddressFromBech32 authorizedAccount with
    | .ok _ => (.ok (), s)
    | .error e => (.err ⟨.invalidInput, str "invalid authorized account address: " ++ e⟩, s)
  else if s.chainConfig.ignoreBearerAuth then (.ok (), s)
  else (.err ⟨.invalidInput, str "authorized account is required when bearer auth is enabled"⟩, s)

def indexByDID (record : JWSTokenRecord) : Eff State Error Unit := do
  let didKey ← Eff.lift (jwsTokenIndexKey Γ record.issuerDid record.tokenHash)
  Eff.modify fun s => { s with byDID := s.byDID.set didKey [0x01] }

/-- The entry of the account index, made only for a record with an account. -/
def indexByAccount (record : JWSTokenRecord) : Eff State Error Unit :=
  if record.authorizedAccount ≠ [] then do
    let accountKey ← Eff.lift (jwsTokenIndexKey Γ record.authorizedAccount record.tokenHash)
    Eff.modify fun s => { s with byAccount := s.byAccount.set accountKey [0x01] }
  else pure ()

/-- Store a record under its hash and update the indices. -/
def setJWSToken (record : JWSTokenRecord) : Eff State Error Unit := do
  Eff.require (record.tokenHash ≠ []) ⟨.invalidInput, str "token hash cannot be empty"⟩
  Eff.require (record.issuerDid ≠ []) ⟨.invalidInput, str "issuer DID cannot be empty"⟩
  checkAuthorizedAccount Γ record.authorizedAccount
  Eff.require (record.marshalable = true) ⟨.plain, str "failed to marshal JWS token record"⟩
  Eff.modify fun s => { s with tokens := s.tokens.set record.tokenHash record }
  indexByDID Γ record
  indexByAccount Γ record

/-- The record of a hash, where the caller needs one. -/
def foundJWSToken (tokenHash : Bytes) : Eff State Error JWSTokenRecord := fun s =>
  match s.tokens.get tokenHash with
  | some record => (.ok record, s)
  | none => (.err ⟨.jwsTokenNotFound, tokenHash⟩, s)

/-- The record with a new status, and who invalidated it when. -/
def JWSTokenRecord.withStatus (record : JWSTokenRecord) (status : JWSTokenStatus) (blockTime : Time)
    (invalidatedBy : Bytes) : JWSTokenRecord :=
  if status = .invalid then
    { record with
      status := status
      invalidatedAt := some blockTime
      invalidatedBy := if invalidatedBy ≠ [] then invalidatedBy else record.invalidatedBy }
  else { record with status := status }

def updateJWSTokenStatus (ctx : Ctx) (tokenHash : Bytes) (status : JWSTokenStatus) (invalidatedBy : Bytes) :
    Eff State Error Unit := do
  Eff.require (tokenHash ≠ []) ⟨.invalidInput, str "token hash cannot be empty"⟩
  let record ← foundJWSToken tokenHash
  setJWSToken Γ (record.withStatus status ctx.blockTime invalidatedBy)

/-- The record with its times of use brought up to date. -/
def JWSTokenRecord.used (record : JWSTokenRecord) (blockTime : Time) : JWSTokenRecord :=
  { record with
    firstUsedAt := if record.firstUsedAt.isNone then some blockTime else record.firstUsedAt
    lastUsedAt := some blockTime }

/-- Update the time at which a token was last used. -/
def recordJWSTokenUsage (ctx : Ctx) (tokenHash : Bytes) : Eff State Error Unit := do
  Eff.require (tokenHash ≠ []) ⟨.invalidInput, str "token hash cannot be empty"⟩
  let record ← foundJWSToken tokenHash
  setJWSToken Γ (record.used ctx.blockTime)

/-- The callback of the expiry loop: a token that has expired is marked invalid, and an error is only logged. -/
def expireToken (ctx : Ctx) (record : JWSTokenRecord) : Eff State Error Unit :=
  if record.status = .invalid then pure ()
  else if record.expiresAt.isZero then pure ()
  else if record.expiresAt.after ctx.blockTime then pure ()
  else do
    let _ ← (updateJWSTokenStatus Γ ctx record.tokenHash .invalid []).attempt
    pure ()

/-- Mark every expired token as invalid. The callback writes only under keys that are already stored, so the iterator
meets the records that were there when it was opened. -/
def checkAndUpdateExpiredTokens (ctx : Ctx) : Eff State Error Unit := do
  let s ← Eff.read
  Eff.forEach s.tokens.entries fun e => expireToken Γ ctx e.2

/-- The end blocker swallows an error of the expiry loop. -/
def endBlocker (ctx : Ctx) : Eff State Error Unit := do
  let _ ← (checkAndUpdateExpiredTokens Γ ctx).attempt
  pure ()

/-- The record made for a token at its first use. -/
def newRecord (ctx : Ctx) (bearerToken issuerDid authorizedAccount : Bytes) (issuedAt expiresAt : Time) :
    JWSTokenRecord where
  tokenHash := hashJWSToken bearerToken
  bearerToken := bearerToken
  issuerDid := issuerDid
  authorizedAccount := authorizedAccount
  issuedAt := issuedAt
  expiresAt := expiresAt
  status := .valid
  firstUsedAt := some ctx.blockTime
  lastUsedAt := some ctx.blockTime
  invalidatedAt := none
  invalidatedBy := []

/-- Store a new token or record the use of a stored one; a stored token must be valid. -/
def storeOrUpdateJWSToken (ctx : Ctx) (bearerToken issuerDid authorizedAccount : Bytes) (issuedAt expiresAt : Time) :
    Eff State Error Unit := fun s =>
  match s.tokens.get (hashJWSToken bearerToken) with
  | some record =>
    if record.status ≠ .valid then (.err ⟨.jwsTokenInvalid, hashJWSToken bearerToken⟩, s)
    else recordJWSTokenUsage Γ ctx (hashJWSToken bearerToken) s
  | none =>
    if !expiresAt.isZero && !expiresAt.after ctx.blockTime then
      (.err ⟨.jwsTokenExpired, str "cannot create token with expiration time in the past"⟩, s)
    else setJWSToken Γ (newRecord ctx bearerToken issuerDid authorizedAccount issuedAt expiresAt) s

/-- The message that invalidates a token. -/
structure MsgInvalidateJWS where
  creator : Bytes
  tokenHash : Bytes
  deriving Repr, DecidableEq

/-- Who may invalidate a token: an actor with the issuer's DID, or the authorized account. -/
def mayInvalidate (ctx : Ctx) (req : MsgInvalidateJWS) (record : JWSTokenRecord) : Bool :=
  let extractedDID := ctx.extractedDID.getD []
  (extractedDID ≠ [] && extractedDID == record.issuerDid) || req.creator == record.authorizedAccount

def invalidateJWS (ctx : Ctx) (req : MsgInvalidateJWS) : Eff State Error Unit := fun s =>
  match s.tokens.get req.tokenHash with
  | none => (.err ⟨.jwsTokenNotFound, str "token hash: " ++ req.tokenHash⟩, s)
  | some record =>
    if record.status = .invalid then (.err ⟨.jwsTokenAlreadyInvalid, str "token hash: " ++ req.tokenHash⟩, s)
    else if !mayInvalidate ctx req record then
      (.err ⟨.unauthorizedInvalidation, str "creator " ++ req.creator ++ str " is not authorized to invalidate token for DID " ++
        record.issuerDid ++ str " and account " ++ record.authorizedAccount⟩, s)
    else (updateJWSTokenStatus Γ ctx req.tokenHash .invalid req.creator).mapErr
      (fun e => ⟨.failedToInvalidateToken, e.msg⟩) s

end Vera.Core
