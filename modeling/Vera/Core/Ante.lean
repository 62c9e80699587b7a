import Vera.Core.Token
import Vera.Lib.Decimal

/-!
# The ante handler of transactions with a bearer token

`ExtensionOptionsDecorator.AnteHandle` (`app/ante/extension.go`) with the parsing and the validation of the token
(`app/ante/extension_utils.go`). The JWS, JSON and DID libraries are parameters: every result holds whatever they accept.
-/

namespace Vera.Core

open Bytes (str)

/-- The claims of a bearer token. -/
structure BearerToken where
  issuerID : Bytes
  providerToken : Bytes
  authorizedAccount : Bytes
  issuedTime : Int
  expirationTime : Int
  deriving Repr, DecidableEq

/-- The identity a trusted relay may assert. -/
structure ProviderToken where
  providerName : Bytes
  userID : Bytes
  actorDID : Bytes
  deriving Repr, DecidableEq

/-- The libraries that parse and verify a token: functions of the strings they are given, which return an error text when
they refuse. -/
structure Jws where
  KeyType : Type
  PubKey : Type
  Algorithm : Type
  /-- `jose.ParseSigned`, then the payload it holds. -/
  parseSigned : Bytes → Except Bytes Bytes
  /-- `json.Unmarshal` into a map: the names of the members. -/
  unmarshalMembers : Bytes → Except Bytes (List Bytes)
  /-- `json.Unmarshal` into a `BearerToken`. -/
  unmarshalBearerToken : Bytes → Except Bytes BearerToken
  /-- `json.Unmarshal` into a `ProviderToken`. -/
  unmarshalProviderToken : Bytes → Except Bytes ProviderToken
  /-- `did.IsValidDID`: whether the DID library knows the method of the DID. -/
  isValidDID : Bytes → Except Bytes Unit
  /-- `key.DIDKey.Decode`. -/
  decodeDIDKey : Bytes → Except Bytes (Bytes × KeyType)
  /-- `crypto.BytesToPubKey`. -/
  bytesToPubKey : Bytes → KeyType → Except Bytes PubKey
  /-- The ECDSA form of a secp256k1 key, nothing for a key of another kind. -/
  secpToECDSA : PubKey → Option PubKey
  es256k : Algorithm
  /-- `jws.AlgorithmsForKey`. -/
  algorithmsForKey : PubKey → Except Bytes (List Algorithm)
  /-- `jws.Verify`. -/
  verify : Bytes → Algorithm → PubKey → Except Bytes Unit

def plainError (text : String) (cause : Bytes) : Error := ⟨.plain, str text ++ cause⟩

/-- The characters that the parser trims from the left of a token. -/
def whitespace : Bytes := str " \n\t\r"

def normalise (bearerJWS : Bytes) : Bytes := Bytes.trimLeft whitespace bearerJWS

variable (Γ : Sdk) (Λ : Jws)

def requiredClaims : List Bytes := [str "iat", str "iss", str "exp"]

def unmarshalJWSPayload (payload : Bytes) : Outcome Error BearerToken := do
  let members ← Outcome.ofExcept (fun e => ⟨.plain, e⟩) (Λ.unmarshalMembers payload)
  match requiredClaims.find? fun claim => !members.contains claim with
  | some claim => .err (plainError "missing required claim: " claim)
  | none => Outcome.ofExcept (plainError "could not unmarshal payload: ") (Λ.unmarshalBearerToken payload)

def isValidVeraAddr (addr : Bytes) : Except Bytes Unit := do
  let bz ← Γ.getFromBech32 addr (str "vera")
  Γ.verifyAddressFormat bz

/-- The check of the issuer: a DID, or a provider token in JSON. -/
def validateIssuer (issuerID : Bytes) : Outcome Error Unit :=
  if Bytes.startsWith (str "did:") issuerID then
    Outcome.ofExcept (plainError "invalid issuer DID: ") (Λ.isValidDID issuerID)
  else do
    let _ ← Outcome.ofExcept (plainError "issuer is neither a valid DID nor a valid provider token: ")
      (Λ.unmarshalProviderToken issuerID)
    pure ()

/-- The check of the authorized account, which a trusted relay does not need. -/
def validateAccount (authorizedAccount : Bytes) (trustedRelay : Bool) : Outcome Error Unit :=
  if trustedRelay then pure ()
  else Outcome.ofExcept (plainError "invalid authorized account: ") (isValidVeraAddr Γ authorizedAccount)

def validateBearerTokenValues (token : BearerToken) (trustedRelay : Bool) : Outcome Error Unit := do
  validateIssuer Λ token.issuerID
  Outcome.require (token.providerToken = [] ∨ trustedRelay) (plainError "provider token requires a trusted relay" [])
  validateAccount Γ token.authorizedAccount trustedRelay
  Outcome.require (token.issuedTime ≤ token.expirationTime)
    (plainError "issue time cannot be after expiration time" [])

/-- The algorithm and the key that verify a signature of an issuer. -/
def issuerKey (issuerID : Bytes) : Outcome Error (Λ.Algorithm × Λ.PubKey) := do
  let decoded ← Outcome.ofExcept (plainError "failed to resolve actor did: ") (Λ.decodeDIDKey issuerID)
  let pubKey ← Outcome.ofExcept (plainError "failed to retrieve pub key: ") (Λ.bytesToPubKey decoded.1 decoded.2)
  match Λ.secpToECDSA pubKey with
  | some ecdsaKey => pure (Λ.es256k, ecdsaKey)
  | none =>
    match Λ.algorithmsForKey pubKey with
    | .error e => .err (plainError "failed to retrieve algs for pub key: " e)
    | .ok [] => .panic "index out of range [0] with length 0"
    | .ok (alg :: _) => pure (alg, pubKey)

/-- Parse a token, validate its claims and verify its signature. All of it is about the normalised token. -/
def parseValidateJWS (bearerJWS : Bytes) (trustedRelay : Bool) : Outcome Error BearerToken := do
  let bearerJWS := normalise bearerJWS
  Outcome.require (Bytes.startsWith (str "\x7b") bearerJWS = false)
    (plainError "JSON serialization is not supported for security reasons" [])
  let payload ← Outcome.ofExcept (plainError "failed parsing jws: ") (Λ.parseSigned bearerJWS)
  let bearer ← unmarshalJWSPayload Λ payload
  validateBearerTokenValues Γ Λ bearer trustedRelay
  let key ← issuerKey Λ bearer.issuerID
  Outcome.ofExcept (plainError "could not verify actor signature for jwk: ") (Λ.verify bearerJWS key.1 key.2)
  pure bearer

/-- The checks of a token's values and of its expiration. -/
def validateBearerToken (token : BearerToken) (currentTime : Time) (trustedRelay : Bool) : Outcome Error Unit := do
  validateBearerTokenValues Γ Λ token trustedRelay
  Outcome.require (currentTime.unix ≤ token.expirationTime)
    (plainError "token expired: current time "
      (Decimal.decInt currentTime.unix ++ str " > expiration time " ++ Decimal.decInt token.expirationTime))

def validateProviderToken (token : ProviderToken) : Outcome Error Unit := do
  Outcome.require (token.providerName ≠ []) (plainError "provider token missing provider_name" [])
  Outcome.require (token.userID ≠ []) (plainError "provider token missing user_id" [])
  Outcome.require (token.actorDID ≠ []) (plainError "provider token missing actor_did" [])

/-- The DID a token acts for: its issuer, or the actor of its provider token. -/
def actorDID (token : BearerToken) : Outcome Error Bytes :=
  if token.providerToken ≠ [] then do
    let providerToken ← Outcome.ofExcept (plainError "failed to unmarshal provider token: ")
      (Λ.unmarshalProviderToken token.providerToken)
    validateProviderToken providerToken
    pure providerToken.actorDID
  else pure token.issuerID

/-- Validate the token of an extension option: the DID it acts for and the account it authorizes. -/
def validateJWSExtension (bearerToken : Bytes) (currentTime : Time) (trustedRelay : Bool) :
    Outcome Error (Bytes × Bytes) := do
  let token ← parseValidateJWS Γ Λ bearerToken trustedRelay
  validateBearerToken Γ Λ token currentTime trustedRelay
  let did ← actorDID Λ token
  pure (did, token.authorizedAccount)

/-- An extension option of a transaction. -/
inductive ExtensionOption where
  | jws (bearerToken : Bytes)
  | other (typeName : Bytes)
  deriving Repr, DecidableEq

/-- What the decorator reads of a transaction: its extension options (if it can have any), the creators of its messages
(if they have one), and its fee granter and fee payer (if it pays fees). -/
structure Tx where
  extensionOptions : Option (List ExtensionOption)
  creators : List (Option Bytes)
  fees : Option (Bytes × Bytes)
  deriving Repr, DecidableEq

/-- The decorator; in tests it may have no keeper. -/
structure ExtensionOptionsDecorator where
  hasCoreKeeper : Bool

/-- The check, from message `i` on, that the creator of every message is the expected one. -/
def checkCreators (expected : Bytes) (mismatch : Bytes → Bytes) : Nat → List (Option Bytes) → Outcome Error Unit
  | _, [] => .ok ()
  | i, creator :: rest =>
    if creator.getD [] = [] then
      .err ⟨.sdkInvalidRequest, str "cannot determine signer for message " ++ Decimal.dec i⟩
    else if creator.getD [] ≠ expected then
      .err ⟨.sdkUnauthorized, str "message " ++ Decimal.dec i ++ mismatch (creator.getD [])⟩
    else checkCreators expected mismatch (i + 1) rest

/-- The fee granter of a transaction sent through a relay, the empty string for other transactions. -/
def validateRelay (eod : ExtensionOptionsDecorator) (s : State) (tx : Tx) : Outcome Error Bytes :=
  if !eod.hasCoreKeeper || !s.chainConfig.ignoreBearerAuth then .ok []
  else
    match tx.fees with
    | none => .err ⟨.sdkTxDecode, str "relay transaction must be a FeeTx"⟩
    | some (feeGranter, feePayer) =>
      if feeGranter = [] then .err ⟨.sdkUnauthorized, str "relay transaction requires a trusted fee granter"⟩
      else
        let feeGranterAddress := Γ.accAddressString feeGranter
        if !s.chainConfig.allowAnyRelay && !s.params.trustedRelayFeeGranters.contains feeGranterAddress then
          .err ⟨.sdkUnauthorized, str "fee granter " ++ feeGranterAddress ++ str " is not a trusted relay"⟩
        else do
          let worker := Γ.accAddressString feePayer
          checkCreators worker
            (fun signer => str " signer " ++ signer ++ str " does not match relay worker " ++ worker) 0 tx.creators
          pure feeGranterAddress

/-- An error of the token's validation, as the decorator reports it. -/
def invalidRequest (text : String) : Error → Error := fun e => ⟨.sdkInvalidRequest, str text ++ e.msg⟩

/-- What the checks of a token before its record is touched give: the relay, the DID and the account it authorizes, and the
claims with its times. -/
structure Authorization where
  relayFeeGranter : Bytes
  did : Bytes
  authorizedAccount : Bytes
  token : BearerToken
  deriving Repr, DecidableEq

/-- The checks of a token before its record is touched. -/
def authorize (eod : ExtensionOptionsDecorator) (ctx : Ctx) (s : State) (tx : Tx) (bearerToken : Bytes) :
    Outcome Error Authorization := do
  let relayFeeGranter ← validateRelay Γ eod s tx
  let isRelay : Bool := relayFeeGranter ≠ []
  let validated ← (validateJWSExtension Γ Λ bearerToken ctx.blockTime isRelay).mapErr
    (invalidRequest "bearer token validation failed: ")
  let token ← (parseValidateJWS Γ Λ bearerToken isRelay).mapErr (invalidRequest "failed to parse bearer token: ")
  pure ⟨relayFeeGranter, validated.1, validated.2, token⟩

/-- Store or update the record of an authorized token; the decorator hides the error of the keeper. -/
def storeToken (eod : ExtensionOptionsDecorator) (ctx : Ctx) (simulate : Bool) (bearerToken : Bytes)
    (auth : Authorization) : Eff State Error Unit :=
  if eod.hasCoreKeeper && !simulate then
    (storeOrUpdateJWSToken Γ ctx bearerToken auth.did auth.authorizedAccount (Time.ofUnix auth.token.issuedTime)
      (Time.ofUnix auth.token.expirationTime)).mapErr fun _ => ⟨.sdkUnauthorized, str "bearer token is not active"⟩
  else pure ()

/-- The check that every message of a transaction not sent by a relay is signed by the authorized account. -/
def checkSigners (tx : Tx) (auth : Authorization) : Outcome Error Unit :=
  if tx.creators = [] then .err ⟨.sdkInvalidRequest, str "transaction has no messages"⟩
  else if auth.relayFeeGranter ≠ [] then .ok ()
  else checkCreators auth.authorizedAccount
    (fun signer => str " signer mismatch: bearer token authorizes " ++ auth.authorizedAccount ++
      str " but message is signed by " ++ signer) 0 tx.creators

/-- The context of the rest of the chain of decorators. -/
def authorizedCtx (ctx : Ctx) (auth : Authorization) : Ctx :=
  { ctx with
    extractedDID := some auth.did
    trustedRelayFeeGranter := if auth.relayFeeGranter ≠ [] then some auth.relayFeeGranter else ctx.trustedRelayFeeGranter }

/-- The decorator, for a transaction and the rest of the chain. -/
def anteHandle {α : Type} (eod : ExtensionOptionsDecorator) (ctx : Ctx) (tx : Tx) (simulate : Bool)
    (next : Ctx → Eff State Error α) : Eff State Error α :=
  match tx.extensionOptions.getD [] with
  | [] => next ctx
  | [.jws bearerToken] => do
    let s ← Eff.read
    let auth ← Eff.lift (authorize Γ Λ eod ctx s tx bearerToken)
    storeToken Γ eod ctx simulate bearerToken auth
    Eff.lift (checkSigners tx auth)
    next (authorizedCtx ctx auth)
  | [.other typeName] => Eff.fail ⟨.sdkInvalidRequest, str "unsupported extension option type: " ++ typeName⟩
  | options => Eff.fail ⟨.sdkInvalidRequest, str "only one extension option is supported, got " ++ Decimal.dec options.length⟩

end Vera.Core
