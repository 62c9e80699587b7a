import Vera.Acp.Registration
import Vera.Acp.SignedPolicyCmd
import Vera.Core.Ante

/-!
# Policy commands, and the ways of issuing them

All commands go through one handler (`x/acp/keeper/policy_cmd/handler.go`): those on registrations, and the two that set and delete
a relationship. A command is issued for a policy in one of four ways: directly by the creator of a message, by a signed payload, by
the bearer of a token (`x/acp/bearer_token`), or by a module that holds the capability of the policy
(`x/acp/keeper/module_acp.go`, `x/acp/capability`).
-/

namespace Vera.Acp.Policy

open Eff
open Bytes (str)
open Registration

/-- The record of a relationship, with the metadata of the chain in the encoding in which the engine keeps it. -/
structure RelRecord (R : Type) where
  policyId : Bytes
  archived : Bool
  relationship : R
  supplied : Bytes
  deriving Repr, DecidableEq

/-- A record of a relationship with its metadata decoded. -/
structure MappedRelRecord (R : Type) where
  policyId : Bytes
  archived : Bool
  relationship : R
  metadata : RecordMetadata
  deriving Repr, DecidableEq

/-- The commands of a policy. -/
inductive PolicyCmd (R : Type) where
  | setRelationship (relationship : Option R)
  | deleteRelationship (relationship : Option R)
  | registration (cmd : Cmd)
  | unset
  deriving Repr, DecidableEq

/-- What a command returns. -/
inductive PolicyCmdResult (R : Type) where
  | setRelationship (recordExisted : Bool) (record : MappedRelRecord R)
  | deleteRelationship (recordFound : Bool)
  | registration (result : CmdResult)
  deriving Repr, DecidableEq

/-- The claims of a bearer token. -/
structure BearerToken where
  issuerID : Bytes
  authorizedAccount : Bytes
  issuedTime : Int
  expirationTime : Int
  deriving Repr, DecidableEq

/-- What the checks of a bearer token take from libraries. -/
structure TokenLib where
  sdk : Core.Sdk
  /-- `json.Unmarshal` into a map: the names of the members. -/
  unmarshalMembers : Bytes → Except Bytes (List Bytes)
  /-- `json.Unmarshal` into a `BearerToken`. -/
  unmarshalBearerToken : Bytes → Except Bytes BearerToken
  /-- `did.IsValidDID`: whether the DID library knows the method of the DID. -/
  isValidDID : Bytes → Except Bytes Unit
  /-- A Unix time in the format `time.DateTime`. -/
  dateTime : Int → Bytes

/-- A capability of the SDK with the policy it was issued for. -/
structure PolicyCapability (C : Type) where
  policyId : Bytes
  capability : C

/-- The ACP engine, the accounts, the capability keeper, and the libraries. -/
structure PolicyEnv extends Registration.Env where
  Relationship : Type
  /-- Whether there was a record, and the record. -/
  setRelationship : Principal → Bytes → Option Relationship → Bytes → Eff σ Error (Bool × RelRecord Relationship)
  deleteRelationship : Principal → Bytes → Option Relationship → Eff σ Error Bool
  errUnknownVariant : Error
  /-- `IssueDIDFromAccountAddr`, with the accounts of the chain. -/
  issueDIDFromAccountAddr : Bytes → Except Error Bytes
  JWS : Type
  PubKey : Type
  Algorithm : Type
  parseSigned : Bytes → Except Bytes JWS
  payloadOf : JWS → Bytes
  signatureOf : JWS → Bytes
  unmarshalPayload : Bytes → Except Bytes (SignedPolicyCmdPayload (PolicyCmd Relationship))
  decodeDID : Bytes → Except Bytes (Bytes × KeyType)
  bytesToPubKey : Bytes → KeyType → Except Bytes PubKey
  toECDSA : PubKey → Option PubKey
  es256k : Algorithm
  algorithmsForKey : PubKey → Except Bytes (List Algorithm)
  verifyJWS : Bytes → Algorithm → PubKey → Except Bytes Unit
  tokens : TokenLib
  Capability : Type
  /-- `AuthenticateCapability`, for a capability and its name. -/
  authenticateCapability : Capability → Bytes → Bool
  /-- `LookupModules`: the modules that own the capability of a name. -/
  lookupModules : Bytes → Except Bytes (List Bytes)
  errorText : Error → Bytes

variable {Γ : PolicyEnv}

/-! ## The handler -/

def mapRelRecord (Γ : PolicyEnv) (r : RelRecord Γ.Relationship) : Outcome Error (MappedRelRecord Γ.Relationship) := do
  let metadata ← Outcome.ofExcept (fun e => .wrap (str "unmarshaling record metadata") e []) (Γ.unmarshal r.supplied)
  pure ⟨r.policyId, r.archived, r.relationship, metadata⟩

def setRelationship (ctx : CmdCtx) (relationship : Option Γ.Relationship) :
    Registration.M Γ.toEnv (PolicyCmdResult Γ.Relationship) := do
  let metadata ← Eff.lift ((buildACPSuppliedMetadata Γ.toEnv ctx ctx.principalDID ctx.signer).mapErr
    fun e => .wrap (str "marshaling metadata") e [])
  let (existed, r) ← callEngine (Γ.setRelationship (.did ctx.principalDID) ctx.policyId relationship metadata)
  let record ← Eff.lift ((mapRelRecord Γ r).mapErr fun e => .wrap (str "mapping relationship record") e [])
  pure (.setRelationship existed record)

def deleteRelationship (ctx : CmdCtx) (relationship : Option Γ.Relationship) :
    Registration.M Γ.toEnv (PolicyCmdResult Γ.Relationship) := do
  let found ← callEngine (Γ.deleteRelationship (.did ctx.principalDID) ctx.policyId relationship)
  pure (.deleteRelationship found)

def PolicyCmd.handle (ctx : CmdCtx) : PolicyCmd Γ.Relationship → Registration.M Γ.toEnv (PolicyCmdResult Γ.Relationship)
  | .setRelationship relationship => Policy.setRelationship ctx relationship
  | .deleteRelationship relationship => Policy.deleteRelationship ctx relationship
  | .registration cmd => do
    let result ← cmd.handle ctx
    pure (.registration result)
  | .unset => Eff.fail (.wrap (str "unsuported command") Γ.errUnknownVariant [])

def dispatch (ctx : CmdCtx) (cmd : Option (PolicyCmd Γ.Relationship)) :
    Registration.M Γ.toEnv (PolicyCmdResult Γ.Relationship) := do
  Eff.lift (Outcome.ofExcept id (Γ.newDIDPrincipal ctx.principalDID))
  let cmd ← Eff.lift (deref cmd)
  cmd.handle ctx

/-- The handler as the message server calls it, in a transaction and with the validity that commitments get. -/
def handlerEnv (Γ : PolicyEnv) (txBytes : Bytes) (validity : Option Duration) : CmdEnv where
  σ := Registration.State Γ.toEnv
  JWS := Γ.JWS
  Cmd := PolicyCmd Γ.Relationship
  Result := PolicyCmdResult Γ.Relationship
  PubKey := Γ.PubKey
  Algorithm := Γ.Algorithm
  parseSigned := Γ.parseSigned
  payloadOf := Γ.payloadOf
  signatureOf := Γ.signatureOf
  unmarshalPayload := Γ.unmarshalPayload
  decodeDID := Γ.decodeDID
  bytesToPubKey := Γ.bytesToPubKey
  toECDSA := Γ.toECDSA
  es256k := Γ.es256k
  algorithmsForKey := Γ.algorithmsForKey
  verifyJWS := Γ.verifyJWS
  dispatch ctx cmd := (dispatch ⟨ctx.block, txBytes, ctx.policyId, ctx.principalDID, ctx.signer, validity⟩ cmd).mapErr Γ.errorText

abbrev Keeper (Γ : PolicyEnv) (txBytes : Bytes) (validity : Option Duration) : Type := CmdState (handlerEnv Γ txBytes validity)

/-- A call of the keeper that returns the result of a command. -/
abbrev Issued (Γ : PolicyEnv) (txBytes : Bytes) (validity : Option Duration) : Type :=
  Eff (Keeper Γ txBytes validity) Bytes (PolicyCmdResult Γ.Relationship)

variable {txBytes : Bytes} {validity : Option Duration}

/-- `NewPolicyCmdCtx`, and the command dispatched in it. -/
def dispatchFor (policyId actorDID signer : Bytes) (cmd : Option (PolicyCmd Γ.Relationship)) : Issued Γ txBytes validity := do
  let s ← Eff.read
  let now ← Eff.lift (Outcome.ofExcept id (timestampFromCtx s.block))
  callHandler ((handlerEnv Γ txBytes validity).dispatch ⟨s.block, policyId, actorDID, now, s.maxExpirationDelta, signer⟩ cmd)

/-! ## Direct commands -/

/-- A message with a command. -/
structure MsgDirectPolicyCmd (R : Type) where
  creator : Bytes
  policyId : Bytes
  cmd : Option (PolicyCmd R)

/-- `GetActorDID`: the DID that the ante handler extracted, if there is one, and otherwise that of the account. -/
def getActorDID (Γ : PolicyEnv) (extractedDID accountAddr : Bytes) : Outcome Error Bytes :=
  if extractedDID ≠ [] then .ok extractedDID else Outcome.ofExcept id (Γ.issueDIDFromAccountAddr accountAddr)

def directPolicyCmd (extractedDID : Bytes) (msg : MsgDirectPolicyCmd Γ.Relationship) : Issued Γ txBytes validity := do
  let actorID ← Eff.lift ((getActorDID Γ extractedDID msg.creator).mapErr fun e => str "DirectPolicyCmd: " ++ Γ.errorText e)
  dispatchFor msg.policyId actorID msg.creator msg.cmd

/-! ## Bearer tokens -/

def errInvalidBearerToken : Error := .wrap (str "invalid bearer token") (.kind .badInput) []
def errMsgUnauthorized : Error := .wrap (str "bearer policy msg: authorized_account doesn't match") (.kind .unauthorized) []
def errInvalidIssuer : Error := .wrap (str "invalid issuer: expected did") errInvalidBearerToken []
def errInvalidAuthorizedAccount : Error :=
  .wrap (str "invalid authorized_account: expects Vera address") errInvalidBearerToken []
def errTokenExpired : Error := .wrap (str "token expired") errInvalidBearerToken []
def errMissingClaim : Error := .wrap (str "required claim not found") errInvalidBearerToken []
def errJSONSerializationUnsupported : Error := .wrap (str "JWS JSON Serialization not supported") errInvalidBearerToken []

/-- The error of a library in the check of a token. -/
def invalidToken (text : String) (e : Bytes) : Error := .wrap (str text ++ e) errInvalidBearerToken []

def requiredClaims : List Bytes := [str "iat", str "iss", str "authorized_account", str "exp"]

def unmarshalJWSPayload (lib : TokenLib) (payload : Bytes) : Outcome Error BearerToken := do
  let members ← Outcome.ofExcept .external (lib.unmarshalMembers payload)
  match requiredClaims.find? fun claim => !members.contains claim with
  | some claim => .err (.wrap (str "claim " ++ claim) errMissingClaim [])
  | none => Outcome.ofExcept (invalidToken "could not unmarshal payload: ") (lib.unmarshalBearerToken payload)

def validateBearerTokenValues (lib : TokenLib) (token : BearerToken) : Outcome Error Unit := do
  Outcome.ofExcept (fun _ => errInvalidIssuer) (lib.isValidDID token.issuerID)
  Outcome.ofExcept (fun e => .wrap e errInvalidAuthorizedAccount []) (Core.isValidVeraAddr lib.sdk token.authorizedAccount)
  Outcome.require (¬token.expirationTime < token.issuedTime) (invalidToken "issue time cannot be after expiration time" [])

def parseValidateJWS (Λ : CmdEnv) (lib : TokenLib) (bearerJWS : Bytes) : Outcome Error BearerToken := do
  let bearerJWS := Bytes.trimLeft (str " \n\t\r") bearerJWS
  Outcome.require (Bytes.startsWith (str "\x7b") bearerJWS = false) errJSONSerializationUnsupported
  let jws ← Outcome.ofExcept (invalidToken "failed parsing jws: ") (Λ.parseSigned bearerJWS)
  let bearer ← unmarshalJWSPayload lib (Λ.payloadOf jws)
  validateBearerTokenValues lib bearer
  let key ← Outcome.ofExcept (invalidToken "failed to resolve actor did: ") (Λ.decodeDID bearer.issuerID)
  let pubKey ← Outcome.ofExcept (invalidToken "failed to retrieve pub key: ") (Λ.bytesToPubKey key.1 key.2)
  let algs ← (keyAlgorithms Λ pubKey).mapErr (invalidToken "")
  let alg ← (firstAlgorithm algs.1).mapErr .external
  Outcome.ofExcept (invalidToken "could not verify actor signature for jwk: ") (Λ.verifyJWS bearerJWS alg algs.2)
  pure bearer

def validateBearerToken (lib : TokenLib) (token : BearerToken) (currentTime : Time) : Outcome Error Unit := do
  validateBearerTokenValues lib token
  Outcome.require (¬token.expirationTime < currentTime.unix)
    (.wrap (str "expired " ++ lib.dateTime token.expirationTime ++ str ": now " ++ lib.dateTime currentTime.unix)
      errTokenExpired [])

/-- A message with a command and the token of its actor. -/
structure MsgBearerPolicyCmd (R : Type) where
  creator : Bytes
  bearerToken : Bytes
  policyId : Bytes
  cmd : Option (PolicyCmd R)

/-- `AuthorizeMsg`: the actor of a token that is bound to the creator of the message. -/
def authorizeMsg (Λ : CmdEnv) (lib : TokenLib) (creator bearerToken : Bytes) (currentTime : Time) : Outcome Error Bytes := do
  let token ← parseValidateJWS Λ lib bearerToken
  validateBearerToken lib token currentTime
  Outcome.require (creator = token.authorizedAccount)
    (.wrap (str "msg creator " ++ creator ++ str ": expected creator " ++ token.authorizedAccount) errMsgUnauthorized [])
  pure token.issuerID

def bearerPolicyCmd (msg : MsgBearerPolicyCmd Γ.Relationship) : Issued Γ txBytes validity := do
  let s ← Eff.read
  let actorID ← Eff.lift ((authorizeMsg (handlerEnv Γ txBytes validity) Γ.tokens msg.creator msg.bearerToken s.block.time).mapErr
    Γ.errorText)
  (dispatchFor msg.policyId actorID msg.creator msg.cmd).mapErr (str "PolicyCmd failed: " ++ ·)

/-! ## Module capabilities -/

def errInvalidCapability : Error := .wrap (str "invalid capability") (.kind .unauthorized) []

def PolicyCapability.getCapabilityName {C : Type} (c : PolicyCapability C) : Bytes := str "/acp/module_policies/" ++ c.policyId

def ownersOf (Γ : PolicyEnv) (capability : PolicyCapability Γ.Capability) : Outcome Error (List Bytes) :=
  Outcome.ofExcept (fun e => .external (str "looking up capability owner: " ++ e)) (Γ.lookupModules capability.getCapabilityName)

/-- `Validate`: the capability is authentic, and the ACP module issued it. -/
def validateCapability (Γ : PolicyEnv) (capability : PolicyCapability Γ.Capability) : Outcome Error Unit := do
  Outcome.require (Γ.authenticateCapability capability.capability capability.getCapabilityName = true)
    (.wrap (str "authentication failed") errInvalidCapability [])
  let mods ← ownersOf Γ capability
  Outcome.require (str "acp" ∈ mods) (.wrap (str "capability not issued by acp module") errInvalidCapability [])

/-- `GetOwnerModule`: the module that claimed the capability. -/
def getOwnerModule (Γ : PolicyEnv) (capability : PolicyCapability Γ.Capability) : Outcome Error Bytes := do
  let mods ← ownersOf Γ capability
  Outcome.ofOption (.wrap (str "capability not claimed by any module") errInvalidCapability [])
    (mods.filter fun name => name ≠ str "acp").head?

def dispatchModulePolicyCmd (capability : PolicyCapability Γ.Capability) (cmd : Option (PolicyCmd Γ.Relationship))
    (actorDID txSigner : Bytes) : Issued Γ txBytes validity := do
  Eff.lift ((validateCapability Γ capability).mapErr Γ.errorText)
  let _ ← Eff.lift ((getOwnerModule Γ capability).mapErr Γ.errorText)
  dispatchFor capability.policyId actorDID txSigner cmd

def modulePolicyCmdForActorAccount (capability : PolicyCapability Γ.Capability) (cmd : Option (PolicyCmd Γ.Relationship))
    (actorAcc txSigner : Bytes) : Issued Γ txBytes validity := do
  let actorDID ← Eff.lift (Outcome.ofExcept
    (fun e => Γ.errorText (.wrap (str "ModulePolicyCmdForActorAccount: could not issue did to creator") e
      [(str "address", actorAcc)])) (Γ.issueDIDFromAccountAddr actorAcc))
  (dispatchModulePolicyCmd capability cmd actorDID txSigner).mapErr (str "ModulePolicyCmdForActorAccount: " ++ ·)

def modulePolicyCmdForActorDID (capability : PolicyCapability Γ.Capability) (cmd : Option (PolicyCmd Γ.Relationship))
    (actorDID txSigner : Bytes) : Issued Γ txBytes validity :=
  (dispatchModulePolicyCmd capability cmd actorDID txSigner).mapErr (str "ModulePolicyCmdForActorDID: " ++ ·)

/-! ## All ways -/

/-- The ways of issuing a command. -/
inductive Issue (Γ : PolicyEnv) where
  | direct (extractedDID : Bytes) (msg : MsgDirectPolicyCmd Γ.Relationship)
  | signed (msg : MsgSignedPolicyCmd)
  | bearer (msg : MsgBearerPolicyCmd Γ.Relationship)
  | moduleForActorAccount (capability : PolicyCapability Γ.Capability) (cmd : Option (PolicyCmd Γ.Relationship))
    (actorAcc txSigner : Bytes)
  | moduleForActorDID (capability : PolicyCapability Γ.Capability) (cmd : Option (PolicyCmd Γ.Relationship))
    (actorDID txSigner : Bytes)

def Issue.call : Issue Γ → Issued Γ txBytes validity
  | .direct extractedDID msg => directPolicyCmd extractedDID msg
  | .signed msg => signedPolicyCmd msg
  | .bearer msg => bearerPolicyCmd msg
  | .moduleForActorAccount capability cmd actorAcc txSigner => modulePolicyCmdForActorAccount capability cmd actorAcc txSigner
  | .moduleForActorDID capability cmd actorDID txSigner => modulePolicyCmdForActorDID capability cmd actorDID txSigner

/-- The policy a command is issued for, and the command: those of the message, of the signed payload, or of the capability. -/
def Issue.target (txBytes : Bytes) (validity : Option Duration) : Issue Γ → Option (Bytes × Option (PolicyCmd Γ.Relationship))
  | .direct _ msg => some (msg.policyId, msg.cmd)
  | .signed msg =>
    match verify (handlerEnv Γ txBytes validity) msg.payload with
    | .ok payload => some (payload.policyId, payload.cmd)
    | _ => none
  | .bearer msg => some (msg.policyId, msg.cmd)
  | .moduleForActorAccount capability cmd _ _ => some (capability.policyId, cmd)
  | .moduleForActorDID capability cmd _ _ => some (capability.policyId, cmd)

/-! ## Every way ends in the handler -/

variable {actorDID : Bytes} {cmd : Option (PolicyCmd Γ.Relationship)} {s t : Keeper Γ txBytes validity}
  {r : PolicyCmdResult Γ.Relationship}

theorem dispatchFor_ok {policyId signer : Bytes}
    (h : (dispatchFor policyId actorDID signer cmd : Issued Γ txBytes validity).Succeeds s r t) :
    ∃ ctx : CmdCtx, ctx.policyId = policyId ∧ (dispatch ctx cmd).Succeeds s.handler r t.handler := by
  unfold dispatchFor at h
  rw [read_bind_ok, lift_bind_ok] at h
  obtain ⟨now, -, h⟩ := h
  obtain ⟨-, -, hd⟩ := ReplayAux.callHandler_ok h
  exact ⟨⟨s.block, txBytes, policyId, actorDID, signer, validity⟩, rfl, mapErr_ok.1 hd⟩

theorem dispatchModulePolicyCmd_ok {capability : PolicyCapability Γ.Capability} {txSigner : Bytes}
    (h : (dispatchModulePolicyCmd capability cmd actorDID txSigner : Issued Γ txBytes validity).Succeeds s r t) :
    ∃ ctx : CmdCtx, ctx.policyId = capability.policyId ∧ (dispatch ctx cmd).Succeeds s.handler r t.handler := by
  unfold dispatchModulePolicyCmd at h
  rw [lift_bind_ok] at h
  obtain ⟨-, -, h⟩ := h
  rw [lift_bind_ok] at h
  obtain ⟨owner, -, h⟩ := h
  exact dispatchFor_ok h

/-- A command that is issued successfully, in any way, was dispatched for the policy it was issued for. -/
theorem Issue.dispatched {i : Issue Γ} {p : Bytes}
    (ht : i.target txBytes validity = some (p, cmd)) (h : i.call.Succeeds s r t) :
    ∃ ctx : CmdCtx, ctx.policyId = p ∧ (dispatch ctx cmd).Succeeds s.handler r t.handler := by
  cases i with
  | direct extractedDID msg =>
    obtain ⟨rfl, rfl⟩ := Prod.mk.inj (Option.some.inj ht)
    obtain ⟨actorID, -, h⟩ := lift_bind_ok.1 h
    exact dispatchFor_ok h
  | signed msg =>
    obtain ⟨payload, hv, -, -, -, ⟨now, hd⟩, -⟩ := ReplayAux.signedPolicyCmd_ok h
    simp only [Issue.target, hv] at ht
    obtain ⟨rfl, rfl⟩ := Prod.mk.inj (Option.some.inj ht)
    exact ⟨_, rfl, mapErr_ok.1 hd⟩
  | bearer msg =>
    obtain ⟨rfl, rfl⟩ := Prod.mk.inj (Option.some.inj ht)
    obtain ⟨actorID, -, h⟩ := lift_bind_ok.1 (read_bind_ok.1 h)
    exact dispatchFor_ok (mapErr_ok.1 h)
  | moduleForActorAccount capability cmd' actorAcc txSigner =>
    obtain ⟨rfl, rfl⟩ := Prod.mk.inj (Option.some.inj ht)
    obtain ⟨actorDID, -, h⟩ := lift_bind_ok.1 h
    exact dispatchModulePolicyCmd_ok (mapErr_ok.1 h)
  | moduleForActorDID capability cmd' actorDID txSigner =>
    obtain ⟨rfl, rfl⟩ := Prod.mk.inj (Option.some.inj ht)
    exact dispatchModulePolicyCmd_ok (mapErr_ok.1 h)

end Vera.Acp.Policy
