import Vera.Orbis.Ledger

/-!
# Documents, key derivations and parameters

What the module keeps besides rings, nodes and reports: the documents that are encrypted to a ring, the derivations of its key,
and its parameters (`StoreDocument`, `StoreKeyDerivation` and `UpdateParams` of `x/orbis/keeper/msg_server.go`, with `store.go`,
`params.go` and `validation.go`, and `keys.go` and `params.go` of `x/orbis/types`). `DrainNodeKey` moves coins and keeps nothing.

The identifier of a document is the digest of what its JSON says and not of how it is written.
-/

namespace Vera.Orbis

open Bytes (str)

/-! ## Records -/

/-- The parameters of the module. -/
structure Params where
  defaultReporting : ReportingDefaults
  deriving Repr, DecidableEq

/-- The parameters of a module that has none set. -/
def defaultParams : Params := ⟨⟨⟨1, 86400, 1, 1⟩, 3⟩⟩

/-- A document that is encrypted to a ring. -/
structure Document where
  id : Bytes
  creatorDid : Bytes
  ringId : Bytes
  document : Bytes
  proof : Bytes
  policyId : Bytes
  resource : Bytes
  permission : Bytes
  tier : Option Bytes
  timestamp : Option UInt64
  petTag : Option Bytes
  petTagProof : Option Bytes
  deriving Repr, DecidableEq

structure KeyDerivation where
  id : Bytes
  creatorDid : Bytes
  ringId : Bytes
  derivation : Bytes
  policyId : Bytes
  resource : Bytes
  permission : Bytes
  deriving Repr, DecidableEq

/-! ## Environment and state -/

/-- What `json.Decoder` reads of an object, member by member. -/
inductive Members where
  /-- The next token cannot be read. -/
  | failed (e : Bytes)
  /-- A key that is no string; `text` is how it is printed. -/
  | noKey (text : Bytes)
  /-- A key whose value cannot be read. -/
  | noValue (key e : Bytes)
  | member (key value : Bytes) (rest : Members)
  /-- The end of the object, and whether anything but the end of the input comes after it. -/
  | closed (trailing : Bool)
  deriving Repr, DecidableEq

/-- What the whole module calls, over a state `σ` of the other modules. -/
structure ModuleEnv extends Env where
  /-- `sdk.AccAddressFromBech32`. -/
  accAddressFromBech32 : Bytes → Except Bytes Bytes
  /-- `accountKeeper.GetAccount`, with the bytes of the public key of the account if that is set. -/
  getAccount : σ → Bytes → Option (Option Bytes)
  /-- `P1Affine.Uncompress`, and `KeyValidate` if the bytes are a point. -/
  blsKeyValidate : Bytes → Option Bool
  /-- Whether a policy lets an actor create rings. -/
  verifyRingCreate : σ → (policyId actor : Bytes) → Except Bytes Bool
  /-- `acpKeeper.DirectPolicyCmd` with the command that registers a ring. -/
  registerRing : σ → (creator policyId ringId : Bytes) → Except Bytes σ
  /-- `GetAuthority`. -/
  authority : Bytes
  /-- The first token of a JSON text and, if that opens an object, what is read of the object. -/
  jsonObject : Bytes → Except Bytes (Option Members)
  /-- `json.Unmarshal` into the elements of an array. -/
  jsonArray : Bytes → Except Bytes (List Bytes)
  /-- `json.Unmarshal` into a `uint16`. -/
  jsonUint16 : Bytes → Except Bytes UInt16
  /-- The address of a secp256k1 public key. -/
  pubKeyAddress : Bytes → Bytes
  /-- `bankKeeper.SpendableCoins`, the amount of each denomination. -/
  spendableCoins : σ → Bytes → List (Bytes × Nat)
  /-- `bankKeeper.SendCoins`. -/
  sendCoins : σ → (sender recipient : Bytes) → List (Bytes × Nat) → Except Bytes σ

/-- The part of the store without rings, nodes and reports, with the state of the other modules. -/
structure Archive (σ : Type) where
  params : Option Params
  documents : KVStore Bytes Document
  keyDerivations : KVStore Bytes KeyDerivation
  modules : σ

def Archive.getParams {σ : Type} (archive : Archive σ) : Params := archive.params.getD defaultParams

/-- What the messages on rings and nodes call, in a store with the rest of the module. -/
abbrev ModuleEnv.ringEnv (Λ : ModuleEnv) : RingEnv where
  σ := Archive Λ.σ
  toLower := Λ.toLower
  trimSpace := Λ.trimSpace
  quote := Λ.quote
  hexDecodeString := Λ.hexDecodeString
  blsVerify := Λ.blsVerify
  jubjubIsIdentity := Λ.jubjubIsIdentity
  jubjubVerify := Λ.jubjubVerify
  didKeyIsEd25519 := Λ.didKeyIsEd25519
  getActorDID archive := Λ.getActorDID archive.modules
  verifyRingUpdate archive := Λ.verifyRingUpdate archive.modules
  accAddressFromBech32 := Λ.accAddressFromBech32
  getAccount archive := Λ.getAccount archive.modules
  blsKeyValidate := Λ.blsKeyValidate
  verifyRingCreate archive := Λ.verifyRingCreate archive.modules
  registerRing archive creator policyId ringId :=
    (Λ.registerRing archive.modules creator policyId ringId).map fun modules => { archive with modules := modules }
  defaultReporting archive := archive.getParams.defaultReporting

abbrev ModuleState (Λ : ModuleEnv) : Type := State Λ.ringEnv.toEnv

abbrev ModuleM (Λ : ModuleEnv) (α : Type) : Type := M Λ.ringEnv.toEnv α

/-! ## Messages -/

structure MsgStoreDocument where
  creator : Bytes
  ringId : Bytes
  document : Bytes
  proof : Bytes
  policyId : Bytes
  resource : Bytes
  permission : Bytes
  tier : Option Bytes
  timestamp : Option UInt64
  petTag : Option Bytes
  petTagProof : Option Bytes
  deriving Repr, DecidableEq

structure MsgStoreKeyDerivation where
  creator : Bytes
  ringId : Bytes
  derivation : Bytes
  policyId : Bytes
  resource : Bytes
  permission : Bytes
  deriving Repr, DecidableEq

/-- Send the coins of the account of a node to its controller. -/
structure MsgDrainNodeKey where
  creator : Bytes
  nodeKey : Bytes
  deriving Repr, DecidableEq

/-- Set the parameters. -/
structure MsgUpdateParams where
  authority : Bytes
  params : Params
  deriving Repr, DecidableEq

/-! ## Identifiers -/

section Identifiers

variable (Λ : ModuleEnv)

/-- The bytes of the elements of an array, of which the first has the number `i`. -/
def unmarshalElems (i : Nat) : List Bytes → Except Bytes Bytes
  | [] => pure []
  | elem :: rest => do
    if Λ.trimSpace elem = str "null" then .error (str "array element " ++ Decimal.dec i ++ str " is null") else pure ()
    let n ← Λ.jsonUint16 elem
    if 255 < n then .error (str "byte value " ++ Decimal.dec n.toNat ++ str " out of range 0-255") else pure ()
    return UInt8.ofNat n.toNat :: (← unmarshalElems (i + 1) rest)

/-- `idBytes.UnmarshalJSON`: an array of numbers up to 255. -/
def unmarshalIDBytes (data : Bytes) : Except Bytes Bytes :=
  if Λ.trimSpace data = str "null" then .error (str "expected an array of bytes, got null")
  else Λ.jsonArray data >>= unmarshalElems Λ 0

/-- The members of an object, with those seen so far; none comes twice. -/
def readMembers (seen : List (Bytes × Bytes)) : Members → Except Bytes (List (Bytes × Bytes))
  | .failed e => .error e
  | .noKey text => .error (str "expected a string object key, got " ++ text)
  | .noValue key e => if key ∈ seen.map Prod.fst then .error (str "duplicate field " ++ Λ.quote key) else .error e
  | .member key value rest =>
    if key ∈ seen.map Prod.fst then .error (str "duplicate field " ++ Λ.quote key)
    else readMembers (seen ++ [(key, value)]) rest
  | .closed trailing => if trailing then .error (str "unexpected trailing data after JSON object") else .ok seen

/-- The bytes of the members that are wanted. -/
def decodeMembers (seen : List (Bytes × Bytes)) : List Bytes → Except Bytes (List (Bytes × Bytes))
  | [] => pure []
  | key :: rest =>
    match seen.lookup key with
    | none => .error (str "missing or misnamed field " ++ Λ.quote key)
    | some value =>
      match unmarshalIDBytes Λ value with
      | .error e => .error (str "field " ++ Λ.quote key ++ str ": " ++ e)
      | .ok b => do return (key, b) :: (← decodeMembers seen rest)

/-- An object with exactly the fields that are wanted, all of them arrays of bytes. -/
def decodeIDByteFields (raw : Bytes) (want : List Bytes) : Except Bytes (List (Bytes × Bytes)) := do
  match ← Λ.jsonObject raw with
  | none => .error (str "expected a JSON object")
  | some members => do
    let seen ← readMembers Λ [] members
    if seen.length ≠ want.length then
      .error (str "expected exactly fields [" ++ List.intercalate (str " ") want ++ str "], got " ++ Decimal.dec seen.length ++
        str " fields")
    else decodeMembers Λ seen want

def fieldBytes (fields : List (Bytes × Bytes)) (key : String) : Canonical.Field :=
  .bytes ((fields.lookup (str key)).getD [])

/-- The fields of the tag of a document and of its proof, which come together or not at all. -/
def optionalPetTag (petTag petTagProof : Option Bytes) : Except Bytes (List Canonical.Field) :=
  match petTag, petTagProof with
  | none, none => pure []
  | some petTag, some petTagProof => do
    let tag ← (decodeIDByteFields Λ petTag [str "ephemeral_point", str "masked_fingerprint"]).mapError
      (str "malformed pet_tag: " ++ ·)
    let proof ← (decodeIDByteFields Λ petTagProof [str "challenge", str "response"]).mapError
      (str "malformed pet_tag_proof: " ++ ·)
    pure [fieldBytes tag "ephemeral_point", fieldBytes tag "masked_fingerprint", fieldBytes proof "challenge",
      fieldBytes proof "response"]
  | _, _ => .error (str "pet_tag and pet_tag_proof must be present or absent together")

/-- The fields that the identifier of a document is the digest of. -/
def documentIDFields (ringID document proof policyID resource permission : Bytes) (tier : Option Bytes)
    (timestamp : Option UInt64) (petTag petTagProof : Option Bytes) : Except Bytes (List Canonical.Field) := do
  let secret ← (decodeIDByteFields Λ document [str "enc_cmt", str "encrypted_data", str "nonce"]).mapError
    (str "malformed document: " ++ ·)
  let pf ← (decodeIDByteFields Λ proof [str "challenge", str "response"]).mapError (str "malformed proof: " ++ ·)
  let pet ← optionalPetTag Λ petTag petTagProof
  pure ([.bytes (str "orbis/document/v1"), .bytes ringID, fieldBytes secret "enc_cmt", fieldBytes secret "encrypted_data",
    fieldBytes secret "nonce", fieldBytes pf "challenge", fieldBytes pf "response", .bytes policyID, .bytes resource,
    .bytes permission] ++ Canonical.optional (tier.map fun value => [.bytes value]) ++
    Canonical.optional (timestamp.map fun value => [.u64 value]) ++ pet)

def generateDocumentID (ringID document proof policyID resource permission : Bytes) (tier : Option Bytes)
    (timestamp : Option UInt64) (petTag petTagProof : Option Bytes) : Except Bytes Bytes := do
  let fields ← documentIDFields Λ ringID document proof policyID resource permission tier timestamp petTag petTagProof
  pure (sha256Hex (Canonical.encode fields))

end Identifiers

def generateKeyDerivationID (ringID derivation policyID resource permission : Bytes) : Bytes :=
  sha256Hex (Canonical.encode [.bytes (str "orbis/key_derivation/v1"), .bytes ringID, .bytes derivation, .bytes policyID,
    .bytes resource, .bytes permission])

/-! ## Checks -/

/-- Check that a document names what decides who may read it. -/
def validatePolicyBinding (sentinel : Sentinel) (policyId resource permission : Bytes) : Except Error Unit :=
  check (¬(policyId = [] ∨ resource = [] ∨ permission = [])) ⟨sentinel, str "missing policy binding"⟩

def validateDocument (document : Document) : Except Error Unit := do
  check (document.id ≠ []) ⟨.invalidDocumentId, []⟩
  check (document.ringId ≠ []) ⟨.invalidRingId, []⟩
  check (document.document ≠ []) ⟨.invalidDocument, str "missing document"⟩
  check (document.proof ≠ []) ⟨.invalidDocument, str "missing proof"⟩
  validatePolicyBinding .invalidDocument document.policyId document.resource document.permission

def validateKeyDerivation (keyDerivation : KeyDerivation) : Except Error Unit := do
  check (keyDerivation.id ≠ []) ⟨.invalidKeyDerivationId, []⟩
  check (keyDerivation.ringId ≠ []) ⟨.invalidRingId, []⟩
  check (keyDerivation.derivation ≠ []) ⟨.invalidKeyDerivation, str "missing derivation"⟩
  validatePolicyBinding .invalidKeyDerivation keyDerivation.policyId keyDerivation.resource keyDerivation.permission

def validateReportingDefaults (defaults : ReportingDefaults) : Except Error Unit := do
  validateDemeritConfig defaults.demeritConfig
  atLeastOne "kick_threshold" defaults.kickThreshold

def Params.validate (params : Params) : Except Error Unit := validateReportingDefaults params.defaultReporting

/-- The account of a node: that of its public key. -/
def nodeKeyAccAddress (Λ : ModuleEnv) (nodeKey : Bytes) : Except Error Bytes :=
  match Λ.hexDecodeString (Bytes.trimStart (str "0x") nodeKey) with
  | .error _ => .error ⟨.invalidNodeInfo, str "invalid node_key encoding: " ++ Λ.quote nodeKey⟩
  | .ok decoded => do
    check (decoded.length = compressedPubKeyLen) ⟨.invalidNodeInfo, str "invalid node_key encoding: " ++ Λ.quote nodeKey⟩
    pure (Λ.pubKeyAddress decoded)

/-! ## Calls -/

variable {Λ : ModuleEnv}

/-- Change the part of the store without rings, nodes and reports. -/
def modifyArchive (f : Archive Λ.σ → Archive Λ.σ) : ModuleM Λ Unit := Eff.modify fun s => { s with env := f s.env }

def setParams (params : Params) : ModuleM Λ Unit := do
  pass params.validate
  modifyArchive fun archive => { archive with params := some params }

def setDocument (document : Document) : ModuleM Λ Unit :=
  modifyArchive fun archive => { archive with documents := archive.documents.set document.id document }

def setKeyDerivation (keyDerivation : KeyDerivation) : ModuleM Λ Unit :=
  modifyArchive fun archive => { archive with keyDerivations := archive.keyDerivations.set keyDerivation.id keyDerivation }

/-- Set the parameters, on behalf of the authority. -/
def updateParams (req : MsgUpdateParams) : ModuleM Λ Unit := do
  pass (check (Λ.authority = req.authority)
    ⟨.invalidSigner, str "invalid authority; expected " ++ Λ.authority ++ str ", got " ++ req.authority⟩)
  setParams req.params

def MsgStoreDocument.stored (msg : MsgStoreDocument) (documentID creatorDID : Bytes) : Document where
  id := documentID
  creatorDid := creatorDID
  ringId := msg.ringId
  document := msg.document
  proof := msg.proof
  policyId := msg.policyId
  resource := msg.resource
  permission := msg.permission
  tier := msg.tier
  timestamp := msg.timestamp
  petTag := msg.petTag
  petTagProof := msg.petTagProof

/-- Store a document for a ring that has its key; it has a tag exactly when the ring requires that. -/
def storeDocument (msg : MsgStoreDocument) : ModuleM Λ Bytes := do
  let ring ← requireRing msg.ringId
  pass (requireRingFinalized ring)
  let creatorDID ← actorDID msg.creator
  pass (check (¬(ring.requiresPet = true ∧ (msg.petTag = none ∨ msg.petTagProof = none)))
    ⟨.invalidDocument, str "pet_tag and pet_tag_proof are required for a ring that requires PET"⟩)
  pass (check (¬(ring.requiresPet = false ∧ (msg.petTag.isSome = true ∨ msg.petTagProof.isSome = true)))
    ⟨.invalidDocument, str "pet_tag and pet_tag_proof are not accepted for a ring that does not require PET"⟩)
  let documentID ← pass ((generateDocumentID Λ msg.ringId msg.document msg.proof msg.policyId msg.resource msg.permission msg.tier
    msg.timestamp msg.petTag msg.petTagProof).mapError fun e => ⟨.invalidDocument, e⟩)
  let s ← Eff.read
  pass (check ((s.env.documents.get documentID).isNone = true) ⟨.documentAlreadyExists, []⟩)
  pass (validateDocument (msg.stored documentID creatorDID))
  setDocument (msg.stored documentID creatorDID)
  emit (.documentStored documentID creatorDID)
  pure documentID

def MsgStoreKeyDerivation.stored (msg : MsgStoreKeyDerivation) (keyDerivationID creatorDID : Bytes) : KeyDerivation where
  id := keyDerivationID
  creatorDid := creatorDID
  ringId := msg.ringId
  derivation := msg.derivation
  policyId := msg.policyId
  resource := msg.resource
  permission := msg.permission

def storeKeyDerivation (msg : MsgStoreKeyDerivation) : ModuleM Λ Bytes := do
  let ring ← requireRing msg.ringId
  pass (requireRingFinalized ring)
  let creatorDID ← actorDID msg.creator
  let keyDerivationID := generateKeyDerivationID msg.ringId msg.derivation msg.policyId msg.resource msg.permission
  let s ← Eff.read
  pass (check ((s.env.keyDerivations.get keyDerivationID).isNone = true) ⟨.keyDerivationAlreadyExists, []⟩)
  pass (validateKeyDerivation (msg.stored keyDerivationID creatorDID))
  setKeyDerivation (msg.stored keyDerivationID creatorDID)
  emit (.keyDerivationStored keyDerivationID creatorDID)
  pure keyDerivationID

/-- Send all that the account of a node can spend to whoever controls the node. -/
def drainNodeKey (msg : MsgDrainNodeKey) : ModuleM Λ (List (Bytes × Nat)) := do
  let _ ← authorizeNodeInfoUpdate (Γ := Λ.ringEnv) msg.nodeKey msg.creator
  let nodeAddr ← pass (nodeKeyAccAddress Λ msg.nodeKey)
  let controllerAddr ← pass ((Λ.accAddressFromBech32 msg.creator).mapError fun e =>
    ⟨.invalidNodeInfo, str "invalid creator address: " ++ e⟩)
  let s ← Eff.read
  let balance := Λ.spendableCoins s.env.modules nodeAddr
  pass (check (balance.all (fun coin => coin.2 = 0) = false) ⟨.nodeKeyBalanceEmpty, []⟩)
  let modules ← pass ((Λ.sendCoins s.env.modules nodeAddr controllerAddr balance).mapError fun e => ⟨.other, e⟩)
  modifyArchive fun archive => { archive with modules := modules }
  emit (.nodeKeyDrained msg.nodeKey msg.creator balance)
  pure balance

/-! ## Delivery -/

/-- The messages of the module. -/
inductive Request where
  | onRings (msg : Message)
  | storeDocument (msg : MsgStoreDocument)
  | storeKeyDerivation (msg : MsgStoreKeyDerivation)
  | drainNodeKey (msg : MsgDrainNodeKey)
  | updateParams (req : MsgUpdateParams)
  deriving Repr, DecidableEq

def Request.validateBasic (Λ : ModuleEnv) : Request → Except Error Unit
  | .onRings msg => msg.validateBasic Λ.ringEnv
  | .storeDocument msg => do
    validateOnRing Λ.ringEnv msg.creator msg.ringId
    check (msg.document ≠ []) ⟨.invalidDocument, str "missing document"⟩
    check (msg.proof ≠ []) ⟨.invalidDocument, str "missing proof"⟩
    validatePolicyBinding .invalidDocument msg.policyId msg.resource msg.permission
  | .storeKeyDerivation msg => do
    validateOnRing Λ.ringEnv msg.creator msg.ringId
    check (msg.derivation ≠ []) ⟨.invalidKeyDerivation, str "missing derivation"⟩
    validatePolicyBinding .invalidKeyDerivation msg.policyId msg.resource msg.permission
  | .drainNodeKey msg => validateOnNode Λ.ringEnv msg.creator msg.nodeKey
  | .updateParams req => do
    match Λ.accAddressFromBech32 req.authority with
    | .error e => .error ⟨.other, str "invalid authority address: " ++ e⟩
    | .ok _ => req.params.validate

/-- Carry a message out; what it answers is of no further use. -/
def Request.handle (ctx : Ctx) : Request → ModuleM Λ Unit
  | .onRings msg => msg.handle ctx
  | .storeDocument msg => Orbis.storeDocument msg >>= fun _ => pure ()
  | .storeKeyDerivation msg => Orbis.storeKeyDerivation msg >>= fun _ => pure ()
  | .drainNodeKey msg => Orbis.drainNodeKey msg >>= fun _ => pure ()
  | .updateParams req => Orbis.updateParams req

/-- Deliver a message: check it by itself, then carry it out. -/
def Request.deliver (ctx : Ctx) (req : Request) : ModuleM Λ Unit := do
  pass (req.validateBasic Λ)
  req.handle ctx

/-- What happens to a ledger of the whole module. -/
inductive Move (Λ : ModuleEnv) where
  | message (req : Request)
  | endBlock
  | newBlock (ctx : Ctx)
  /-- What leaves the store of the module alone. -/
  | other (modules : Λ.σ)

def Ledger.advance (ledger : Ledger Λ.ringEnv) : Move Λ → Ledger Λ.ringEnv
  | .message req => { ledger with state := (req.deliver ledger.ctx).commit ledger.state }
  | .endBlock => ledger.step .endBlock
  | .newBlock ctx => ledger.step (.newBlock ctx)
  | .other modules => ledger.step (.other { ledger.state.env with modules := modules })

end Vera.Orbis
