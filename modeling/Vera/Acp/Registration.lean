import Vera.Acp.Commitment
import Vera.Lib.Decimal
import Vera.Lib.KVStore
import Vera.Lib.Run

/-!
# Registering objects, and who had them first

An object belongs to whoever registers it first; an actor who committed to the object before it was registered can reveal the
commitment and take it over (`x/acp/registration/service.go`, `x/acp/commitment/service.go`). The height recorded for a
registration is that of the claim it rests on, and an amendment replaces it by that of the commitment. The amendment is
refused when the registration is older than the commitment, so a commitment of the very same block takes the object too.
-/

namespace Vera.Acp.Registration

open Bytes (str)
open Commitment (RegistrationProof verifyProof commitmentBytes)

structure ProtoDuration where
  seconds : Int
  nanos : Int
  deriving Repr, DecidableEq

/-- How long something is valid: a number of blocks, or a time. -/
inductive Duration where
  | blockCount (blocks : UInt64)
  | protoDuration (d : Option ProtoDuration)
  | unset
  deriving Repr, DecidableEq

/-- What the chain records of the making of a record. -/
structure RecordMetadata where
  creationTs : Option Timestamp
  txHash : Bytes
  ownerDid : Bytes
  txSigner : Bytes
  deriving Repr, DecidableEq

/-- The height of the block a record was made in. -/
def RecordMetadata.height (m : RecordMetadata) : Option Nat := m.creationTs.map fun ts => ts.blockHeight.toNat

/-- A commitment to register objects. -/
structure RegistrationsCommitment where
  id : UInt64
  policyId : Bytes
  commitment : Bytes
  expired : Bool
  validity : Option Duration
  metadata : RecordMetadata
  deriving Repr, DecidableEq

/-- The record of the owner relationship of an object: who owns it, who made the record, and the metadata of the chain in the
encoding in which the engine keeps it. -/
structure RelationshipRecord where
  policyId : Bytes
  object : Object
  owner : Bytes
  archived : Bool
  creator : Bytes
  supplied : Bytes
  deriving Repr, DecidableEq

/-- What the engine answers about an object. -/
structure ObjectRegistration where
  isRegistered : Bool
  record : Option RelationshipRecord
  deriving Repr, DecidableEq

/-- On whose behalf the engine is called. -/
inductive Principal where
  | root
  | did (id : Bytes)
  deriving Repr, DecidableEq

/-- The record that an object changed hands. -/
structure AmendmentEvent where
  id : UInt64
  policyId : Bytes
  object : Object
  newOwner : Actor
  previousOwner : Actor
  commitmentId : UInt64
  hijackFlag : Bool
  metadata : RecordMetadata
  deriving Repr, DecidableEq

/-- The ACP engine with its state, and the protobuf library. -/
structure Env where
  σ : Type
  newDIDPrincipal : Bytes → Except Error Unit
  errPolicyNotFound : Bytes → Error
  /-- Whether there is a policy with an id. -/
  getPolicy : σ → Principal → Bytes → Except Error Bool
  getObjectRegistration : σ → Principal → Bytes → Option Object → Except Error ObjectRegistration
  registerObject : Principal → Bytes → Option Object → Bytes → Eff σ Error RelationshipRecord
  revealRegistration : Principal → Bytes → Option Object → Bytes → Option ProtoTimestamp → Eff σ Error RelationshipRecord
  amendRegistration : Principal → Bytes → Object → Actor → Option ProtoTimestamp → Bytes → Eff σ Error RelationshipRecord
  /-- The number of relationships removed. -/
  archiveObject : Principal → Bytes → Option Object → Eff σ Error UInt64
  /-- The record, and whether it was modified. -/
  unarchiveObject : Principal → Bytes → Option Object → Eff σ Error (RelationshipRecord × Bool)
  marshal : RecordMetadata → Except Error Bytes
  unmarshal : Bytes → Except Error RecordMetadata
  timestampFromProto : Option ProtoTimestamp → Except Bytes Time
  /-- The nanoseconds of a duration. -/
  durationFromProto : Option ProtoDuration → Except Bytes Int

/-- The engine, and the two tables of the module; a table gives a new row the id after the last one. -/
structure State (Γ : Env) where
  engine : Γ.σ
  commitments : KVStore UInt64 RegistrationsCommitment
  lastCommitmentId : UInt64
  amendments : KVStore UInt64 AmendmentEvent
  lastAmendmentId : UInt64

/-- What a command is executed with. -/
structure CmdCtx where
  block : BlockCtx
  txBytes : Bytes
  policyId : Bytes
  principalDID : Bytes
  signer : Bytes
  registrationsCommitmentValidity : Option Duration

abbrev M (Γ : Env) (α : Type) : Type := Eff (State Γ) Error α

variable {Γ : Env}

def State.init (engine : Γ.σ) : State Γ := ⟨engine, KVStore.empty, 0, KVStore.empty, 0⟩

def callEngine {α : Type} (x : Eff Γ.σ Error α) : M Γ α := fun s =>
  ((x s.engine).1, { s with engine := (x s.engine).2 })

def askEngine {α : Type} (q : Γ.σ → Except Error α) : M Γ α := Eff.query fun s => Outcome.ofExcept id (q s.engine)

/-! ## Metadata -/

def buildRecordMetadata (ctx : CmdCtx) (actorDID msgCreator : Bytes) : Outcome Error RecordMetadata := do
  let ts ← Outcome.ofExcept .external (timestampFromCtx ctx.block)
  pure ⟨some ts, Sha256.sum256 ctx.txBytes, actorDID, msgCreator⟩

def buildACPSuppliedMetadata (Γ : Env) (ctx : CmdCtx) (actorDID msgCreator : Bytes) : Outcome Error Bytes := do
  let metadata ← buildRecordMetadata ctx actorDID msgCreator
  Outcome.ofExcept id (Γ.marshal metadata)

def buildACPSuppliedMetadataWithTime (Γ : Env) (ctx : CmdCtx) (ts : Option Timestamp) (actorDID msgCreator : Bytes) :
    Outcome Error Bytes :=
  Outcome.ofExcept id (Γ.marshal ⟨ts, Sha256.sum256 ctx.txBytes, actorDID, msgCreator⟩)

def extractRecordMetadata (Γ : Env) (r : RelationshipRecord) : Outcome Error RecordMetadata :=
  Outcome.ofExcept (fun e => .wrap (str "unmarshaling record metadata") e []) (Γ.unmarshal r.supplied)

/-- A record with its metadata decoded. -/
structure MappedRecord where
  policyId : Bytes
  archived : Bool
  object : Object
  owner : Bytes
  metadata : RecordMetadata
  deriving Repr, DecidableEq

def mapRelationshipRecord (Γ : Env) (r : RelationshipRecord) : Outcome Error MappedRecord := do
  let metadata ← extractRecordMetadata Γ r
  pure ⟨r.policyId, r.archived, r.object, r.owner, metadata⟩

/-- `Timestamp.IsAfter`: whether `now` is after a moment and a duration; heights are added in 64 bits. -/
def isAfter (Γ : Env) (ts : Timestamp) (duration : Option Duration) (now : Timestamp) : Outcome Bytes Bool := do
  let d ← deref duration
  match d with
  | .blockCount blocks => .ok (decide (ts.blockHeight + blocks < now.blockHeight))
  | .protoDuration d => do
    let goTs ← Outcome.ofExcept id (Γ.timestampFromProto ts.protoTs)
    let goNow ← Outcome.ofExcept id (Γ.timestampFromProto now.protoTs)
    let goDuration ← Outcome.ofExcept id (Γ.durationFromProto d)
    pure (goNow.after (goTs.add goDuration))
  | .unset => .panic "invalid duration"

/-! ## Commitments -/

def setNewCommitment (ctx : CmdCtx) (commitment : Bytes) (actor : Actor) : M Γ RegistrationsCommitment := do
  let found ← askEngine fun e => Γ.getPolicy e (.did ctx.principalDID) ctx.policyId
  Eff.require (found = true) (Γ.errPolicyNotFound ctx.policyId)
  Eff.require (commitment.length = commitmentBytes)
    (.wrap (str "invalid commitment size : got " ++ Decimal.dec commitment.length ++ str ", want " ++
      Decimal.dec commitmentBytes ++ str " bytes") (.kind .badInput) [(str "policy", ctx.policyId)])
  let metadata ← Eff.lift (buildRecordMetadata ctx actor.id ctx.signer)
  let s ← Eff.read
  let registration : RegistrationsCommitment :=
    ⟨s.lastCommitmentId + 1, ctx.policyId, commitment, false, ctx.registrationsCommitmentValidity, metadata⟩
  Eff.modify fun s => { s with
    commitments := s.commitments.set registration.id registration
    lastCommitmentId := registration.id }
  pure registration

def validateOpening (ctx : CmdCtx) (commitmentId : UInt64) (proof : Option RegistrationProof) (actor : Actor) :
    M Γ (RegistrationsCommitment × Bool) := do
  let commitment ← Eff.query fun s => Outcome.ofOption
    (.wrap (str "RegistrationsCommitment") (.kind .notFound) [(str "id", Decimal.dec commitmentId.toNat)])
    (s.commitments.get commitmentId)
  let now ← Eff.lift (Outcome.ofExcept
    (fun e => .withCause (str "failed determining current timestamp") (.external e) .internal [])
    (timestampFromCtx ctx.block))
  let creationTs ← Eff.lift (deref commitment.metadata.creationTs)
  let after ← Eff.lift ((isAfter Γ creationTs commitment.validity now).mapErr
    fun e => .withCause (str "invalid timestamp format") (.external e) .internal [])
  Eff.require (after = false) (.wrap (str "commitment expired") (.kind .operationForbidden)
    [(str "commitment", Decimal.dec commitmentId.toNat)])
  let ok ← Eff.lift ((Commitment.verifyProof commitment.commitment commitment.policyId (some actor) proof).mapErr
    fun e => .wrap (str "invalid registration opening") e [])
  pure (commitment, ok)

/-! ## Registrations -/

def registerObject (ctx : CmdCtx) (object : Option Object) (actor : Actor) : M Γ RelationshipRecord := do
  let metadata ← Eff.lift (buildACPSuppliedMetadata Γ ctx actor.id ctx.signer)
  callEngine (Γ.registerObject (.did ctx.principalDID) ctx.policyId object metadata)

/-- `amendRegistration`: give a registered object to the actor of a commitment, unless the registration is older. -/
def amendRegistration (ctx : CmdCtx) (commitment : RegistrationsCommitment) (record : RelationshipRecord) (actor : Actor) :
    M Γ (RelationshipRecord × Option AmendmentEvent) := do
  let registrationMetadata ← Eff.lift (extractRecordMetadata Γ record)
  let registrationTs ← Eff.lift (deref registrationMetadata.creationTs)
  let commitmentTs ← Eff.lift (deref commitment.metadata.creationTs)
  Eff.require (¬registrationTs.blockHeight < commitmentTs.blockHeight)
    (.wrap (str "amendment failed: current registration older than commitment") (.kind .operationForbidden)
      [(str "policy", commitment.policyId), (str "resource", record.object.resource), (str "object", record.object.id)])
  let amendMetadata ← Eff.lift (buildACPSuppliedMetadataWithTime Γ ctx commitment.metadata.creationTs actor.id ctx.signer)
  let result ← callEngine (Γ.amendRegistration .root commitment.policyId record.object actor commitmentTs.protoTs amendMetadata)
  let eventMetadata ← Eff.lift (buildRecordMetadata ctx actor.id ctx.signer)
  let s ← Eff.read
  let event : AmendmentEvent := {
    id := s.lastAmendmentId + 1
    policyId := commitment.policyId
    object := record.object
    newOwner := actor
    previousOwner := ⟨record.creator⟩
    commitmentId := commitment.id
    hijackFlag := false
    metadata := eventMetadata }
  Eff.modify fun s => { s with amendments := s.amendments.set event.id event, lastAmendmentId := event.id }
  pure (result, some event)

/-- `RevealRegistration`: register an object from a commitment, or amend its registration. -/
def revealRegistration (ctx : CmdCtx) (commitmentId : UInt64) (proof : Option RegistrationProof) (actor : Actor) :
    M Γ (RelationshipRecord × Option AmendmentEvent) := do
  let (commitment, ok) ← validateOpening ctx commitmentId proof actor
  Eff.require (ok = true) (.wrap (str "invalid registration opening") (.kind .unauthorized) [])
  let opening ← Eff.lift (deref proof)
  let registration ← askEngine fun e =>
    Γ.getObjectRegistration e (.did ctx.principalDID) commitment.policyId opening.object
  if registration.isRegistered then do
    let record ← Eff.lift (deref registration.record)
    amendRegistration ctx commitment record actor
  else do
    let commitmentTs ← Eff.lift (deref commitment.metadata.creationTs)
    -- the registration takes the time of the commitment, "to prevent a secondary amendment"
    let metadata ← Eff.lift (buildACPSuppliedMetadataWithTime Γ ctx commitment.metadata.creationTs actor.id ctx.signer)
    let result ← callEngine
      (Γ.revealRegistration (.did ctx.principalDID) commitment.policyId opening.object metadata commitmentTs.protoTs)
    pure (result, none)

def flagHijackEvent (eventId : UInt64) (actor : Actor) : M Γ AmendmentEvent := do
  let event ← Eff.query fun s => Outcome.ofOption
    (.wrap (str "event not found") (.kind .notFound) [(str "event", Decimal.dec eventId.toNat)])
    (s.amendments.get eventId)
  Eff.require (event.metadata.ownerDid = actor.id)
    (.wrap (str "event actor mismatch: actor must be event subject") (.kind .unauthorized)
      [(str "event", Decimal.dec eventId.toNat), (str "expected_actor", actor.id)])
  Eff.modify fun s => { s with amendments := s.amendments.set eventId { event with hijackFlag := true } }
  pure { event with hijackFlag := true }

/-! ## Commands -/

/-- The commands on registrations. -/
inductive Cmd where
  | registerObject (object : Option Object)
  | archiveObject (object : Option Object)
  | unarchiveObject (object : Option Object)
  | commitRegistrations (commitment : Bytes)
  | revealRegistration (commitmentId : UInt64) (proof : Option RegistrationProof)
  | flagHijackAttempt (eventId : UInt64)
  deriving Repr, DecidableEq

/-- What a command returns. -/
inductive CmdResult where
  | registerObject (record : MappedRecord)
  | archiveObject (relationshipsRemoved : UInt64)
  | unarchiveObject (record : MappedRecord) (relationshipModified : Bool)
  | commitRegistrations (commitment : RegistrationsCommitment)
  | revealRegistration (record : MappedRecord) (event : Option AmendmentEvent)
  | flagHijackAttempt (event : AmendmentEvent)
  deriving Repr, DecidableEq

/-- The handler of a command, on behalf of the actor of the context. -/
def Cmd.handle (ctx : CmdCtx) : Cmd → M Γ CmdResult
  | .registerObject object => do
    let r ← Registration.registerObject ctx object ⟨ctx.principalDID⟩
    let record ← Eff.lift (mapRelationshipRecord Γ r)
    pure (.registerObject record)
  | .archiveObject object => do
    let removed ← callEngine (Γ.archiveObject (.did ctx.principalDID) ctx.policyId object)
    pure (.archiveObject removed)
  | .unarchiveObject object => do
    let (r, modified) ← callEngine (Γ.unarchiveObject (.did ctx.principalDID) ctx.policyId object)
    let record ← Eff.lift (mapRelationshipRecord Γ r)
    pure (.unarchiveObject record modified)
  | .commitRegistrations commitment => do
    let registration ← setNewCommitment ctx commitment ⟨ctx.principalDID⟩
    pure (.commitRegistrations registration)
  | .revealRegistration commitmentId proof => do
    let (r, event) ← Registration.revealRegistration ctx commitmentId proof ⟨ctx.principalDID⟩
    let record ← Eff.lift (mapRelationshipRecord Γ r)
    pure (.revealRegistration record event)
  | .flagHijackAttempt eventId => do
    let event ← flagHijackEvent eventId ⟨ctx.principalDID⟩
    pure (.flagHijackAttempt event)

def dispatch (ctx : CmdCtx) (cmd : Cmd) : M Γ CmdResult := do
  Eff.lift (Outcome.ofExcept id (Γ.newDIDPrincipal ctx.principalDID))
  cmd.handle ctx

/-- The state after a command; one that fails is undone. -/
def step (s : State Γ) (input : CmdCtx × Cmd) : State Γ := (dispatch input.1 input.2).commit s

end Vera.Acp.Registration
