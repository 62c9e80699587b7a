import Vera.Orbis.Types

/-!
# Payloads of reports

The decoder of report payloads (`x/orbis/keeper/report.go`): the statements that nodes sign, in their canonical encoding, and
what the chain checks of each kind. The chain drops the cryptographic parts of a statement after a check of their lengths; a
check over a Go map goes through its entries in the order of the source here, which only decides which error is reported.
-/

namespace Vera.Orbis

open List Outcome
open Bytes (str)

/-! ## The decoder -/

/-- A decoder reads from the front of what is left of a byte string. -/
abbrev Decoder (α : Type) : Type := Eff Bytes Error α

def invalid (text : Bytes) : Error := ⟨.invalidReport, text⟩

def Decoder.run {α : Type} (d : Decoder α) (bytes : Bytes) : Outcome Error α := (d bytes).1

/-- Return an error in the case that `c` holds. -/
def reject (c : Prop) [Decidable c] (text : Bytes) : Decoder Unit := Eff.require (¬c) (invalid text)

def readFixed (n : Nat) (text : Bytes) : Decoder Bytes := fun d =>
  if d.length < n then (.err (invalid text), d) else (.ok (d.take n), d.drop n)

def readByte (label : String) : Decoder UInt8 := do
  let b ← readFixed 1 (str "missing " ++ str label)
  pure (b.headD 0)

def readFixed32 (label : String) : Decoder Bytes := readFixed 32 (str "truncated " ++ str label)

def readByteBool (label : String) : Decoder Bool := do
  let value ← readByte label
  reject (value ≠ 0 ∧ value ≠ 1) (str "invalid bool " ++ str label ++ str " tag " ++ Decimal.dec value.toNat)
  pure (value = 1)

def readU32 (label : String) : Decoder UInt32 := do
  let b ← readFixed 4 (str "missing " ++ str label)
  pure (UInt32.ofNat (Bytes.ofBigEndian b))

def readU64 (label : String) : Decoder UInt64 := do
  let b ← readFixed 8 (str "missing " ++ str label)
  pure (UInt64.ofNat (Bytes.ofBigEndian b))

def readBytes (label : String) : Decoder Bytes := do
  let length ← readU32 (label ++ "_length")
  readFixed length.toNat (str "truncated " ++ str label)

def readString (label : String) : Decoder Bytes := do
  let value ← readBytes label
  reject (Bytes.validUtf8 value = false) (str label ++ str " is not utf-8")
  pure value

/-- Read the byte in front of a value that may be missing. -/
def readPresent (label : String) : Decoder Bool := do
  let tag ← readByte (label ++ "_present")
  reject (tag ≠ 0 ∧ tag ≠ 1) (str "invalid optional " ++ str label ++ str " tag " ++ Decimal.dec tag.toNat)
  pure (tag = 1)

def readOptionalBytes (label : String) : Decoder Bytes := do
  let present ← readPresent label
  if present then readBytes label else pure []

def readOptionalU64 (label : String) : Decoder (Option UInt64) := do
  let present ← readPresent label
  if present then some <$> readU64 label else pure none

def finish : Decoder Unit := do
  let rest ← Eff.read
  reject (rest ≠ []) (str "trailing payload bytes")

/-! ## Parts of statements -/

/-- The committees a report refers to: the current one and the one of a pending reshare. -/
def committeeScopeCurrent : UInt8 := 1

def committeeScopePendingNew : UInt8 := 2

def readScope (who : String) : Decoder UInt8 := do
  let scope ← readByte (who ++ "_committee_scope")
  reject (scope ≠ committeeScopeCurrent ∧ scope ≠ committeeScopePendingNew)
    (str "unknown " ++ str who ++ str " committee scope " ++ Decimal.dec scope.toNat)
  pure scope

/-- The common fields of a statement. -/
structure InvalidCryptoResponseStatement where
  chainID : Bytes
  ringID : Bytes
  ringPk : Bytes
  ringStateSha256 : Bytes
  protocolVersion : UInt64
  requestID : Bytes
  signedAt : UInt64
  responderNodeKey : Bytes
  originProtocol : Bytes
  accusedCommitteeScope : UInt8
  signingCommitteeScope : UInt8
  endpointOrigin : Bytes := []
  attemptID : Bytes := []
  deriving Repr, DecidableEq

/-- A commitment of a key generation. -/
structure DkgCommitmentStatement extends InvalidCryptoResponseStatement where
  fromNodeID : UInt32
  commitment : Bytes
  sessionNonce : Bytes
  cryptoBackend : Bytes
  deriving Repr, DecidableEq

/-- The ring a statement is bound to. -/
structure RingBinding where
  chainID : Bytes
  ringID : Bytes
  ringPk : Bytes
  ringStateSha256 : Bytes
  protocolVersion : UInt64
  deriving Repr, DecidableEq

/-- The largest lengths of the parts of a statement. -/
def dkgStatementMaxLen : Nat := 1024 * 1024

/-- Check byte strings that must be there and must not be too long. -/
def checkBlobs (what : String) (maxLen : Nat) : List (String × Bytes) → Decoder Unit
  | [] => pure ()
  | (label, blob) :: rest => do
    reject (blob.length = 0) (str what ++ str " " ++ str label ++ str " cannot be empty")
    reject (maxLen < blob.length) (str what ++ str " " ++ str label ++ str " exceeds size bound")
    checkBlobs what maxLen rest

def protocolPRE : Bytes := str "pre"

def protocolSign : Bytes := str "sign"

def protocolPSSRefresh : Bytes := str "pss_refresh"

def protocolPSSReshare : Bytes := str "pss_reshare"

def isDkgProtocol (originProtocol : Bytes) : Bool := originProtocol = protocolPSSRefresh || originProtocol = protocolPSSReshare

/-- Whether evidence of an invalid signature share may come from a protocol. -/
def isSignProtocol (originProtocol : Bytes) : Bool :=
  originProtocol = protocolSign || isDkgProtocol originProtocol || originProtocol = str "report"

/-- Whether a phase of a key generation has public contributions. -/
def isDkgPublicOriginPhase (phase : Bytes) : Bool :=
  phase = str "commitments" || phase = str "commitment_audit" || phase = str "refresh_health_check" ||
    phase = str "reshare_participant_set"

def isDkgControlAckMessageKind (messageKind : Bytes) : Bool :=
  messageKind = str "prepared" || messageKind = str "activated" || messageKind = str "begun"

section Statements

variable (Γ : Env)

/-- Read the domain of a statement, which every statement starts with. -/
def readDomain (expected domainLabel : String) : Decoder Unit := do
  let domain ← readString "domain"
  reject (domain ≠ str expected) (str "unexpected " ++ str domainLabel ++ str " domain " ++ Γ.quote domain)

def readBinding : Decoder RingBinding := do
  let chainID ← readString "chain_id"
  let ringID ← readString "ring_id"
  let ringPk ← readString "ring_pk"
  let ringStateSha256 ← readString "ring_state_sha256"
  let protocolVersion ← readU64 "protocol_version"
  pure ⟨chainID, ringID, ringPk, ringStateSha256, protocolVersion⟩

def RingBinding.statement (b : RingBinding) (requestID : Bytes) (signedAt : UInt64) (responderNodeKey originProtocol : Bytes)
    (accusedScope signingScope : UInt8) : InvalidCryptoResponseStatement :=
  { chainID := b.chainID, ringID := b.ringID, ringPk := b.ringPk, ringStateSha256 := b.ringStateSha256
    protocolVersion := b.protocolVersion, requestID := requestID, signedAt := signedAt, responderNodeKey := responderNodeKey
    originProtocol := originProtocol, accusedCommitteeScope := accusedScope, signingCommitteeScope := signingScope }

/-- The fields of a statement of a key generation after its domain. -/
def decodeDkgStatementHeader : Decoder InvalidCryptoResponseStatement := do
  let binding ← readBinding
  let requestID ← readString "request_id"
  let signedAt ← readU64 "signed_at"
  let responderNodeKey ← readString "responder_node_key"
  let originProtocol ← readString "origin_protocol"
  let accusedScope ← readScope "accused"
  let signingScope ← readScope "signing"
  pure (binding.statement requestID signedAt responderNodeKey originProtocol accusedScope signingScope)

/-- A contribution signed by an endpoint; its origin is returned. -/
def decodeEndpointSignedContribution (what : String) : Decoder Bytes := do
  let origin ← readBytes (what ++ "_origin")
  let signature ← readBytes (what ++ "_signature")
  let data ← readBytes (what ++ "_data")
  reject (origin.length ≠ 32 ∨ signature.length ≠ 64 ∨ data.length = 0 ∨ dkgStatementMaxLen < data.length)
    (str "invalid endpoint-signed public contribution field lengths")
  pure origin

/-- A message of the control handshake, signed by a node. -/
def decodeControlMessageArtifact (what : String) : Decoder Unit := do
  let signature ← readBytes (what ++ "_signature")
  let data ← readBytes (what ++ "_data")
  let _ ← readU64 (what ++ "_signed_at")
  reject (signature.length ≠ 64) (str what ++ str " signature must be 64 bytes")
  reject (data.length = 0 ∨ dkgStatementMaxLen < data.length) (str what ++ str " data has invalid length")

/-- A second part that may be missing, behind the byte that says so. -/
def readSecond {α : Type} (what : String) (read : Decoder α) : Decoder (Option α) := do
  let tag ← readByte (what ++ "_present")
  if tag = 0 then pure none
  else if tag = 1 then some <$> read
  else Eff.fail (invalid (str "invalid optional " ++ str what ++ str " tag " ++ Decimal.dec tag.toNat))

/-- The checks that the statements of a key generation share; `lengths` are the further checks of lengths between them. -/
def checkDkgStatement (what protocolText : String) (attemptID : Bytes) (st : InvalidCryptoResponseStatement)
    (lengths : Decoder Unit) : Decoder Unit := do
  reject (attemptID.length ≠ 32) (str "DKG " ++ str what ++ str " attempt_id must be 32 bytes")
  lengths
  reject (st.requestID = [] ∨ st.responderNodeKey = []) (str "DKG " ++ str what ++ str " statement has empty identity fields")
  reject (isDkgProtocol st.originProtocol = false)
    (str "unsupported DKG " ++ str what ++ str protocolText ++ Γ.quote st.originProtocol)
  reject (st.signingCommitteeScope ≠ committeeScopeCurrent)
    (str "DKG " ++ str what ++ str " reports require current signing scope")
  reject (st.originProtocol = protocolPSSRefresh ∧ st.accusedCommitteeScope ≠ committeeScopeCurrent)
    (str "Refresh " ++ str what ++ str " reports require current accused scope")

/-- A faulty public contribution, or two that contradict each other. -/
def decodeDkgPublicOriginFaultStatement : Decoder InvalidCryptoResponseStatement := do
  readDomain Γ "orbis-dkg-public-origin-fault-v1" "DKG public-origin fault"
  let statement ← decodeDkgStatementHeader
  let attemptID ← readBytes "attempt_id"
  let phase ← readString "phase"
  let faultKind ← readString "fault_kind"
  let contributionA ← decodeEndpointSignedContribution "contribution_a"
  let contributionB ← readSecond "contribution_b" (decodeEndpointSignedContribution "contribution_b")
  finish
  checkDkgStatement Γ "public-origin" " protocol " attemptID statement (pure ())
  reject (isDkgPublicOriginPhase phase = false) (str "unsupported DKG public-origin phase " ++ Γ.quote phase)
  reject (faultKind = str "invalid_payload" ∧ contributionB.isSome) (str "invalid-payload evidence must contain one contribution")
  reject (faultKind = str "origin_equivocation" ∧ contributionB.isNone)
    (str "origin-equivocation evidence requires two contributions")
  reject (faultKind = str "origin_equivocation" ∧ phase = str "commitments")
    (str "Commitment equivocation requires the dedicated evidence kind")
  reject (faultKind ≠ str "invalid_payload" ∧ faultKind ≠ str "origin_equivocation")
    (str "unsupported DKG public-origin fault kind " ++ Γ.quote faultKind)
  reject (contributionB.isSome ∧ contributionB ≠ some contributionA) (str "public-origin evidence endpoints differ")
  pure { statement with endpointOrigin := contributionA, attemptID := attemptID }

def checkLeaderScope (what : String) (st : InvalidCryptoResponseStatement) : Decoder Unit :=
  reject (st.originProtocol = protocolPSSReshare ∧ st.accusedCommitteeScope ≠ committeeScopePendingNew)
    (str "Reshare " ++ str what ++ str " reports require pending-new accused scope")

/-- Two broadcasts of a leader that contradict each other: `decodeDkgLeaderEquivocationStatement` and
`decodeDkgLeaderBatchMismatchStatement` are this with different names. -/
def decodeLeaderDeliveries (domain what : String) : Decoder InvalidCryptoResponseStatement := do
  readDomain Γ domain ("DKG " ++ what)
  let statement ← decodeDkgStatementHeader
  let attemptID ← readBytes "attempt_id"
  let phase ← readString "phase"
  let deliveryIDA ← readBytes "delivery_id_a"
  let deliveryAOrigin ← decodeEndpointSignedContribution "delivery_a"
  let deliveryIDB ← readBytes "delivery_id_b"
  let deliveryBOrigin ← decodeEndpointSignedContribution "delivery_b"
  finish
  checkDkgStatement Γ what " origin protocol " attemptID statement
    (reject (deliveryIDA.length ≠ 16 ∨ deliveryIDB.length ≠ 16)
      (str "DKG " ++ str what ++ str " delivery_id must be 16 bytes"))
  checkLeaderScope what statement
  reject (isDkgPublicOriginPhase phase = false) (str "unsupported DKG " ++ str what ++ str " phase " ++ Γ.quote phase)
  reject (deliveryAOrigin ≠ deliveryBOrigin) (str what ++ str " deliveries have different endpoint origins")
  reject (deliveryIDA = deliveryIDB) (str what ++ str " deliveries must use distinct broadcast IDs")
  pure { statement with endpointOrigin := deliveryAOrigin, attemptID := attemptID }

/-- Two broadcasts of a leader in the same place. -/
def decodeDkgLeaderEquivocationStatement : Decoder InvalidCryptoResponseStatement :=
  decodeLeaderDeliveries Γ "orbis-dkg-leader-equivocation-v1" "leader-equivocation"

/-- Two broadcasts of a leader with one origin under two roots. -/
def decodeDkgLeaderBatchMismatchStatement : Decoder InvalidCryptoResponseStatement :=
  decodeLeaderDeliveries Γ "orbis-dkg-leader-batch-mismatch-v1" "leader batch-mismatch"

/-- A broadcast of a leader that is wrong by itself. -/
def decodeDkgLeaderPublicFaultStatement : Decoder InvalidCryptoResponseStatement := do
  readDomain Γ "orbis-dkg-leader-public-fault-v1" "DKG leader public-fault"
  let statement ← decodeDkgStatementHeader
  let attemptID ← readBytes "attempt_id"
  let phase ← readString "phase"
  let faultKind ← readString "fault_kind"
  let deliveryID ← readBytes "delivery_id"
  let deliveryOrigin ← decodeEndpointSignedContribution "delivery"
  finish
  checkDkgStatement Γ "leader public-fault" " origin protocol " attemptID statement
    (reject (deliveryID.length ≠ 16) (str "DKG leader public-fault delivery_id must be 16 bytes"))
  checkLeaderScope "leader public-fault" statement
  reject (isDkgPublicOriginPhase phase = false) (str "unsupported DKG leader public-fault phase " ++ Γ.quote phase)
  reject (faultKind ∉ [str "invalid_manifest", str "chunk_index_out_of_range", str "oversized_chunk", str "duplicate_chunk_origin"])
    (str "unsupported DKG leader public-fault kind " ++ Γ.quote faultKind)
  pure { statement with endpointOrigin := deliveryOrigin, attemptID := attemptID }

def decodeDkgControlMessageFaultStatement : Decoder InvalidCryptoResponseStatement := do
  readDomain Γ "orbis-dkg-control-message-fault-v1" "DKG control-message fault"
  let statement ← decodeDkgStatementHeader
  let attemptID ← readBytes "attempt_id"
  let messageKind ← readString "message_kind"
  let faultKind ← readString "fault_kind"
  decodeControlMessageArtifact "artifact_a"
  let artifactB ← readSecond "artifact_b" (decodeControlMessageArtifact "artifact_b")
  finish
  let prepareFault := faultKind = str "leader_prepare_fault"
  let ackFault := faultKind = str "ack_equivocation"
  let pageFault := faultKind = str "oversized_repair_page"
  checkDkgStatement Γ "control-message fault" " origin protocol " attemptID statement (pure ())
  -- an acknowledgement may come from a dealer who is only in the old committee
  reject (statement.originProtocol = protocolPSSReshare ∧ (prepareFault ∨ pageFault) ∧
      statement.accusedCommitteeScope ≠ committeeScopePendingNew)
    (str "Reshare leader-prepare-fault/oversized-repair-page reports require pending-new accused scope")
  reject (prepareFault ∧ messageKind ≠ str "prepare") (str "leader-prepare-fault evidence must target the Prepare message")
  reject (prepareFault ∧ artifactB.isSome) (str "leader-prepare-fault evidence must contain exactly one artifact")
  reject (ackFault ∧ isDkgControlAckMessageKind messageKind = false)
    (str "unsupported DKG control-ack message kind " ++ Γ.quote messageKind)
  reject (ackFault ∧ artifactB.isNone) (str "ack-equivocation evidence requires two artifacts")
  reject (pageFault ∧ messageKind ≠ str "public_phase_response")
    (str "oversized-repair-page evidence must target the PublicPhaseResponse message")
  reject (pageFault ∧ artifactB.isSome) (str "oversized-repair-page evidence must contain exactly one artifact")
  reject (¬prepareFault ∧ ¬ackFault ∧ ¬pageFault) (str "unsupported DKG control-message fault kind " ++ Γ.quote faultKind)
  pure { statement with attemptID := attemptID }

def readDkgCommitment : Decoder DkgCommitmentStatement := do
  readDomain Γ "orbis-dkg-commitment-v1" "DKG commitment"
  let binding ← readBinding
  let requestID ← readString "request_id"
  let signedAt ← readU64 "signed_at"
  let responderNodeKey ← readString "responder_node_key"
  let originProtocol ← readString "origin_protocol"
  reject (isDkgProtocol originProtocol = false) (str "unsupported DKG commitment origin protocol " ++ Γ.quote originProtocol)
  let accusedScope ← readScope "accused"
  let signingScope ← readScope "signing"
  let fromNodeID ← readU32 "from_node_id"
  let commitment ← readBytes "commitment"
  let sessionNonce ← readBytes "session_nonce"
  let attemptID ← readBytes "attempt_id"
  let cryptoBackend ← readString "crypto_backend"
  finish
  reject (requestID = [] ∨ responderNodeKey = []) (str "DKG commitment statement has empty identity fields")
  reject (accusedScope ≠ committeeScopeCurrent ∨ signingScope ≠ committeeScopeCurrent)
    (str "DKG commitment reports must use current accused and signing scopes")
  reject (fromNodeID = 0) (str "DKG commitment from_node_id must be non-zero")
  reject (commitment.length = 0) (str "DKG commitment cannot be empty")
  reject (dkgStatementMaxLen < commitment.length) (str "DKG commitment exceeds size bound")
  reject (sessionNonce.length ≠ 16) (str "DKG commitment session nonce must be 16 bytes")
  reject (attemptID.length ≠ 32) (str "DKG commitment attempt_id must be 32 bytes")
  reject (cryptoBackend = []) (str "DKG commitment crypto backend cannot be empty")
  let statement := binding.statement requestID signedAt responderNodeKey originProtocol accusedScope signingScope
  pure { toInvalidCryptoResponseStatement := { statement with attemptID := attemptID }
         fromNodeID := fromNodeID, commitment := commitment, sessionNonce := sessionNonce, cryptoBackend := cryptoBackend }

/-- A statement within the bound on its length. -/
def decodeBounded {α : Type} (what : String) (read : Decoder α) (statementBytes : Bytes) : Outcome Error α :=
  if dkgStatementMaxLen < statementBytes.length then .err (invalid (str what ++ str " statement exceeds size bound"))
  else read.run statementBytes

def decodeDkgCommitmentStatement (statementBytes : Bytes) : Outcome Error DkgCommitmentStatement :=
  decodeBounded "DKG commitment" (readDkgCommitment Γ) statementBytes

/-- Whether two commitments, or a commitment and a share, are of the same ring, session and node. -/
def DkgCommitmentStatement.bindingEq (c d : DkgCommitmentStatement) : Bool :=
  c.chainID = d.chainID && c.ringID = d.ringID && c.ringPk = d.ringPk && c.ringStateSha256 = d.ringStateSha256 &&
    c.protocolVersion = d.protocolVersion && c.requestID = d.requestID && c.responderNodeKey = d.responderNodeKey &&
    c.originProtocol = d.originProtocol && c.accusedCommitteeScope = d.accusedCommitteeScope &&
    c.signingCommitteeScope = d.signingCommitteeScope && c.fromNodeID = d.fromNodeID && c.cryptoBackend = d.cryptoBackend

/-- A share that does not fit the commitment inside the statement. -/
def readDkgShare : Decoder InvalidCryptoResponseStatement := do
  readDomain Γ "orbis-dkg-share-v1" "DKG share"
  let binding ← readBinding
  let requestID ← readString "request_id"
  let signedAt ← readU64 "signed_at"
  let responderNodeKey ← readString "responder_node_key"
  let receiverNodeKey ← readString "receiver_node_key"
  let originProtocol ← readString "origin_protocol"
  reject (isDkgProtocol originProtocol = false) (str "unsupported DKG share origin protocol " ++ Γ.quote originProtocol)
  let accusedScope ← readScope "accused"
  let signingScope ← readScope "signing"
  let fromNodeID ← readU32 "from_node_id"
  let toNodeID ← readU32 "to_node_id"
  let commitmentStatementBytes ← readBytes "commitment_statement"
  let commitmentSignature ← readBytes "commitment_signature"
  let shareValue ← readBytes "share_value"
  let nonce ← readBytes "nonce"
  let cryptoBackend ← readString "crypto_backend"
  finish
  reject (requestID = [] ∨ responderNodeKey = [] ∨ receiverNodeKey = []) (str "DKG share statement has empty identity fields")
  reject (accusedScope ≠ committeeScopeCurrent ∨ signingScope ≠ committeeScopeCurrent)
    (str "DKG share reports must use current accused and signing scopes")
  reject (fromNodeID = 0 ∨ toNodeID = 0) (str "DKG share node IDs must be non-zero")
  reject (commitmentStatementBytes.length = 0) (str "DKG commitment statement cannot be empty")
  reject (dkgStatementMaxLen < commitmentStatementBytes.length) (str "DKG commitment statement exceeds size bound")
  reject (commitmentSignature.length ≠ 64) (str "DKG commitment signature must be 64 bytes")
  reject (shareValue.length = 0) (str "DKG share value cannot be empty")
  reject (4096 < shareValue.length) (str "DKG share value exceeds size bound")
  reject (nonce.length ≠ 16) (str "DKG share nonce must be 16 bytes")
  reject (cryptoBackend = []) (str "DKG share crypto backend cannot be empty")
  let commitment ← Eff.lift (decodeDkgCommitmentStatement Γ commitmentStatementBytes)
  let statement := binding.statement requestID signedAt responderNodeKey originProtocol accusedScope signingScope
  reject (commitment.bindingEq { commitment with
      toInvalidCryptoResponseStatement := statement, fromNodeID := fromNodeID, cryptoBackend := cryptoBackend } = false)
    (str "DKG commitment binding does not match DKG share statement")
  reject (signedAt < commitment.signedAt) (str "DKG commitment was signed after the DKG share")
  pure { statement with attemptID := commitment.attemptID }

def decodeDkgInvalidRefreshCommitmentStatement (statementBytes : Bytes) : Outcome Error InvalidCryptoResponseStatement := do
  let commitment ← decodeDkgCommitmentStatement Γ statementBytes
  Outcome.require (commitment.originProtocol = protocolPSSRefresh)
    (invalid (str "DKG invalid-refresh-commitment report requires pss_refresh origin, got " ++ commitment.originProtocol))
  pure commitment.toInvalidCryptoResponseStatement

/-- Two different commitments for one session. The later of the two times stands for both. -/
def decodeDkgEquivocationStatements (statementA signatureA statementB signatureB : Bytes) :
    Outcome Error InvalidCryptoResponseStatement := do
  Outcome.require (signatureA.length = 64) (invalid (str "DKG equivocation commitment_a signature must be 64 bytes"))
  Outcome.require (signatureB.length = 64) (invalid (str "DKG equivocation commitment_b signature must be 64 bytes"))
  let commitmentA ← decodeDkgCommitmentStatement Γ statementA
  let commitmentB ← decodeDkgCommitmentStatement Γ statementB
  Outcome.require (commitmentA.bindingEq commitmentB = true ∧ commitmentA.attemptID = commitmentB.attemptID)
    (invalid (str "DKG equivocation commitment bindings do not match"))
  Outcome.require (commitmentA.sessionNonce = commitmentB.sessionNonce)
    (invalid (str "DKG equivocation commitments must share a session nonce"))
  Outcome.require (commitmentA.commitment ≠ commitmentB.commitment)
    (invalid (str "DKG equivocation commitments must differ"))
  pure { commitmentA.toInvalidCryptoResponseStatement with signedAt := max commitmentA.signedAt commitmentB.signedAt }

def decodePreReencryptResponseStatement : Decoder InvalidCryptoResponseStatement := do
  readDomain Γ "orbis-pre-reencrypt-response-v1" "PRE response"
  let binding ← readBinding
  let requestID ← readString "request_id"
  let signedAt ← readU64 "signed_at"
  let responderNodeKey ← readString "responder_node_key"
  let originProtocol ← readString "origin_protocol"
  reject (originProtocol ≠ protocolPRE) (str "unsupported PRE response origin protocol " ++ Γ.quote originProtocol)
  let objectID ← readString "object_id"
  reject (requestID = [] ∨ responderNodeKey = [] ∨ objectID = []) (str "PRE response statement has empty identity fields")
  let rdrPk ← readBytes "rdr_pk"
  let derivation ← readOptionalBytes "derivation"
  reject (4096 < derivation.length) (str "PRE response derivation exceeds size bound")
  let _ ← readU32 "from_node_id"
  let share ← readBytes "share"
  let challenge ← readBytes "challenge"
  let proof ← readBytes "proof"
  let cryptoBackend ← readString "crypto_backend"
  reject (cryptoBackend = []) (str "PRE response crypto backend cannot be empty")
  let _ ← readOptionalU64 "timestamp"
  let _ ← readByteBool "document_inline"
  finish
  checkBlobs "PRE response" 512 [("rdr_pk", rdrPk), ("share", share), ("challenge", challenge), ("proof", proof)]
  pure (binding.statement requestID signedAt responderNodeKey originProtocol committeeScopeCurrent committeeScopeCurrent)

def decodeSignResponseStatement : Decoder InvalidCryptoResponseStatement := do
  readDomain Γ "orbis-sign-response-v1" "Sign response"
  let binding ← readBinding
  let requestID ← readString "request_id"
  let signedAt ← readU64 "signed_at"
  let responderNodeKey ← readString "responder_node_key"
  let originProtocol ← readString "origin_protocol"
  reject (isSignProtocol originProtocol = false) (str "unsupported Sign response origin protocol " ++ Γ.quote originProtocol)
  let accusedScope ← readScope "accused"
  let signingScope ← readScope "signing"
  let _ ← readU32 "from_node_id"
  let message ← readBytes "message"
  let signingCommitments ← readBytes "signing_commitments"
  let derivation ← readOptionalBytes "derivation"
  let metadata ← readOptionalBytes "metadata"
  let sigShare ← readBytes "sig_share"
  let cryptoBackend ← readString "crypto_backend"
  finish
  reject (requestID = [] ∨ responderNodeKey = []) (str "Sign response statement has empty identity fields")
  reject (cryptoBackend = []) (str "Sign response crypto backend cannot be empty")
  reject (message.length = 0) (str "Sign response message cannot be empty")
  reject (1024 * 1024 < message.length) (str "Sign response message exceeds size bound")
  reject (1024 * 1024 < signingCommitments.length) (str "Sign response commitments exceed size bound")
  reject (4096 < derivation.length) (str "Sign response derivation exceeds size bound")
  reject (4096 < metadata.length) (str "Sign response metadata exceeds size bound")
  reject (sigShare.length = 0) (str "Sign response sig_share cannot be empty")
  reject (4096 < sigShare.length) (str "Sign response sig_share exceeds size bound")
  pure (binding.statement requestID signedAt responderNodeKey originProtocol accusedScope signingScope)

/-- The first phase of the blind equality test. -/
def decodePetBlindRevealStatement : Decoder InvalidCryptoResponseStatement := do
  readDomain Γ "orbis-pet-blind-reveal-response-v2" "PET blind-reveal"
  let binding ← readBinding
  let attemptID ← readString "attempt_id"
  let _ ← readFixed32 "context_digest"
  let _ ← readFixed32 "selection_digest"
  let responderNodeKey ← readString "responder_node_key"
  reject (attemptID = [] ∨ responderNodeKey = []) (str "PET blind-reveal statement has empty identity fields")
  reject (512 < attemptID.length) (str "PET blind-reveal attempt_id exceeds size bound")
  let _ ← readU32 "from_node_id"
  let commitment ← readBytes "commitment"
  let blindedR ← readBytes "blinded_r"
  let blindedDiff ← readBytes "blinded_diff"
  let _ ← readFixed32 "commit_salt"
  let challenge ← readBytes "challenge"
  let proof ← readBytes "proof"
  let signedAt ← readU64 "signed_at"
  finish
  checkBlobs "PET blind-reveal" 512
    [("commitment", commitment), ("blinded_r", blindedR), ("challenge", challenge), ("proof", proof)]
  reject (512 < blindedDiff.length) (str "PET blind-reveal blinded_diff exceeds size bound")
  pure (binding.statement attemptID signedAt responderNodeKey (str "pet_blind_reveal") committeeScopeCurrent
    committeeScopeCurrent)

/-- The second phase of the blind equality test; here the length of the attempt's name is not checked. -/
def decodePetBlindDecryptStatement : Decoder InvalidCryptoResponseStatement := do
  readDomain Γ "orbis-pet-blind-decrypt-response-v2" "PET blind-decrypt"
  let binding ← readBinding
  let attemptID ← readString "attempt_id"
  let _ ← readFixed32 "context_digest"
  let _ ← readFixed32 "certificate_digest"
  let responderNodeKey ← readString "responder_node_key"
  reject (attemptID = [] ∨ responderNodeKey = []) (str "PET blind-decrypt statement has empty identity fields")
  let _ ← readU32 "from_node_id"
  let aggregateR ← readBytes "aggregate_r"
  let aggregateDiff ← readBytes "aggregate_diff"
  let partialValue ← readBytes "partial"
  let challenge ← readBytes "challenge"
  let proof ← readBytes "proof"
  let signedAt ← readU64 "signed_at"
  let publicPolynomial ← readBytes "public_polynomial"
  finish
  checkBlobs "PET blind-decrypt" 512
    [("aggregate_r", aggregateR), ("partial", partialValue), ("challenge", challenge), ("proof", proof)]
  reject (512 < aggregateDiff.length) (str "PET blind-decrypt aggregate_diff exceeds size bound")
  reject (publicPolynomial.length = 0) (str "PET blind-decrypt public_polynomial cannot be empty")
  reject (1024 * 1024 < publicPolynomial.length) (str "PET blind-decrypt public_polynomial exceeds size bound")
  pure (binding.statement attemptID signedAt responderNodeKey (str "pet_blind_decrypt") committeeScopeCurrent
    committeeScopeCurrent)

/-! ## Payloads -/

/-- The kinds of evidence with one statement. -/
inductive StatementKind where
  | pre
  | sign
  | petBlindReveal
  | petBlindDecrypt
  | dkgShare
  | dkgInvalidRefreshCommitment
  | dkgPublicOriginFault
  | dkgLeaderEquivocation
  | dkgControlMessageFault
  | dkgLeaderPublicFault
  | dkgLeaderBatchMismatch
  deriving Repr, DecidableEq

def StatementKind.ofName (name : Bytes) : Option StatementKind :=
  [(str "pre", pre), (str "sign", sign), (str "pet_blind_reveal", petBlindReveal), (str "pet_blind_decrypt", petBlindDecrypt),
    (str "dkg_share", dkgShare), (str "dkg_invalid_refresh_commitment", dkgInvalidRefreshCommitment),
    (str "dkg_public_origin_fault", dkgPublicOriginFault), (str "dkg_leader_equivocation", dkgLeaderEquivocation),
    (str "dkg_control_message_fault", dkgControlMessageFault), (str "dkg_leader_public_fault", dkgLeaderPublicFault),
    (str "dkg_leader_batch_mismatch", dkgLeaderBatchMismatch)].lookup name

/-- Whether the statement comes with a signature of the responder. -/
def StatementKind.signed : StatementKind → Bool
  | pre | sign | petBlindReveal | petBlindDecrypt | dkgShare | dkgInvalidRefreshCommitment => true
  | _ => false

/-- The evidence of a payload: one statement, or two commitments that contradict each other. -/
inductive Evidence where
  | single (kind : StatementKind) (statement : Bytes)
  | equivocation (statementA signatureA statementB signatureB : Bytes)
  deriving Repr, DecidableEq

def Evidence.statements : Evidence → List Bytes
  | single _ statement => [statement]
  | equivocation statementA _ statementB _ => [statementA, statementB]

def readEvidence : Decoder Evidence := do
  let evidenceKind ← readString "evidence_kind"
  if evidenceKind = str "dkg_equivocation" then do
    let statementA ← readBytes "commitment_a_statement"
    let signatureA ← readBytes "commitment_a_signature"
    let statementB ← readBytes "commitment_b_statement"
    let signatureB ← readBytes "commitment_b_signature"
    finish
    pure (.equivocation statementA signatureA statementB signatureB)
  else
    match StatementKind.ofName evidenceKind with
    | none => Eff.fail (invalid (str "unsupported invalid crypto evidence kind " ++ Γ.quote evidenceKind))
    | some kind => do
      let statement ← readBytes "statement"
      if kind.signed then do
        let responseSignature ← readBytes "response_signature"
        finish
        reject (responseSignature.length ≠ 64) (str "response signature must be 64 bytes")
      else finish
      pure (.single kind statement)

def decodeStatement : StatementKind → Bytes → Outcome Error InvalidCryptoResponseStatement
  | .pre => (decodePreReencryptResponseStatement Γ).run
  | .sign => (decodeSignResponseStatement Γ).run
  | .petBlindReveal => (decodePetBlindRevealStatement Γ).run
  | .petBlindDecrypt => (decodePetBlindDecryptStatement Γ).run
  | .dkgShare => decodeBounded "DKG share" (readDkgShare Γ)
  | .dkgInvalidRefreshCommitment => decodeDkgInvalidRefreshCommitmentStatement Γ
  | .dkgPublicOriginFault => (decodeDkgPublicOriginFaultStatement Γ).run
  | .dkgLeaderEquivocation => (decodeDkgLeaderEquivocationStatement Γ).run
  | .dkgControlMessageFault => (decodeDkgControlMessageFaultStatement Γ).run
  | .dkgLeaderPublicFault => (decodeDkgLeaderPublicFaultStatement Γ).run
  | .dkgLeaderBatchMismatch => (decodeDkgLeaderBatchMismatchStatement Γ).run

def Evidence.decode : Evidence → Outcome Error InvalidCryptoResponseStatement
  | single kind statement => decodeStatement Γ kind statement
  | equivocation statementA signatureA statementB signatureB =>
    decodeDkgEquivocationStatements Γ statementA signatureA statementB signatureB

/-- Decode the payload of a report of an invalid response. -/
def decodeInvalidCryptoResponsePayload (payload : Bytes) : Outcome Error InvalidCryptoResponseStatement := do
  let evidence ← (readEvidence Γ).run payload
  evidence.decode Γ

/-- What the checks of a report read of its payload. -/
structure ReportPayload where
  originProtocol : Bytes
  originProtocolVersion : UInt64
  accusedCommitteeScope : UInt8
  signingCommitteeScope : UInt8
  attemptID : Bytes := []
  deriving Repr, DecidableEq

def decodeNodeOfflinePayload : Decoder ReportPayload := do
  let originProtocol ← readString "origin_protocol"
  let originProtocolVersion ← readU64 "origin_protocol_version"
  let accusedScope ← readScope "accused"
  let signingScope ← readScope "signing"
  finish
  pure { originProtocol := originProtocol, originProtocolVersion := originProtocolVersion
         accusedCommitteeScope := accusedScope, signingCommitteeScope := signingScope }

/-- A request a node relayed: the fields of a statement with the relayer as the responder. -/
def decodeRelayRequestStatement : Decoder InvalidCryptoResponseStatement := do
  readDomain Γ "orbis-relay-request-v1" "relay request"
  let binding ← readBinding
  let requestID ← readString "request_id"
  let signedAt ← readU64 "signed_at"
  let userSignedAt ← readU64 "user_signed_at"
  let relayerNodeKey ← readString "relayer_node_key"
  let originProtocol ← readString "origin_protocol"
  let accusedScope ← readScope "accused"
  let signingScope ← readScope "signing"
  let fromNodeID ← readU32 "from_node_id"
  let actorID ← readString "actor_id"
  let objectID ← readString "object_id"
  let validWindowStart ← readOptionalU64 "valid_window_start"
  let validWindowEnd ← readOptionalU64 "valid_window_end"
  let _ ← readOptionalU64 "timestamp"
  let _ ← readByteBool "document_inline"
  finish
  reject (originProtocol ≠ protocolPRE ∧ originProtocol ≠ protocolSign)
    (str "unsupported relay request origin protocol " ++ Γ.quote originProtocol)
  reject (accusedScope ≠ committeeScopeCurrent ∨ signingScope ≠ committeeScopeCurrent)
    (str "relay request reports must use current accused and signing scopes")
  reject (fromNodeID = 0) (str "relay request from_node_id must be non-zero")
  reject (requestID = [] ∨ relayerNodeKey = [] ∨ actorID = [] ∨ objectID = [])
    (str "relay request statement has empty identity fields")
  reject (validWindowStart.isSome ≠ validWindowEnd.isSome)
    (str "relay request valid_window bounds must both be present or both absent")
  reject (30 < max signedAt userSignedAt - min signedAt userSignedAt)
    (str "relay request signed_at " ++ Decimal.dec signedAt.toNat ++ str " drifts from caller signed_at " ++
      Decimal.dec userSignedAt.toNat ++ str " by more than 30s")
  pure (binding.statement requestID signedAt relayerNodeKey originProtocol accusedScope signingScope)

/-- The payload of a report of an unauthorized request: the statement, a signature and an anchor. -/
def readUnauthorizedRequest : Decoder Bytes := do
  let statementBytes ← readBytes "statement"
  let relaySignature ← readBytes "relay_signature"
  let checkedAtAnchor ← readString "checked_at_anchor"
  finish
  reject (relaySignature.length ≠ 64) (str "relay signature must be 64 bytes")
  reject (checkedAtAnchor = []) (str "relay request checked_at_anchor cannot be empty")
  pure statementBytes

/-- Decode the payload of a report of an unauthorized request. -/
def decodeUnauthorizedRequestPayload (payload : Bytes) : Outcome Error InvalidCryptoResponseStatement := do
  let statementBytes ← readUnauthorizedRequest.run payload
  (decodeRelayRequestStatement Γ).run statementBytes

end Statements

/-! ## What a statement says

The decoder of a statement is chosen by the payload around it, but every decoder first checks the domain, so the bytes of a
statement fix what it says. -/

/-- The domain that a statement of a kind starts with. -/
def StatementKind.domain : StatementKind → String
  | pre => "orbis-pre-reencrypt-response-v1"
  | sign => "orbis-sign-response-v1"
  | petBlindReveal => "orbis-pet-blind-reveal-response-v2"
  | petBlindDecrypt => "orbis-pet-blind-decrypt-response-v2"
  | dkgShare => "orbis-dkg-share-v1"
  | dkgInvalidRefreshCommitment => "orbis-dkg-commitment-v1"
  | dkgPublicOriginFault => "orbis-dkg-public-origin-fault-v1"
  | dkgLeaderEquivocation => "orbis-dkg-leader-equivocation-v1"
  | dkgControlMessageFault => "orbis-dkg-control-message-fault-v1"
  | dkgLeaderPublicFault => "orbis-dkg-leader-public-fault-v1"
  | dkgLeaderBatchMismatch => "orbis-dkg-leader-batch-mismatch-v1"

def domainOf (statement : Bytes) : Outcome Error Bytes := (readString "domain").run statement

section Says

variable {Γ : Env}

variable {α : Type} {statement : Bytes} {a : α} {c : DkgCommitmentStatement} {st : InvalidCryptoResponseStatement}

theorem domainOf_of_run {expected label : String} {rest : Unit → Decoder α}
    (h : Decoder.run (readDomain Γ expected label >>= rest) statement = .ok a) :
    domainOf statement = .ok (str expected) := by
  obtain ⟨_, left, hd, _⟩ := Eff.bind_ok.1 (Eff.succeeds_of_fst_eq h)
  obtain ⟨domain, left, hr, hsame⟩ := Eff.bind_ok.1 hd
  have heq : domain = str expected := not_not.1 (Eff.require_ok.1 hsame).1
  unfold domainOf Decoder.run
  rw [hr, heq]

theorem decodeBounded_eq_ok {what : String} {read : Decoder α}
    (h : decodeBounded what read statement = .ok a) : read.run statement = .ok a := by
  unfold decodeBounded at h
  split at h
  · cases h
  · exact h

theorem decodeDkgCommitmentStatement_domain (h : decodeDkgCommitmentStatement Γ statement = .ok c) :
    domainOf statement = .ok (str StatementKind.dkgInvalidRefreshCommitment.domain) := by
  exact domainOf_of_run (decodeBounded_eq_ok h)

theorem decodeDkgInvalidRefreshCommitmentStatement_eq_ok
    (h : decodeDkgInvalidRefreshCommitmentStatement Γ statement = .ok st) :
    ∃ c, decodeDkgCommitmentStatement Γ statement = .ok c ∧ st = c.toInvalidCryptoResponseStatement := by
  obtain ⟨c, hc, h⟩ := bind_eq_ok.1 h
  obtain ⟨_, _, h⟩ := bind_eq_ok.1 h
  exact ⟨c, hc, (pure_eq_ok.1 h).symm⟩

/-- What two commitments that are accepted as an equivocation have in common, and what not. -/
theorem decodeDkgEquivocationStatements_eq_ok {statementA signatureA statementB signatureB : Bytes}
    (h : decodeDkgEquivocationStatements Γ statementA signatureA statementB signatureB = .ok st) :
    ∃ a b, decodeDkgCommitmentStatement Γ statementA = .ok a ∧ decodeDkgCommitmentStatement Γ statementB = .ok b ∧
      (a.bindingEq b = true ∧ a.attemptID = b.attemptID) ∧ a.commitment ≠ b.commitment ∧
      st = { a.toInvalidCryptoResponseStatement with signedAt := max a.signedAt b.signedAt } := by
  simp only [decodeDkgEquivocationStatements, bind_eq_ok, require_eq_ok, pure_eq_ok] at h
  obtain ⟨_, _, _, _, a, ha, b, hb, _, hbi, _, _, _, hd, rfl⟩ := h
  exact ⟨a, b, ha, hb, hbi, hd, rfl⟩

theorem decodeStatement_domain {kind : StatementKind}
    (h : decodeStatement Γ kind statement = .ok st) : domainOf statement = .ok (str kind.domain) := by
  cases kind with
  | dkgShare => exact domainOf_of_run (decodeBounded_eq_ok h)
  | dkgInvalidRefreshCommitment =>
    obtain ⟨c, hc, _⟩ := decodeDkgInvalidRefreshCommitmentStatement_eq_ok h
    exact decodeDkgCommitmentStatement_domain hc
  | _ => exact domainOf_of_run h

theorem StatementKind.domain_inj {k l : StatementKind} (h : str k.domain = str l.domain) : k = l := by
  cases k <;> cases l <;> first | rfl | exact absurd h (by decide)

variable (Γ) in
/-- The fields that a statement says, read as what its domain says it is: a commitment is not always one of a refresh. -/
def Says (statement : Bytes) (st : InvalidCryptoResponseStatement) : Prop :=
  (∃ kind, decodeStatement Γ kind statement = .ok st) ∨
    ∃ c, decodeDkgCommitmentStatement Γ statement = .ok c ∧ st = c.toInvalidCryptoResponseStatement

theorem Says.unique {st' : InvalidCryptoResponseStatement} (h : Says Γ statement st)
    (h' : Says Γ statement st') : st = st' := by
  -- a commitment read as a refresh commitment is the commitment
  have hr : ∀ {kind st c}, decodeStatement Γ kind statement = .ok st → decodeDkgCommitmentStatement Γ statement = .ok c →
      st = c.toInvalidCryptoResponseStatement := by
    intro kind st c hk hc
    have hd := (decodeStatement_domain hk).symm.trans (decodeDkgCommitmentStatement_domain hc)
    obtain rfl := StatementKind.domain_inj (Outcome.ok.inj hd)
    obtain ⟨c', hc', rfl⟩ := decodeDkgInvalidRefreshCommitmentStatement_eq_ok hk
    rw [Outcome.ok.inj (hc'.symm.trans hc)]
  rcases h with ⟨k, hk⟩ | ⟨c, hc, rfl⟩
  · rcases h' with ⟨l, hl⟩ | ⟨c, hc, rfl⟩
    · have hd := (decodeStatement_domain hk).symm.trans (decodeStatement_domain hl)
      obtain rfl := StatementKind.domain_inj (Outcome.ok.inj hd)
      exact Outcome.ok.inj (hk.symm.trans hl)
    · exact hr hk hc
  · rcases h' with ⟨l, hl⟩ | ⟨c', hc', rfl⟩
    · exact (hr hl hc).symm
    · rw [Outcome.ok.inj (hc.symm.trans hc')]

/-- The part of a statement that names the session it is from. -/
def InvalidCryptoResponseStatement.session (st : InvalidCryptoResponseStatement) : List Bytes :=
  [st.chainID, st.ringID, st.originProtocol, st.responderNodeKey, st.requestID, st.attemptID]

theorem DkgCommitmentStatement.session_eq_of_bindingEq {d : DkgCommitmentStatement} (h : c.bindingEq d = true)
    (ha : c.attemptID = d.attemptID) : c.session = d.session := by
  simp only [DkgCommitmentStatement.bindingEq, Bool.and_eq_true, decide_eq_true_eq] at h
  simp only [InvalidCryptoResponseStatement.session, ha, h]

theorem le_laterTime (a b : UInt64) : a ≤ max a b ∧ b ≤ max a b := by
  show a ≤ (if a ≤ b then b else a) ∧ b ≤ if a ≤ b then b else a
  split
  · rename_i h
    exact ⟨h, UInt64.le_refl b⟩
  · rename_i h
    exact ⟨UInt64.le_refl a, UInt64.le_of_lt (UInt64.not_le.1 h)⟩

/-- Every statement of accepted evidence is of the session that the report is about, and not signed later than it says. -/
theorem Evidence.says {evidence : Evidence} (h : evidence.decode Γ = .ok st) (hmem : statement ∈ evidence.statements) :
    ∃ said, Says Γ statement said ∧ said.session = st.session ∧ said.signedAt ≤ st.signedAt := by
  cases evidence with
  | single kind bytes =>
    obtain rfl := mem_singleton.1 hmem
    exact ⟨st, .inl ⟨kind, h⟩, rfl, UInt64.le_refl _⟩
  | equivocation statementA signatureA statementB signatureB =>
    obtain ⟨a, b, ha, hb, ⟨hsame, hat⟩, -, rfl⟩ := decodeDkgEquivocationStatements_eq_ok h
    rcases mem_cons.1 hmem with rfl | hmem
    · exact ⟨a.toInvalidCryptoResponseStatement, .inr ⟨a, ha, rfl⟩, rfl, (le_laterTime _ _).1⟩
    · obtain rfl := mem_singleton.1 hmem
      exact ⟨b.toInvalidCryptoResponseStatement, .inr ⟨b, hb, rfl⟩,
        (DkgCommitmentStatement.session_eq_of_bindingEq hsame hat).symm, (le_laterTime _ _).2⟩

end Says

end Vera.Orbis
