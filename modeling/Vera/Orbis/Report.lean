import Vera.Lib.Sha256
import Vera.Orbis.ReportPayload
import Vera.Orbis.Ring

/-!
# Reports

The checks of a submitted report, the record of those accepted and its pruning at the end of a block
(`x/orbis/keeper/report.go`, `store.go`, `threshold_signature.go`, `endblock.go` and `SubmitReport` of `msg_server.go`).
-/

namespace Vera.Orbis

open Bytes (str)
open Canonical (Field)

/-! ## Canonical bytes -/

/-- What the canonical writer makes of a list of fields; the first length that does not fit is the error. -/
def canonicalBytes (fields : List Field) : Outcome Error Bytes :=
  match fields.find? fun f => !f.fits with
  | none => .ok (Canonical.encode fields)
  | some (.count _) => .err (invalid (str "string slice exceeds u32 length"))
  | some _ => .err (invalid (str "byte slice exceeds u32 length"))

def ReportEnvelope.fields (r : ReportEnvelope) : List Field :=
  [.bytes r.domain, .bytes r.reportType, .bytes r.chainId, .bytes r.ringId, .bytes r.ringPk, .bytes r.ringStateSha256,
    .bytes r.reporterNodeKey, .bytes r.accusedNodeKey, .bytes r.accusedPeerId, .u64 r.observedAt, .u64 r.expiresAt,
    .bytes r.payload, .bytes r.sessionId]

def reportEnvelopeCanonicalBytes (r : ReportEnvelope) : Outcome Error Bytes := canonicalBytes r.fields

def sha256Hex (message : Bytes) : Bytes := Bytes.hex (Sha256.sum256 message)

/-- The identifier of what a report is about: one report per ring, type, protocol, accused node, session and attempt. -/
def reportSessionDedupeID (r : ReportEnvelope) (payload : ReportPayload) : Outcome Error Bytes := do
  let message ← canonicalBytes [.bytes (str "orbis-mpc-fault-report-session"), .bytes r.chainId, .bytes r.ringId,
    .bytes r.reportType, .bytes payload.originProtocol, .bytes r.accusedNodeKey, .bytes r.sessionId, .bytes payload.attemptID]
  pure (sha256Hex message)

/-- The fields of how a ring deals with reports. -/
def ReportingConfig.fields (config : ReportingConfig) : List Field :=
  [.u64 config.demeritConfig.nodeOfflineDemerits, .u64 config.demeritConfig.resetIntervalSeconds,
    .u64 config.demeritConfig.invalidCryptoResponseDemerits, .u64 config.demeritConfig.unauthorizedRequestDemerits] ++
  Canonical.strings config.backupNodeKeys ++ [.u64 config.kickThreshold]

/-- The fields of the state of a ring; older nodes leave out the relays. -/
def Ring.stateFields (ring : Ring) (includeRelayState : Bool) : List Field :=
  [.bytes ring.ringPk] ++ Canonical.strings ring.peerNodeKeys ++ [.u32 ring.threshold] ++
  Canonical.optional (if ring.newPeerNodeKeys = [] then none else some (Canonical.strings ring.newPeerNodeKeys)) ++
  Canonical.optional (ring.newThreshold.map fun t => [.u32 t]) ++ [.u64 ring.pssInterval, .u64 ring.blockNumberNonce] ++
  Canonical.optional (if ring.policyId = [] then none else some [.bytes ring.policyId]) ++
  (if includeRelayState then
    .byte (if ring.allowTrustedAuthRelays then 1 else 0) :: Canonical.strings ring.trustedAuthRelayDids
  else []) ++
  [.u64 ring.upgradeInfo.currentVersion] ++ Canonical.optional (ring.upgradeInfo.nextVersion.map fun v => [.u64 v]) ++
  Canonical.optional (ring.upgradeInfo.activationTime.map fun t => [.u64 t]) ++ ring.reporting.fields

/-- Whether a digest is that of the state of a ring, in the current form or, without relays, in the older one. -/
def reportRingStateDigestMatches (ring : Ring) (digest : Bytes) : Outcome Error Bool := do
  let current ← canonicalBytes (ring.stateFields true)
  if digest = sha256Hex current then pure true
  else if ring.allowTrustedAuthRelays ∨ ring.trustedAuthRelayDids ≠ [] then pure false
  else do
    let legacy ← canonicalBytes (ring.stateFields false)
    pure (digest = sha256Hex legacy)

/-! ## Checks -/

/-- How long a report may be submitted, in seconds. -/
def reportTTLSeconds : UInt64 := 120

/-- How long before the time of its evidence a report is dated, in seconds. -/
def reportObservedAtGraceSecs : UInt64 := 10

def nodeOfflineReportType : Bytes := str "node_offline"

def invalidCryptoResponseReportType : Bytes := str "invalid_crypto_response"

/-- A request that a node should not have relayed. -/
def unauthorizedRequestReportType : Bytes := str "unauthorized_request"

def reportBlockUnixTime (ctx : Ctx) : Outcome Error UInt64 :=
  if ctx.unixTime < 0 then .err (invalid (str "current block time is before the Unix epoch"))
  else .ok (UInt64.ofNat ctx.unixTime.toNat)

def requireFields : List (String × Bytes) → Outcome Error Unit
  | [] => pure ()
  | (label, value) :: rest => do
    Outcome.require (value ≠ []) (invalid (str label ++ str " cannot be empty"))
    requireFields rest

section Checks

variable (Γ : Env)

/-- Check the times and the form of a report. -/
def validateReportEnvelopeShape (r : ReportEnvelope) (now : UInt64) : Outcome Error Unit := do
  Outcome.require (r.domain = str "orbis-mpc-fault-report") (invalid (str "unexpected report domain " ++ Γ.quote r.domain))
  Outcome.require (r.observedAt ≤ r.expiresAt) (invalid (str "report observed_at is after expires_at"))
  Outcome.require (r.observedAt ≤ now) (invalid (str "report observed_at is in the future"))
  Outcome.require (r.expiresAt - r.observedAt = reportTTLSeconds) (invalid (str "invalid report validity window"))
  Outcome.require (now ≤ r.expiresAt) (invalid (str "report has expired"))
  Outcome.require (r.reporterNodeKey ≠ r.accusedNodeKey) (invalid (str "reporter and accused node must differ"))
  Outcome.require (r.payload ≠ []) (invalid (str "missing report payload"))
  Outcome.require (r.sessionId ≠ []) (invalid (str "session_id cannot be empty"))
  requireFields [("report_type", r.reportType), ("chain_id", r.chainId), ("ring_id", r.ringId), ("ring_pk", r.ringPk),
    ("ring_state_sha256", r.ringStateSha256), ("reporter_node_key", r.reporterNodeKey),
    ("accused_node_key", r.accusedNodeKey), ("accused_peer_id", r.accusedPeerId)]
  Outcome.require ((Γ.hexDecodeString r.ringStateSha256).isOk = true ∧ r.ringStateSha256.length = 64)
    (invalid (str "ring_state_sha256 must be 32-byte hex"))

/-- The part of a peer identifier in front of the address. -/
def peerEndpoint (peerId : Bytes) : Bytes := Γ.toLower (peerId.takeWhile (· ≠ 0x40))

/-- Check that a statement, which `what` names, is bound to the report, and its node, in the `role` it has, to the accused. -/
def checkStatementBinding (r : ReportEnvelope) (st : InvalidCryptoResponseStatement) (what role : String) :
    Outcome Error Unit := do
  Outcome.require (st.chainID = r.chainId) (invalid (str what ++ str " chain ID does not match report envelope"))
  Outcome.require (st.ringID = r.ringId ∧ st.ringPk = r.ringPk ∧ st.ringStateSha256 = r.ringStateSha256)
    (invalid (str what ++ str " ring binding does not match report envelope"))
  Outcome.require (st.requestID = r.sessionId) (invalid (str what ++ str " request_id does not match report session_id"))
  Outcome.require (st.responderNodeKey = r.accusedNodeKey)
    (invalid (str what ++ str " " ++ str role ++ str " does not match accused node"))
  Outcome.require (reportObservedAtGraceSecs ≤ st.signedAt ∧ r.observedAt = st.signedAt - reportObservedAtGraceSecs)
    (invalid (str "report envelope is not anchored to the evidence timestamp"))

/-- Check that the statement of an invalid response is bound to the report. -/
def validateInvalidCryptoResponseStatement (r : ReportEnvelope) (st : InvalidCryptoResponseStatement) : Outcome Error Unit := do
  checkStatementBinding r st "response" "responder"
  Outcome.require (st.endpointOrigin = [] ∨ Bytes.hex st.endpointOrigin = peerEndpoint Γ r.accusedPeerId)
    (invalid (str "public contribution endpoint does not match accused peer ID"))

/-- Check that the statement of a relayed request is bound to the report. -/
def validateRelayRequestStatement (r : ReportEnvelope) (st : InvalidCryptoResponseStatement) : Outcome Error Unit :=
  checkStatementBinding r st "relay request" "relayer"

def InvalidCryptoResponseStatement.payload (st : InvalidCryptoResponseStatement) (attemptID : Bytes) : ReportPayload where
  originProtocol := st.originProtocol
  originProtocolVersion := st.protocolVersion
  accusedCommitteeScope := st.accusedCommitteeScope
  signingCommitteeScope := st.signingCommitteeScope
  attemptID := attemptID

/-- Decode the payload of a report and check that it is bound to it. -/
def decodeReportPayload (r : ReportEnvelope) : Outcome Error ReportPayload :=
  if r.reportType = nodeOfflineReportType then do
    let payload ← decodeNodeOfflinePayload.run r.payload
    Outcome.require (payload.originProtocol ∈ [protocolPRE, protocolSign, protocolPSSRefresh, protocolPSSReshare])
      (invalid (str "unsupported offline report origin protocol " ++ Γ.quote payload.originProtocol))
    pure payload
  else if r.reportType = invalidCryptoResponseReportType then do
    let statement ← decodeInvalidCryptoResponsePayload Γ r.payload
    validateInvalidCryptoResponseStatement Γ r statement
    pure (statement.payload statement.attemptID)
  else if r.reportType = unauthorizedRequestReportType then do
    let statement ← decodeUnauthorizedRequestPayload Γ r.payload
    validateRelayRequestStatement r statement
    pure (statement.payload [])
  else .err (invalid (str "unsupported report type " ++ Γ.quote r.reportType))

def reportCommitteeForScope (ring : Ring) (scope : UInt8) : Outcome Error (List Bytes × UInt32) :=
  if scope = committeeScopeCurrent then .ok (ring.peerNodeKeys, ring.threshold)
  else if scope = committeeScopePendingNew then
    if ring.resharePending then .ok (ring.targetCommittee, ring.targetThreshold)
    else .err (invalid (str "pending-new committee scope requires a pending reshare"))
  else .err (invalid (str "unknown committee scope " ++ Decimal.dec scope.toNat))

def effectiveReportProtocolVersion (ring : Ring) (now : UInt64) : UInt64 :=
  match ring.upgradeInfo.nextVersion, ring.upgradeInfo.activationTime with
  | some next, some activation => if activation ≤ now then next else ring.upgradeInfo.currentVersion
  | _, _ => ring.upgradeInfo.currentVersion

def validateReportCommitteeAuthorization (nodeInfos : KVStore Bytes NodeInfo) (r : ReportEnvelope) (payload : ReportPayload)
    (ring : Ring) : Outcome Error Unit := do
  let (accusedCommittee, _) ← reportCommitteeForScope ring payload.accusedCommitteeScope
  let (signingCommittee, threshold) ← reportCommitteeForScope ring payload.signingCommitteeScope
  Outcome.require (2 ≤ threshold) (invalid (str "offline reporting requires ring threshold >= 2"))
  Outcome.require (threshold.toNat ≤ signingCommittee.length)
    (invalid (str "offline reporting threshold exceeds signing committee size"))
  Outcome.require (r.accusedNodeKey ∉ signingCommittee ∨ threshold.toNat < signingCommittee.length)
    (invalid (str "ring threshold cannot be met while excluding the accused node"))
  Outcome.require (r.reporterNodeKey ∈ signingCommittee)
    (invalid (str "reporter node " ++ r.reporterNodeKey ++ str " is not in the signing committee"))
  Outcome.require (r.accusedNodeKey ∈ accusedCommittee)
    (invalid (str "accused node " ++ r.accusedNodeKey ++ str " is not in the accused committee"))
  match nodeInfos.get r.accusedNodeKey with
  | none => .err ⟨.nodeInfoNotFound, []⟩
  | some accusedInfo =>
    Outcome.require (accusedInfo.peerId = r.accusedPeerId) (invalid (str "accused peer ID no longer matches NodeInfo"))

/-! ## Threshold signatures -/

def badSignature (text : Bytes) : Error := ⟨.invalidThresholdSignature, text⟩

/-- The bytes of a public key in hexadecimal. -/
def decodeHexBytes (value : Bytes) : Except Bytes Bytes :=
  if Γ.trimSpace value = [] then .error (str "empty value")
  else (Γ.hexDecodeString (Γ.trimSpace value)).mapError (str "expected plain hex: " ++ ·)

/-- The public key of a scheme, with the lengths of the key and the signature checked. -/
def requireKey (scheme : String) (keySize signatureSize : Nat) (ringPK signature : Bytes) : Outcome Error Bytes := do
  let publicKey ← Outcome.ofExcept
    (fun e => badSignature (str "invalid " ++ str scheme ++ str " public key encoding: " ++ e)) (decodeHexBytes Γ ringPK)
  Outcome.require (publicKey.length = keySize)
    (badSignature (str "invalid " ++ str scheme ++ str " public key length " ++ Decimal.dec publicKey.length))
  Outcome.require (signature.length = signatureSize)
    (badSignature (str "invalid " ++ str scheme ++ str " signature length " ++ Decimal.dec signature.length))
  pure publicKey

def verifyBLS12381ThresholdSignature (ringPK message signature : Bytes) : Outcome Error Unit := do
  let publicKey ← requireKey Γ "bls12_381" 48 96 ringPK signature
  Outcome.require (Γ.blsVerify publicKey message signature = true) (badSignature [])

def verifyJubjubFROSTThresholdSignature (ringPK message signature : Bytes) : Outcome Error Unit := do
  let publicKey ← requireKey Γ "jubjub" 32 64 ringPK signature
  let isIdentity ← Outcome.ofExcept (fun e => badSignature (str "invalid jubjub public key: " ++ e)) (Γ.jubjubIsIdentity publicKey)
  Outcome.require (isIdentity = false) (badSignature (str "jubjub public key is the identity"))
  let ok ← Outcome.ofExcept (fun e => badSignature (str "invalid jubjub signature: " ++ e))
    (Γ.jubjubVerify publicKey message signature)
  Outcome.require (ok = true) (badSignature [])

def verifyThresholdSignature (scheme ringPK message signature : Bytes) : Outcome Error Unit :=
  let normalized := Γ.toLower (Γ.trimSpace scheme)
  if normalized = str "bls12_381_g1_pk_g2_sig_aug_v1" then verifyBLS12381ThresholdSignature Γ ringPK message signature
  else if normalized = str "jubjub_frost" then verifyJubjubFROSTThresholdSignature Γ ringPK message signature
  else .err (badSignature (str "unsupported threshold signature scheme " ++ Γ.quote scheme))

end Checks

/-! ## The record of accepted reports -/

variable {Γ : Env}

/-- The key under which the expiry of an accepted report is kept. -/
def acceptedExpiryKey (expiresAt : UInt64) (id : Bytes) : Bytes := Bytes.bigEndian 8 expiresAt.toNat ++ id

/-- The state with an accepted report on record, its session and when the two are dropped. -/
def State.addPair (s : State Γ) (reportID sessionID : Bytes) (expiresAt : UInt64) : State Γ := { s with
  acceptedReports := s.acceptedReports.set reportID ()
  acceptedSessions := s.acceptedSessions.set sessionID ()
  acceptedExpiry := s.acceptedExpiry.set (acceptedExpiryKey expiresAt reportID) sessionID }

def setAcceptedReportPair (reportID sessionID : Bytes) (expiresAt : UInt64) : M Γ Unit :=
  Eff.modify fun s => s.addPair reportID sessionID expiresAt

def State.hasAcceptedReport (s : State Γ) (reportID : Bytes) : Bool := (s.acceptedReports.get reportID).isSome

/-- Whether a report of the session was accepted. -/
def State.hasAcceptedReportSession (s : State Γ) (sessionID : Bytes) : Bool := (s.acceptedSessions.get sessionID).isSome

def expiryOf (key : Bytes) : Nat := Bytes.ofBigEndian (key.take 8)

/-- The expired entries, up to the first one that is not; keys that are too short are passed over. -/
def expiredPairs (now : UInt64) : List (Bytes × Bytes) → List (Bytes × Bytes)
  | [] => []
  | entry :: rest =>
    if entry.1.length < 8 then expiredPairs now rest
    else if now.toNat < expiryOf entry.1 then []
    else entry :: expiredPairs now rest

def State.deletePair (s : State Γ) (entry : Bytes × Bytes) : State Γ := { s with
  acceptedExpiry := s.acceptedExpiry.delete entry.1
  acceptedReports := s.acceptedReports.delete (entry.1.drop 8)
  acceptedSessions := s.acceptedSessions.delete entry.2 }

def deleteExpiredAcceptedReportPairs (now : UInt64) : M Γ Unit :=
  Eff.modify fun s => (expiredPairs now s.acceptedExpiry.entries).foldl State.deletePair s

/-- The end of a block; the time is converted without a check. -/
def endBlock (ctx : Ctx) : M Γ Unit :=
  deleteExpiredAcceptedReportPairs (UInt64.ofInt ctx.unixTime)

/-! ## Demerits -/

def nodeDemeritStoreKey (ringID nodeKey : Bytes) : Bytes := Bytes.bigEndian 4 ringID.length ++ ringID ++ nodeKey

/-- Whether the window of the demerits is over. -/
def nodeDemeritWindowExpired (windowStartedAt now resetIntervalSeconds : UInt64) : Bool :=
  windowStartedAt ≤ now && resetIntervalSeconds ≤ now - windowStartedAt

/-- The demerits with more added, in a new window if there is none or it is over. -/
def NodeDemeritState.increment (current : Option NodeDemeritState) (amount now resetIntervalSeconds : UInt64) :
    NodeDemeritState :=
  match current with
  | none => ⟨amount, now⟩
  | some state =>
    if nodeDemeritWindowExpired state.windowStartedAt now resetIntervalSeconds then ⟨amount, now⟩
    else { state with points := state.points + amount }

def incrementNodeDemerits (ringID nodeKey : Bytes) (amount now resetIntervalSeconds : UInt64) : M Γ UInt64 := do
  let s ← Eff.read
  let key := nodeDemeritStoreKey ringID nodeKey
  let state := NodeDemeritState.increment (s.demerits.get key) amount now resetIntervalSeconds
  Eff.modify fun s => { s with demerits := s.demerits.set key state }
  pure state.points

def demeritAmountForReportType (Γ : Env) (ring : Ring) (reportType : Bytes) : Outcome Error UInt64 :=
  if reportType = nodeOfflineReportType then .ok ring.reporting.demeritConfig.nodeOfflineDemerits
  else if reportType = invalidCryptoResponseReportType then .ok ring.reporting.demeritConfig.invalidCryptoResponseDemerits
  else if reportType = unauthorizedRequestReportType then .ok ring.reporting.demeritConfig.unauthorizedRequestDemerits
  else .err (invalid (str "unsupported report type " ++ Γ.quote reportType))

/-! ## Submission -/

/-- A report with its identifier and the signature of the ring. -/
structure MsgSubmitReport where
  report : ReportEnvelope
  reportId : Bytes
  signatureScheme : Bytes
  signature : Bytes
  deriving Repr, DecidableEq

/-- What a submission goes on with once the report is checked. -/
structure ValidatedSubmittedReport where
  reportID : Bytes
  sessionDedupeID : Bytes
  ring : Ring
  blockUnixTime : UInt64
  deriving Repr, DecidableEq

def validateReportRing (s : State Γ) (r : ReportEnvelope) (payload : ReportPayload) : Outcome Error Ring :=
  match s.rings.get r.ringId with
  | none => .err ⟨.ringNotFound, []⟩
  | some ring => do
    Outcome.ofExcept id (requireRingFinalized ring)
    Outcome.require (r.ringPk = ring.ringPk) (invalid (str "report ring public key is stale"))
    let ringStateMatches ← reportRingStateDigestMatches ring r.ringStateSha256
    Outcome.require (ringStateMatches = true) (invalid (str "report ring-state digest is stale"))
    Outcome.require (payload.originProtocolVersion = effectiveReportProtocolVersion ring r.observedAt)
      (invalid (str "report origin protocol version " ++ Decimal.dec payload.originProtocolVersion.toNat ++
        str " is not effective for ring " ++ r.ringId))
    validateReportCommitteeAuthorization s.nodeInfos r payload ring
    pure ring

def validateSubmittedReport (ctx : Ctx) (msg : MsgSubmitReport) (s : State Γ) : Outcome Error ValidatedSubmittedReport := do
  let r := msg.report
  let now ← reportBlockUnixTime ctx
  validateReportEnvelopeShape Γ r now
  Outcome.require (r.chainId = ctx.chainID) (invalid (str "report chain ID does not match current chain"))
  let message ← reportEnvelopeCanonicalBytes r
  Outcome.require (msg.reportId = sha256Hex message) (invalid (str "report_id does not match canonical report bytes"))
  Outcome.require (s.hasAcceptedReport (sha256Hex message) = false) ⟨.reportAlreadyAccepted, []⟩
  let payload ← decodeReportPayload Γ r
  let ring ← validateReportRing s r payload
  let sessionDedupeID ← reportSessionDedupeID r payload
  Outcome.require (s.hasAcceptedReportSession sessionDedupeID = false) ⟨.reportAlreadyAccepted, []⟩
  verifyThresholdSignature Γ msg.signatureScheme ring.ringPk message msg.signature
  pure ⟨sha256Hex message, sessionDedupeID, ring, now⟩

/-- Accept a report: record it, add the demerits and schedule a reshare if there are too many. -/
def submitReport (ctx : Ctx) (msg : MsgSubmitReport) : M Γ Bytes := do
  let v ← Eff.query (validateSubmittedReport ctx msg)
  let r := msg.report
  let demeritAmount ← Eff.lift (demeritAmountForReportType Γ v.ring r.reportType)
  setAcceptedReportPair v.reportID v.sessionDedupeID (v.blockUnixTime + reportTTLSeconds)
  let effectiveDemerits ← incrementNodeDemerits r.ringId r.accusedNodeKey demeritAmount v.blockUnixTime
    v.ring.reporting.demeritConfig.resetIntervalSeconds
  maybeScheduleAutoReshareForReport v.ring r.accusedNodeKey effectiveDemerits
  emit (.reportAccepted v.reportID r.ringId r.reportType r.reporterNodeKey r.accusedNodeKey)
  pure v.reportID

end Vera.Orbis
