import Vera.Lib.Run
import Vera.Orbis.NodeMessages

/-!
# The module in its blocks

The messages of `x/orbis` on rings, nodes and reports as a transaction carries them: each is checked by itself first
(`ValidateBasic` of `x/orbis/types`), and what fails leaves no trace. A ledger goes on by such messages, by the ends of blocks
and by whatever else happens around: messages of other modules, and those of `x/orbis` that store documents, key derivations
or parameters or drain the account of a node, touch neither rings nor nodes.
-/

namespace Vera.Orbis

open Bytes (str)

/-! ## Messages -/

/-- The messages on rings, nodes and reports. -/
inductive Message where
  | createRing (msg : MsgCreateRing)
  | finalizeRing (msg : MsgFinalizeRing)
  | cancelPendingRing (msg : MsgCancelPendingRing)
  | startRingReshareByAcp (msg : MsgStartRingReshareByAcp)
  | cancelRingReshareByAcp (msg : MsgCancelRingReshareByAcp)
  | finalizeRingReshareByThresholdSignature (msg : MsgFinalizeRingReshareByThresholdSignature)
  | setRingPssIntervalByAcp (msg : MsgSetRingPssIntervalByAcp)
  | scheduleRingUpgradeByAcp (msg : MsgScheduleRingUpgradeByAcp)
  | cancelRingUpgradeByAcp (msg : MsgCancelRingUpgradeByAcp)
  | setRingReportingByAcp (msg : MsgSetRingReportingByAcp)
  | addRingTrustedAuthRelayByAcp (msg : MsgRingTrustedAuthRelayByAcp)
  | removeRingTrustedAuthRelayByAcp (msg : MsgRingTrustedAuthRelayByAcp)
  | submitReport (creator : Bytes) (msg : MsgSubmitReport)
  | createNodeInfo (msg : MsgCreateNodeInfo)
  | updateNodePeerId (msg : MsgUpdateNodePeerId)
  | transferNodeController (msg : MsgTransferNodeController)
  | addNodeToWhitelist (msg : MsgNodeWhitelist)
  | removeNodeFromWhitelist (msg : MsgNodeWhitelist)
  deriving Repr, DecidableEq

/-! ## Checks of a message by itself -/

section Checks

variable (Γ : RingEnv)

/-- Check the address of whoever sends a message. -/
def validateCreator (creator : Bytes) : Except Error Unit :=
  match Γ.accAddressFromBech32 creator with
  | .error e => .error ⟨.invalidAddress, str "invalid creator address (" ++ e ++ str ")"⟩
  | .ok _ => pure ()

/-- Check the sender of a message on a ring, and that it names one. -/
def validateOnRing (creator ringId : Bytes) : Except Error Unit := do
  validateCreator Γ creator
  check (ringId ≠ []) ⟨.invalidRingId, []⟩

/-- Check the sender of a message on a node, and that it names one. -/
def validateOnNode (creator nodeKey : Bytes) : Except Error Unit := do
  validateCreator Γ creator
  check (nodeKey ≠ []) ⟨.invalidNodeInfo, str "missing node_key"⟩

/-- `ValidateReportingConfig` of `x/orbis/types`: the numbers of a reporting configuration. -/
def validateReportingNumbers (config : ReportingConfig) : Except Error Unit := do
  validateDemeritConfig config.demeritConfig
  atLeastOne "kick_threshold" config.kickThreshold

def MsgCreateRing.validateBasic (msg : MsgCreateRing) : Except Error Unit := do
  validateCreator Γ msg.creator
  check (msg.peerNodeKeys ≠ []) ⟨.invalidRing, str "missing peer_node_keys"⟩
  check (msg.threshold ≠ 0 ∧ msg.threshold.toNat ≤ msg.peerNodeKeys.length) ⟨.invalidRing,
    str "threshold " ++ Decimal.dec msg.threshold.toNat ++ str " is invalid for committee size " ++
      Decimal.dec msg.peerNodeKeys.length⟩
  check (msg.policyId ≠ []) ⟨.invalidRing, str "missing policy_id"⟩
  validatePSSInterval msg.pssInterval
  match msg.reporting with
  | none => pure ()
  | some reporting => validateReportingNumbers reporting
  validateTrustedAuthRelayConfig Γ.toEnv msg.allowTrustedAuthRelays msg.trustedAuthRelayDids

def MsgFinalizeRing.validateBasic (msg : MsgFinalizeRing) : Except Error Unit := do
  validateOnRing Γ msg.creator msg.ringId
  check (msg.ringPk ≠ []) ⟨.invalidRing, str "missing ring_pk"⟩

def MsgStartRingReshareByAcp.validateBasic (msg : MsgStartRingReshareByAcp) : Except Error Unit := do
  validateOnRing Γ msg.creator msg.ringId
  check (msg.newPeerNodeKeys ≠ [] ∨ msg.newThreshold ≠ none)
    ⟨.invalidRing, str "reshare must change the committee or threshold"⟩
  check (msg.newThreshold ≠ some 0) ⟨.invalidRing, str "new_threshold must be at least 1"⟩

def validateSigned (scheme signature : Bytes) : Except Error Unit := do
  check (scheme ≠ []) ⟨.invalidSignatureScheme, []⟩
  check (signature ≠ []) ⟨.invalidSignaturePayload, []⟩

def MsgScheduleRingUpgradeByAcp.validateBasic (msg : MsgScheduleRingUpgradeByAcp) : Except Error Unit := do
  validateOnRing Γ msg.creator msg.ringId
  check (msg.nextVersion ≠ 0) ⟨.invalidRing, str "next_version must be positive"⟩
  check (msg.activationTime ≠ 0) ⟨.invalidRing, str "activation_time must be positive"⟩

def MsgRingTrustedAuthRelayByAcp.validateBasic (msg : MsgRingTrustedAuthRelayByAcp) : Except Error Unit := do
  validateOnRing Γ msg.creator msg.ringId
  validateRelaysFrom Γ.toEnv [] [msg.relayDid]

def MsgSubmitReport.validateBasic (creator : Bytes) (msg : MsgSubmitReport) : Except Error Unit := do
  validateCreator Γ creator
  check (msg.reportId ≠ []) ⟨.invalidReport, []⟩
  validateSigned msg.signatureScheme msg.signature
  check (msg.report.domain ≠ []) ⟨.invalidReport, str "missing report domain"⟩
  check (msg.report.reportType ≠ []) ⟨.invalidReport, str "missing report type"⟩
  check (msg.report.ringId ≠ []) ⟨.invalidRingId, []⟩

def requireNodeField (field : String) (value : Bytes) : Except Error Unit :=
  check (value ≠ []) ⟨.invalidNodeInfo, str "missing " ++ str field⟩

def MsgNodeWhitelist.validateBasic (msg : MsgNodeWhitelist) : Except Error Unit := do
  validateOnNode Γ msg.creator msg.nodeKey
  match msg.target with
  | none => .error ⟨.invalidNodeInfo, str "missing whitelist target"⟩
  | some (.policyId policyId) => requireNodeField "policy_id" policyId
  | some (.ringId ringId) => requireNodeField "ring_id" ringId

def Message.validateBasic : Message → Except Error Unit
  | .createRing msg => msg.validateBasic Γ
  | .finalizeRing msg => msg.validateBasic Γ
  | .cancelPendingRing msg => validateOnRing Γ msg.creator msg.ringId
  | .startRingReshareByAcp msg => msg.validateBasic Γ
  | .cancelRingReshareByAcp msg => validateOnRing Γ msg.creator msg.ringId
  | .finalizeRingReshareByThresholdSignature msg => do
    validateOnRing Γ msg.creator msg.ringId
    validateSigned msg.signatureScheme msg.signature
  | .setRingPssIntervalByAcp msg => do
    validateOnRing Γ msg.creator msg.ringId
    validatePSSInterval msg.pssInterval
  | .scheduleRingUpgradeByAcp msg => msg.validateBasic Γ
  | .cancelRingUpgradeByAcp msg => validateOnRing Γ msg.creator msg.ringId
  | .setRingReportingByAcp msg => do
    validateOnRing Γ msg.creator msg.ringId
    validateReportingNumbers msg.reporting
  | .addRingTrustedAuthRelayByAcp msg => msg.validateBasic Γ
  | .removeRingTrustedAuthRelayByAcp msg => msg.validateBasic Γ
  | .submitReport creator msg => msg.validateBasic Γ creator
  | .createNodeInfo msg => do
    validateCreator Γ msg.creator
    requireNodeField "peer_id" msg.peerId
    requireNodeField "controller_key" msg.controllerKey
  | .updateNodePeerId msg => do
    validateOnNode Γ msg.creator msg.nodeKey
    requireNodeField "peer_id" msg.peerId
  | .transferNodeController msg => do
    validateOnNode Γ msg.creator msg.nodeKey
    requireNodeField "controller_key" msg.controllerKey
  | .addNodeToWhitelist msg => msg.validateBasic Γ
  | .removeNodeFromWhitelist msg => msg.validateBasic Γ

end Checks

/-! ## Delivery -/

variable {Γ : RingEnv}

/-- Carry a message out; what it answers is of no further use. -/
def Message.handle (ctx : Ctx) : Message → M Γ.toEnv Unit
  | .createRing msg => Orbis.createRing msg >>= fun _ => pure ()
  | .finalizeRing msg => Orbis.finalizeRing msg >>= fun _ => pure ()
  | .cancelPendingRing msg => Orbis.cancelPendingRing msg
  | .startRingReshareByAcp msg => Orbis.startRingReshareByAcp ctx msg
  | .cancelRingReshareByAcp msg => Orbis.cancelRingReshareByAcp msg
  | .finalizeRingReshareByThresholdSignature msg => Orbis.finalizeRingReshareByThresholdSignature ctx msg
  | .setRingPssIntervalByAcp msg => Orbis.setRingPssIntervalByAcp ctx msg
  | .scheduleRingUpgradeByAcp msg => Orbis.scheduleRingUpgradeByAcp ctx msg
  | .cancelRingUpgradeByAcp msg => Orbis.cancelRingUpgradeByAcp ctx msg
  | .setRingReportingByAcp msg => Orbis.setRingReportingByAcp ctx msg
  | .addRingTrustedAuthRelayByAcp msg => Orbis.addRingTrustedAuthRelayByAcp msg
  | .removeRingTrustedAuthRelayByAcp msg => Orbis.removeRingTrustedAuthRelayByAcp msg
  | .submitReport _ msg => Orbis.submitReport ctx msg >>= fun _ => pure ()
  | .createNodeInfo msg => Orbis.createNodeInfo msg
  | .updateNodePeerId msg => Orbis.updateNodePeerId msg
  | .transferNodeController msg => Orbis.transferNodeController msg
  | .addNodeToWhitelist msg => Orbis.addNodeToWhitelist msg
  | .removeNodeFromWhitelist msg => Orbis.removeNodeFromWhitelist msg

/-- Deliver a message: check it by itself, then carry it out. -/
def Message.deliver (ctx : Ctx) (msg : Message) : M Γ.toEnv Unit := do
  pass (msg.validateBasic Γ)
  msg.handle ctx

/-! ## Runs -/

/-- The state of the module and the block it is in. -/
structure Ledger (Γ : RingEnv) where
  state : State Γ.toEnv
  ctx : Ctx

/-- What happens to a ledger. -/
inductive Turn (Γ : RingEnv) where
  | message (msg : Message)
  | endBlock
  | newBlock (ctx : Ctx)
  /-- What leaves rings, nodes and reports alone. -/
  | other (env : Γ.σ)

def Ledger.step (ledger : Ledger Γ) : Turn Γ → Ledger Γ
  | .message msg => { ledger with state := (msg.deliver ledger.ctx).commit ledger.state }
  | .endBlock => { ledger with state := (Orbis.endBlock ledger.ctx).commit ledger.state }
  | .newBlock ctx => { ledger with ctx := ctx }
  | .other env => { ledger with state := { ledger.state with env := env } }

end Vera.Orbis
