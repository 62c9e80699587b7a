import Vera.Orbis.Reshare

/-!
# The messages on a ring

How a ring is created, agrees on its keys or is given up, and what else of it changes than its committee: `CreateRing`,
`FinalizeRing`, `CancelPendingRing` and the messages on the refresh interval, the upgrade, the reporting and the relays
(`x/orbis/keeper/msg_server.go`, with `acp.go`, `node_info.go`, `ring_upgrade.go` and `threshold_signature.go`, and `keys.go`,
`pss.go` and `params.go` of `x/orbis/types`).
-/

namespace Vera.Orbis

open Bytes (str)

/-! ## Environment -/

/-- How a ring deals with reports unless its creator says otherwise. -/
structure ReportingDefaults where
  demeritConfig : DemeritConfig
  kickThreshold : UInt64
  deriving Repr, DecidableEq

/-- What the messages on rings and nodes call besides: addresses and accounts, the points of BLS12-381, the policies under
which rings are created, and the parameters of the module. -/
structure RingEnv extends Env where
  /-- `sdk.AccAddressFromBech32`. -/
  accAddressFromBech32 : Bytes → Except Bytes Bytes
  /-- `accountKeeper.GetAccount`, with the bytes of the public key of the account if that is set. -/
  getAccount : σ → Bytes → Option (Option Bytes)
  /-- `P1Affine.Uncompress`, and `KeyValidate` if the bytes are a point. -/
  blsKeyValidate : Bytes → Option Bool
  /-- Whether a policy lets an actor create rings. -/
  verifyRingCreate : σ → (policyId actor : Bytes) → Except Bytes Bool
  /-- `acpKeeper.DirectPolicyCmd` with the command that registers a ring. -/
  registerRing : σ → (creator policyId ringId : Bytes) → Except Bytes σ
  /-- The defaults of reporting in `GetParams`. -/
  defaultReporting : σ → ReportingDefaults

/-! ## Messages -/

structure MsgCreateRing where
  creator : Bytes
  peerNodeKeys : List Bytes
  threshold : UInt32
  pssInterval : UInt64
  policyId : Bytes
  nonce : Option Bytes
  currentVersion : UInt64
  reporting : Option ReportingConfig
  allowTrustedAuthRelays : Bool
  trustedAuthRelayDids : List Bytes
  requiresPet : Bool
  deriving Repr, DecidableEq

/-- Confirm the keys of a ring, as a node of its committee. -/
structure MsgFinalizeRing where
  creator : Bytes
  ringId : Bytes
  ringPk : Bytes
  petPk : Option Bytes
  deriving Repr, DecidableEq

/-- Give up a ring that has no key. -/
structure MsgCancelPendingRing where
  creator : Bytes
  ringId : Bytes
  deriving Repr, DecidableEq

/-- Change how often the shares of a ring are refreshed. -/
structure MsgSetRingPssIntervalByAcp where
  creator : Bytes
  ringId : Bytes
  pssInterval : UInt64
  deriving Repr, DecidableEq

/-- Schedule an upgrade of the protocol. -/
structure MsgScheduleRingUpgradeByAcp where
  creator : Bytes
  ringId : Bytes
  nextVersion : UInt64
  activationTime : UInt64
  deriving Repr, DecidableEq

/-- Cancel the scheduled upgrade. -/
structure MsgCancelRingUpgradeByAcp where
  creator : Bytes
  ringId : Bytes
  deriving Repr, DecidableEq

/-- Change how a ring deals with reports. -/
structure MsgSetRingReportingByAcp where
  creator : Bytes
  ringId : Bytes
  reporting : ReportingConfig
  deriving Repr, DecidableEq

/-- Add a relay to a ring (`MsgAddRingTrustedAuthRelayByAcp`), or remove one (`MsgRemoveRingTrustedAuthRelayByAcp`). -/
structure MsgRingTrustedAuthRelayByAcp where
  creator : Bytes
  ringId : Bytes
  relayDid : Bytes
  deriving Repr, DecidableEq

/-- What became of a confirmation. -/
inductive FinalizeRingOutcome where
  | confirmationRecorded
  | ringFinalized
  | conflictDeleted
  deriving Repr, DecidableEq

/-! ## Checks -/

def boolByte (value : Bool) : UInt8 := if value then 1 else 0

/-- The identifier of a ring: the digest of what it is created with, in whatever order its nodes and relays are named. -/
def generateRingID (peerNodeKeys : List Bytes) (threshold : UInt32) (pssInterval : UInt64) (policyID : Bytes)
    (nonce : Option Bytes) (currentVersion : UInt64) (allowTrustedAuthRelays : Bool) (trustedAuthRelayDIDs : List Bytes)
    (requiresPet : Bool) : Bytes :=
  sha256Hex (Canonical.encode (.bytes (str "orbis/ring") :: Canonical.strings (canonicalStrings peerNodeKeys) ++
    [.u32 threshold, .u64 pssInterval, .bytes policyID] ++ Canonical.optional (nonce.map fun value => [.bytes value]) ++
    [.u64 currentVersion, .byte (boolByte allowTrustedAuthRelays)] ++
    Canonical.strings (canonicalStrings trustedAuthRelayDIDs) ++ [.byte (boolByte requiresPet)]))

/-- The smallest interval at which shares are refreshed. -/
def minPSSIntervalSeconds : UInt64 := 86400

/-- Check the interval at which shares are refreshed. -/
def validatePSSInterval (pssInterval : UInt64) : Except Error Unit :=
  check (minPSSIntervalSeconds ≤ pssInterval) ⟨.invalidRing, str "pss_interval must be at least 86400 seconds"⟩

/-- The reporting of a ring that is created without any. -/
def reportingConfigFromDefaults (defaults : ReportingDefaults) : ReportingConfig :=
  ⟨defaults.demeritConfig, [], defaults.kickThreshold⟩

/-- How long before its activation an upgrade is scheduled. -/
def minRingUpgradeLeadSeconds : UInt64 := 600

def validateRingUpgradeSchedule (nextVersion activationTime currentTime : UInt64) (existing : Ring) : Except Error Unit := do
  check (existing.upgradeInfo.currentVersion < nextVersion) ⟨.invalidRing,
    str "next_version (" ++ Decimal.dec nextVersion.toNat ++ str ") must be greater than current_version (" ++
      Decimal.dec existing.upgradeInfo.currentVersion.toNat ++ str ")"⟩
  check (currentTime ≤ (UInt64.ofNat (2 ^ 64 - 1)) - minRingUpgradeLeadSeconds)
    ⟨.invalidRing, str "current block time is too large to schedule an upgrade"⟩
  check (currentTime + minRingUpgradeLeadSeconds ≤ activationTime) ⟨.invalidRing,
    str "activation_time (" ++ Decimal.dec activationTime.toNat ++ str ") must be at least " ++
      Decimal.dec (currentTime + minRingUpgradeLeadSeconds).toNat⟩

section Checks

variable (Γ : RingEnv)

/-- Refuse the public keys under which everything is signed. What is no key at all is left to those who use it. -/
def rejectIdentityRingPublicKey (ringPK : Bytes) : Except Error Unit :=
  match decodeHexBytes Γ.toEnv ringPK with
  | .error _ => pure ()
  | .ok publicKey =>
    if publicKey.length = 32 then
      match Γ.jubjubIsIdentity publicKey with
      | .ok true => .error ⟨.invalidRing, str "jubjub ring public key is the identity"⟩
      | _ => pure ()
    else if publicKey.length = 48 then
      match Γ.blsKeyValidate publicKey with
      | some false => .error ⟨.invalidRing,
          str "bls12_381 ring public key is the identity or outside the prime-order subgroup"⟩
      | _ => pure ()
    else pure ()

/-- Check the second key of a confirmation: it is there exactly when the ring requires it. -/
def validateFinalizePetPk (ring : Ring) (petPk : Option Bytes) : Except Error Unit := do
  check (ring.requiresPet = true → petPk.isSome = true)
    ⟨.invalidRing, str "pet_pk is required to finalize a ring that requires PET"⟩
  check (petPk.isSome = true → ring.requiresPet = true)
    ⟨.invalidRing, str "pet_pk is not accepted for a ring that does not require PET"⟩
  match petPk with
  | none => pure ()
  | some pk => rejectIdentityRingPublicKey Γ pk

/-- Check that the nodes of a list are known. -/
def requireNodeInfos (field : String) (nodeInfos : KVStore Bytes NodeInfo) : List Bytes → Except Error Unit
  | [] => pure ()
  | nodeKey :: rest => do
    check ((nodeInfos.get nodeKey).isSome = true)
      ⟨.invalidRing, str field ++ str " " ++ Γ.quote nodeKey ++ str " has no registered node info"⟩
    requireNodeInfos field nodeInfos rest

/-- Check that the backup nodes are known and take part in the ring. -/
def requireReportingBackupNodeWhitelist (nodeInfos : KVStore Bytes NodeInfo) (ring : Ring) : List Bytes → Except Error Unit
  | [] => pure ()
  | nodeKey :: rest => do
    match nodeInfos.get nodeKey with
    | none => .error ⟨.invalidRing, str "backup_node_key " ++ Γ.quote nodeKey ++ str " has no registered node info"⟩
    | some nodeInfo => check (nodeInfoAllowsRing nodeInfo ring = true) ⟨.invalidRing,
        str "backup_node_key " ++ Γ.quote nodeKey ++ str " is not whitelisted for policy_id " ++ Γ.quote ring.policyId ++
          str " or ring_id " ++ Γ.quote ring.id⟩
    requireReportingBackupNodeWhitelist nodeInfos ring rest

end Checks

/-! ## Calls -/

variable {Γ : RingEnv}

def deleteRing (ringID : Bytes) : M Γ.toEnv Unit := Eff.modify fun s => { s with rings := s.rings.delete ringID }

/-- The public key of the account that signs a message, in hexadecimal. -/
def signerPublicKeyHex (Γ : RingEnv) (env : Γ.σ) (address : Bytes) : Except Error Bytes :=
  match Γ.accAddressFromBech32 address with
  | .error e => .error ⟨.invalidNodeInfo, str "invalid signer address: " ++ e⟩
  | .ok addr =>
    match Γ.getAccount env addr with
    | none => .error ⟨.invalidNodeInfo, str "account not found for address " ++ address⟩
    | some none => .error ⟨.invalidNodeInfo, str "public key not set for account " ++ address⟩
    | some (some pubKey) => .ok (Bytes.hex pubKey)

def signerKey (address : Bytes) : M Γ.toEnv Bytes := Eff.query fun s => Outcome.ofExcept id (signerPublicKeyHex Γ s.env address)

/-- Check that an actor may create rings under a policy. -/
def ensureRingCreatePermission (policyID creatorDID : Bytes) : M Γ.toEnv Unit :=
  Eff.query fun s => do
    Outcome.require (policyID ≠ []) ⟨.invalidRing, str "missing policy_id"⟩
    let valid ← Outcome.ofExcept (fun e => ⟨.other, e⟩) (Γ.verifyRingCreate s.env policyID creatorDID)
    Outcome.require (valid = true) ⟨.unauthorizedRingCreate,
      str "actor " ++ creatorDID ++ str " cannot create rings under policy " ++ policyID⟩

def registerRingACPObject (creator policyID ringID : Bytes) : M Γ.toEnv Unit := do
  let env ← Eff.query fun s => Outcome.ofExcept (fun e => ⟨.other, e⟩) (Γ.registerRing s.env creator policyID ringID)
  Eff.modify fun s => { s with env := env }

/-- The identifier of the ring that a message creates. -/
def MsgCreateRing.ringID (msg : MsgCreateRing) : Bytes :=
  generateRingID (canonicalStrings msg.peerNodeKeys) msg.threshold msg.pssInterval msg.policyId msg.nonce msg.currentVersion
    msg.allowTrustedAuthRelays (canonicalStrings msg.trustedAuthRelayDids) msg.requiresPet

def MsgCreateRing.ring (msg : MsgCreateRing) (creatorDID : Bytes) (defaults : ReportingDefaults) : Ring where
  id := msg.ringID
  ringPk := []
  peerNodeKeys := canonicalStrings msg.peerNodeKeys
  threshold := msg.threshold
  newPeerNodeKeys := []
  newThreshold := none
  pssInterval := msg.pssInterval
  blockNumberNonce := 0
  policyId := msg.policyId
  upgradeInfo := ⟨msg.currentVersion, none, none⟩
  reporting := msg.reporting.getD (reportingConfigFromDefaults defaults)
  trustedAuthRelayDids := canonicalStrings msg.trustedAuthRelayDids
  allowTrustedAuthRelays := msg.allowTrustedAuthRelays
  creatorDid := creatorDID
  confirmations := []
  requiresPet := msg.requiresPet
  petPk := none

/-- Create a ring of known nodes. It has no key until its nodes have confirmed one. -/
def createRing (msg : MsgCreateRing) : M Γ.toEnv Bytes := do
  let creatorDID ← actorDID msg.creator
  let s ← Eff.read
  pass (requireNodeInfos Γ "peer_node_key" s.nodeInfos (canonicalStrings msg.peerNodeKeys))
  pass (check ((s.rings.get msg.ringID).isNone = true) ⟨.ringAlreadyExists, []⟩)
  let ring := msg.ring creatorDID (Γ.defaultReporting s.env)
  pass (validatePSSInterval ring.pssInterval)
  pass (validateRing Γ.toEnv ring)
  pass (requireNodeInfos Γ "backup_node_key" s.nodeInfos ring.reporting.backupNodeKeys)
  ensureRingCreatePermission msg.policyId creatorDID
  registerRingACPObject msg.creator msg.policyId msg.ringID
  setRing ring
  emit (.ringCreated msg.ringID creatorDID)
  pure msg.ringID

/-- Whether a confirmation names other keys than an earlier one. -/
def Ring.conflicts (ring : Ring) (new earlier : RingConfirmation) : Bool :=
  earlier.ringPk ≠ new.ringPk || (ring.requiresPet && earlier.petPk.getD [] ≠ new.petPk.getD [])

def Ring.withConfirmation (ring : Ring) (confirmation : RingConfirmation) : Ring :=
  { ring with confirmations := ring.confirmations ++ [confirmation] }

/-- The ring with the keys that all its nodes have confirmed. -/
def Ring.withKeys (ring : Ring) (ringPk : Bytes) (petPk : Option Bytes) : Ring :=
  { ring with ringPk := ringPk, petPk := petPk, confirmations := [] }

/-- Confirm the keys of a ring. A second confirmation of a node is refused, before the keys are compared; a confirmation that
disagrees with another node's deletes the ring; the last one gives the ring its keys. -/
def finalizeRing (msg : MsgFinalizeRing) : M Γ.toEnv FinalizeRingOutcome := do
  let ring ← requireRing msg.ringId
  pass (check (ring.ringPk = []) ⟨.ringAlreadyFinalized, []⟩)
  pass (rejectIdentityRingPublicKey Γ msg.ringPk)
  pass (validateFinalizePetPk Γ ring msg.petPk)
  let nodeKey ← signerKey msg.creator
  pass (check (nodeKey ∈ ring.peerNodeKeys) ⟨.invalidRingFinalizer, []⟩)
  pass (check (∀ c ∈ ring.confirmations, c.nodeKey ≠ nodeKey) ⟨.duplicateConfirmation, []⟩)
  let confirmation : RingConfirmation := ⟨nodeKey, msg.ringPk, msg.petPk⟩
  if ring.confirmations.any (ring.conflicts confirmation) then do
    deleteRing ring.id
    emit (.ringDeleted ring.id (str "ring_pk_conflict"))
    pure .conflictDeleted
  else if (ring.withConfirmation confirmation).confirmations.length < ring.peerNodeKeys.length then do
    setRing (ring.withConfirmation confirmation)
    pure .confirmationRecorded
  else do
    let finalizerDID ← actorDID msg.creator
    pass (validateRing Γ.toEnv (ring.withKeys msg.ringPk msg.petPk))
    setRing (ring.withKeys msg.ringPk msg.petPk)
    emit (.ringUpdated ring.id finalizerDID)
    pure .ringFinalized

/-- Whether an account may give up a ring: that of one of its nodes, or one of the actor who created it. -/
def mayCancel (ring : Ring) (creator : Bytes) : M Γ.toEnv Bool := do
  let nodeKey ← signerKey creator
  if nodeKey ∈ ring.peerNodeKeys then pure true
  else do
    let cancellerDID ← actorDID creator
    pure (cancellerDID = ring.creatorDid)

def cancelPendingRing (msg : MsgCancelPendingRing) : M Γ.toEnv Unit := do
  let ring ← requireRing msg.ringId
  pass (check (ring.ringPk = []) ⟨.ringAlreadyFinalized, []⟩)
  let authorized ← mayCancel ring msg.creator
  pass (check (authorized = true) ⟨.invalidRingCanceller, []⟩)
  deleteRing ring.id
  emit (.ringDeleted ring.id (str "dkg_cancelled"))

/-- Change a ring that has its key, as an actor whom its policy allows. -/
def updateFinalizedRing (creator ringId : Bytes) (change : State Γ.toEnv → Ring → Except Error (Ring × List Event)) :
    M Γ.toEnv Unit := do
  let stored ← requireRing ringId
  pass (requireRingFinalized stored)
  let updaterDID ← actorDID creator
  ensureRingUpdatePermission stored updaterDID
  let s ← Eff.read
  let (ring, events) ← pass (change s stored)
  setRing ring
  emit (.ringUpdated ring.id updaterDID)
  Eff.forEach events emit

/-- Change how often the shares of a ring are refreshed. -/
def setRingPssIntervalByAcp (ctx : Ctx) (msg : MsgSetRingPssIntervalByAcp) : M Γ.toEnv Unit :=
  updateFinalizedRing msg.creator msg.ringId fun _ stored => do
    let (ring, normalized) ← maybeNormalizeMaturedRingUpgrade stored ctx
    validatePSSInterval msg.pssInterval
    check (ring.pssInterval ≠ msg.pssInterval) ⟨.ringPssIntervalUnchanged, []⟩
    validateRing Γ.toEnv { ring with pssInterval := msg.pssInterval }
    pure ({ ring with pssInterval := msg.pssInterval }, normalized.toList)

def setRingUpgrade (ring : Ring) (nextVersion activationTime : UInt64) : Ring :=
  { ring with upgradeInfo := ⟨ring.upgradeInfo.currentVersion, some nextVersion, some activationTime⟩ }

def clearRingUpgrade (ring : Ring) : Ring := { ring with upgradeInfo := ⟨ring.upgradeInfo.currentVersion, none, none⟩ }

/-- Schedule an upgrade, in the place of one that is scheduled. -/
def scheduleRingUpgradeByAcp (ctx : Ctx) (msg : MsgScheduleRingUpgradeByAcp) : M Γ.toEnv Unit :=
  updateFinalizedRing msg.creator msg.ringId fun _ stored => do
    let currentTime ← currentBlockUnixTime ctx
    let (ring, normalized) := normalizeMaturedRingUpgrade stored currentTime
    check (¬(ring.upgradeInfo.nextVersion = some msg.nextVersion ∧
      ring.upgradeInfo.activationTime.getD 0 = msg.activationTime)) ⟨.ringUpgradeUnchanged, []⟩
    validateRingUpgradeSchedule msg.nextVersion msg.activationTime currentTime ring
    validateRing Γ.toEnv (setRingUpgrade ring msg.nextVersion msg.activationTime)
    pure (setRingUpgrade ring msg.nextVersion msg.activationTime, normalized.toList ++
      [.ringUpgradeScheduled ring.id ring.upgradeInfo.currentVersion msg.nextVersion msg.activationTime])

def cancelRingUpgradeByAcp (ctx : Ctx) (msg : MsgCancelRingUpgradeByAcp) : M Γ.toEnv Unit :=
  updateFinalizedRing msg.creator msg.ringId fun _ ring => do
    check (ring.upgradeInfo.nextVersion.isSome = true ∧ ring.upgradeInfo.activationTime.isSome = true)
      ⟨.ringUpgradeNotScheduled, []⟩
    let currentTime ← currentBlockUnixTime ctx
    check (currentTime < ring.upgradeInfo.activationTime.getD 0) ⟨.ringUpgradeAlreadyActive, []⟩
    validateRing Γ.toEnv (clearRingUpgrade ring)
    pure (clearRingUpgrade ring, [.ringUpgradeCancelled ring.id ring.upgradeInfo.currentVersion])

def setRingReportingByAcp (ctx : Ctx) (msg : MsgSetRingReportingByAcp) : M Γ.toEnv Unit :=
  updateFinalizedRing msg.creator msg.ringId fun s stored => do
    let (ring, normalized) ← maybeNormalizeMaturedRingUpgrade stored ctx
    let next := { ring with reporting := msg.reporting }
    validateRing Γ.toEnv next
    requireReportingBackupNodeWhitelist Γ s.nodeInfos next next.reporting.backupNodeKeys
    pure (next, normalized.toList)

/-- Change the relays of a ring, with or without a key, as an actor whom its policy allows. -/
def updateRelays (msg : MsgRingTrustedAuthRelayByAcp) (change : List Bytes → Except Error (List Bytes)) : M Γ.toEnv Unit := do
  let ring ← requireRing msg.ringId
  pass (check (ring.allowTrustedAuthRelays = true) ⟨.ringAuthRelaysDisabled, []⟩)
  pass (validateRelaysFrom Γ.toEnv [] [msg.relayDid])
  let updaterDID ← actorDID msg.creator
  ensureRingUpdatePermission ring updaterDID
  let relays ← pass (change ring.trustedAuthRelayDids)
  pass (validateRing Γ.toEnv { ring with trustedAuthRelayDids := relays })
  setRing { ring with trustedAuthRelayDids := relays }
  emit (.ringUpdated ring.id updaterDID)

def addRingTrustedAuthRelayByAcp (msg : MsgRingTrustedAuthRelayByAcp) : M Γ.toEnv Unit :=
  updateRelays msg fun relays => do
    check (msg.relayDid ∉ relays) ⟨.ringAuthRelayExists, []⟩
    pure (relays ++ [msg.relayDid])

def removeRingTrustedAuthRelayByAcp (msg : MsgRingTrustedAuthRelayByAcp) : M Γ.toEnv Unit :=
  updateRelays msg fun relays => do
    check (msg.relayDid ∈ relays) ⟨.ringTrustedAuthRelayNotFound, []⟩
    pure (relays.erase msg.relayDid)

end Vera.Orbis
