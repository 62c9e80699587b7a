import Mathlib.Data.List.Sort
import Vera.Orbis.Types

/-!
# Rings

The checks of a ring (`x/orbis/keeper/validation.go`, with those of `x/orbis/types` it calls), its store, and the automatic
reshare that replaces a node with too many demerits (`report.go`).
-/

namespace Vera.Orbis

open Bytes (str)

/-! ## Checks -/

section Checks

variable (Γ : Env)

/-- A ring is finalized when it has a public key. -/
def requireRingFinalized (ring : Ring) : Except Error Unit := check (ring.ringPk ≠ []) ⟨.ringNotFinalized, []⟩

/-- Check the scheduled upgrade: both parts or none, a later version, a positive time. -/
def validateUpgradeInfo (info : UpgradeInfo) : Except Error Unit := do
  check (info.nextVersion.isNone = info.activationTime.isNone)
    ⟨.invalidRing, str "upgrade next_version and activation_time must both be set or both be absent"⟩
  match info.nextVersion with
  | none => pure ()
  | some next => do
    check (info.currentVersion < next) ⟨.invalidRing, str "upgrade next_version must be greater than current_version"⟩
    check (info.activationTime.getD 0 ≠ 0) ⟨.invalidRing, str "upgrade activation_time must be positive"⟩

/-- The number of bytes of a compressed public key. -/
def compressedPubKeyLen : Nat := 33

def validatePeerNodeKeyFormat (key : Bytes) : Except Error Unit := do
  check (key ≠ []) ⟨.invalidRing, str "empty peer_node_key"⟩
  match Γ.hexDecodeString (Bytes.trimStart (str "0x") key) with
  | .error _ => .error ⟨.invalidRing, str "invalid peer_node_key encoding: " ++ Γ.quote key⟩
  | .ok decoded =>
    check (decoded.length = compressedPubKeyLen) ⟨.invalidRing, str "invalid peer_node_key encoding: " ++ Γ.quote key⟩

/-- Check that node keys are well formed and different, with those seen so far. -/
def validateUniqueFrom (seen : List Bytes) : List Bytes → Except Error Unit
  | [] => pure ()
  | key :: rest => do
    validatePeerNodeKeyFormat Γ key
    check (key ∉ seen) ⟨.invalidRing, str "duplicate peer_node_key: " ++ Γ.quote key⟩
    validateUniqueFrom (key :: seen) rest

/-- Check that node keys are well formed and different. -/
def validateUniquePeerNodeKeys (nodeKeys : List Bytes) : Except Error Unit := validateUniqueFrom Γ [] nodeKeys

def atLeastOne (field : String) (value : UInt64) : Except Error Unit :=
  check (value ≠ 0) ⟨.invalidRing, str field ++ str " must be at least 1"⟩

/-- Check the demerits of the kinds of reports. -/
def validateDemeritConfig (config : DemeritConfig) : Except Error Unit := do
  atLeastOne "node_offline_demerits" config.nodeOfflineDemerits
  atLeastOne "invalid_crypto_response_demerits" config.invalidCryptoResponseDemerits
  atLeastOne "unauthorized_request_demerits" config.unauthorizedRequestDemerits
  atLeastOne "reset_interval_seconds" config.resetIntervalSeconds

def validateReportingConfig (config : ReportingConfig) : Except Error Unit := do
  validateDemeritConfig config.demeritConfig
  atLeastOne "kick_threshold" config.kickThreshold
  if 0 < config.backupNodeKeys.length then validateUniquePeerNodeKeys Γ config.backupNodeKeys else pure ()

/-- Check the relays of a ring, with those seen so far. -/
def validateRelaysFrom (seen : List Bytes) : List Bytes → Except Error Unit
  | [] => pure ()
  | relayDID :: rest => do
    check (relayDID ≠ [] ∧ Γ.trimSpace relayDID = relayDID)
      ⟨.invalidRing, str "trusted auth relay DID must be non-empty without surrounding whitespace"⟩
    match Γ.didKeyIsEd25519 relayDID with
    | .error e => .error ⟨.invalidRing, str "invalid trusted auth relay DID " ++ Γ.quote relayDID ++ str ": " ++ e⟩
    | .ok ed25519 =>
      check (ed25519 = true) ⟨.invalidRing, str "trusted auth relay DID " ++ Γ.quote relayDID ++ str " must use Ed25519"⟩
    check (relayDID ∉ seen) ⟨.invalidRing, str "duplicate trusted auth relay DID " ++ Γ.quote relayDID⟩
    validateRelaysFrom (relayDID :: seen) rest

def validateTrustedAuthRelayConfig (allow : Bool) (relayDIDs : List Bytes) : Except Error Unit := do
  check (allow = true ∨ relayDIDs = []) ⟨.invalidRing, str "trusted_auth_relay_dids require allow_trusted_auth_relays"⟩
  validateRelaysFrom Γ [] relayDIDs

/-- Check the threshold of a reshare against the size of its committee. -/
def validateEffectiveReshareThreshold (threshold : UInt32) (committeeSize : Nat) : Except Error Unit :=
  check (threshold ≤ UInt32.ofNat committeeSize) ⟨.invalidRing,
    str "effective new_threshold (" ++ Decimal.dec threshold.toNat ++ str ") cannot exceed target committee size (" ++
      Decimal.dec committeeSize ++ str ")"⟩

def Ring.resharePending (ring : Ring) : Bool := ring.newPeerNodeKeys ≠ [] || ring.newThreshold.isSome

def Ring.targetCommittee (ring : Ring) : List Bytes :=
  if ring.newPeerNodeKeys = [] then ring.peerNodeKeys else ring.newPeerNodeKeys

def Ring.targetThreshold (ring : Ring) : UInt32 := ring.newThreshold.getD ring.threshold

def validateRing (ring : Ring) : Except Error Unit := do
  check (ring.id ≠ []) ⟨.invalidRingId, []⟩
  check (ring.peerNodeKeys ≠ []) ⟨.invalidRing, str "missing peer_node_keys"⟩
  check (ring.threshold ≠ 0 ∧ ring.threshold.toNat ≤ ring.peerNodeKeys.length) ⟨.invalidRing,
    str "threshold " ++ Decimal.dec ring.threshold.toNat ++ str " is invalid for committee size " ++
      Decimal.dec ring.peerNodeKeys.length⟩
  check (ring.policyId ≠ []) ⟨.invalidRing, str "missing policy_id"⟩
  validateUpgradeInfo ring.upgradeInfo
  validateReportingConfig Γ ring.reporting
  validateTrustedAuthRelayConfig Γ ring.allowTrustedAuthRelays ring.trustedAuthRelayDids
  validateUniquePeerNodeKeys Γ ring.peerNodeKeys
  if 0 < ring.newPeerNodeKeys.length then validateUniquePeerNodeKeys Γ ring.newPeerNodeKeys else pure ()
  check (ring.newThreshold ≠ some 0) ⟨.invalidRing, str "new_threshold must be at least 1"⟩
  if ring.resharePending then validateEffectiveReshareThreshold ring.targetThreshold ring.targetCommittee.length else pure ()

/-- Whether a node takes part in rings of the ring's policy, or in the ring. -/
def nodeInfoAllowsRing (nodeInfo : NodeInfo) (ring : Ring) : Bool :=
  nodeInfo.whitelistedPolicyIds.contains ring.policyId || nodeInfo.whitelistedRingIds.contains ring.id

end Checks

/-! ## The store -/

variable {Γ : Env}

def canonicalStrings (values : List Bytes) : List Bytes := values.insertionSort fun a b => compare a b ≠ .gt

/-- A ring as it is stored: its sets in canonical order. -/
def Ring.canonical (ring : Ring) : Ring := { ring with
  peerNodeKeys := canonicalStrings ring.peerNodeKeys
  newPeerNodeKeys := canonicalStrings ring.newPeerNodeKeys
  trustedAuthRelayDids := canonicalStrings ring.trustedAuthRelayDids }

def setRing (ring : Ring) : M Γ Unit :=
  Eff.modify fun s => { s with rings := s.rings.set ring.id ring.canonical }

/-- The ring of an identifier; there must be one. -/
def requireRing (ringID : Bytes) : M Γ Ring :=
  Eff.query fun s =>
    match s.rings.get ringID with
    | none => .err ⟨.ringNotFound, []⟩
    | some ring => .ok ring

/-! ## Automatic reshare -/

/-- The first backup node that is not in the committee and may join, with the backups that remain. -/
def selectAutoReshareReplacement (nodeInfos : KVStore Bytes NodeInfo) (ring : Ring) :
    (passed backups : List Bytes) → Option (Bytes × List Bytes)
  | _, [] => none
  | passed, backupNodeKey :: rest =>
    if ring.peerNodeKeys.contains backupNodeKey then
      selectAutoReshareReplacement nodeInfos ring (passed ++ [backupNodeKey]) rest
    else
      match nodeInfos.get backupNodeKey with
      | none => selectAutoReshareReplacement nodeInfos ring (passed ++ [backupNodeKey]) rest
      | some nodeInfo =>
        if nodeInfoAllowsRing nodeInfo ring then some (backupNodeKey, passed ++ rest)
        else selectAutoReshareReplacement nodeInfos ring (passed ++ [backupNodeKey]) rest

def Ring.withReplacement (ring : Ring) (accusedNodeKey replacementNodeKey : Bytes) (remainingBackups : List Bytes) : Ring :=
  { ring with
    newPeerNodeKeys := canonicalStrings (ring.peerNodeKeys.filter (· ≠ accusedNodeKey) ++ [replacementNodeKey])
    newThreshold := none
    reporting := { ring.reporting with backupNodeKeys := remainingBackups } }

/-- Schedule a reshare without an accused node once it has too many demerits. -/
def maybeScheduleAutoReshareForReport (ring : Ring) (accusedNodeKey : Bytes) (effectiveDemerits : UInt64) : M Γ Unit := do
  let s ← Eff.read
  if effectiveDemerits < ring.reporting.kickThreshold then pure ()
  else if ring.resharePending then pure ()
  else if ring.peerNodeKeys.contains accusedNodeKey = false then pure ()
  else
    match selectAutoReshareReplacement s.nodeInfos ring [] ring.reporting.backupNodeKeys with
    | none => pure ()
    | some (replacementNodeKey, remainingBackups) => do
      let nextRing := ring.withReplacement accusedNodeKey replacementNodeKey remainingBackups
      Eff.lift (Outcome.ofExcept id (validateRing Γ nextRing))
      setRing nextRing
      emit (.ringAutoReshareScheduled ring.id accusedNodeKey replacementNodeKey ring.reporting.kickThreshold effectiveDemerits)

end Vera.Orbis
