import Vera.Lib.Protobuf
import Vera.Orbis.Report

/-!
# Reshares

How the committee of a ring changes: a reshare is started or cancelled by an actor whom the policy of the ring allows, or
scheduled by a report, and becomes final with a signature of the ring (`StartRingReshareByAcp`, `CancelRingReshareByAcp` and
`FinalizeRingReshareByThresholdSignature` of `x/orbis/keeper/msg_server.go`, `reshare_sign_bytes.go`, `validation.go`,
`ring_upgrade.go` and `acp.go`).
-/

namespace Vera.Orbis

open Bytes (str)

/-! ## Messages -/

/-- Start a reshare: another committee, another threshold or both. -/
structure MsgStartRingReshareByAcp where
  creator : Bytes
  ringId : Bytes
  newPeerNodeKeys : List Bytes
  newThreshold : Option UInt32
  deriving Repr, DecidableEq

/-- Cancel the pending reshare. -/
structure MsgCancelRingReshareByAcp where
  creator : Bytes
  ringId : Bytes
  deriving Repr, DecidableEq

/-- Make the pending reshare final. -/
structure MsgFinalizeRingReshareByThresholdSignature where
  creator : Bytes
  ringId : Bytes
  signatureScheme : Bytes
  signature : Bytes
  deriving Repr, DecidableEq

/-! ## Checks -/

section Checks

variable (Γ : Env)

/-- The Unix time of the block, for an upgrade. -/
def currentBlockUnixTime (ctx : Ctx) : Except Error UInt64 :=
  if ctx.unixTime < 0 then .error ⟨.invalidRing, str "current block time is before the Unix epoch"⟩
  else .ok (UInt64.ofNat ctx.unixTime.toNat)

/-- The ring with a scheduled upgrade that is due carried out, and the event of it. -/
def normalizeMaturedRingUpgrade (ring : Ring) (currentTime : UInt64) : Ring × Option Event :=
  match ring.upgradeInfo.nextVersion, ring.upgradeInfo.activationTime with
  | some nextVersion, some activationTime =>
    if currentTime < activationTime then (ring, none)
    else ({ ring with upgradeInfo := ⟨nextVersion, none, none⟩ },
      some (.ringUpgradeNormalized ring.id ring.upgradeInfo.currentVersion nextVersion activationTime))
  | _, _ => (ring, none)

/-- The same, with the clock read only if an upgrade is scheduled. -/
def maybeNormalizeMaturedRingUpgrade (ring : Ring) (ctx : Ctx) : Except Error (Ring × Option Event) :=
  if ring.upgradeInfo.nextVersion.isNone then .ok (ring, none)
  else (currentBlockUnixTime ctx).map (normalizeMaturedRingUpgrade ring)

def validateStartRingReshare (newPeerNodeKeys : List Bytes) (newThreshold : Option UInt32) (existing : Ring) :
    Except Error Unit := do
  check (existing.resharePending = false) ⟨.reshareInProgress, []⟩
  let committeeChanged := newPeerNodeKeys ≠ [] ∧ newPeerNodeKeys ≠ existing.peerNodeKeys
  let thresholdChanged := newThreshold.isSome ∧ newThreshold ≠ some existing.threshold
  check (committeeChanged ∨ thresholdChanged) ⟨.invalidRing, str "reshare must change the committee or threshold"⟩
  if newPeerNodeKeys ≠ [] then validateUniquePeerNodeKeys Γ newPeerNodeKeys else pure ()
  check (newThreshold ≠ some 0) ⟨.invalidRing, str "new_threshold must be at least 1"⟩
  let threshold := newThreshold.getD existing.threshold
  check (newPeerNodeKeys ≠ [] ∨ newThreshold = none ∨ threshold ≤ UInt32.ofNat existing.peerNodeKeys.length) ⟨.invalidRing,
    str "new_threshold (" ++ Decimal.dec threshold.toNat ++ str ") cannot exceed existing committee size (" ++
      Decimal.dec existing.peerNodeKeys.length ++ str ")"⟩
  if newPeerNodeKeys ≠ [] then validateEffectiveReshareThreshold threshold newPeerNodeKeys.length else pure ()

/-- Check that the nodes of a new committee are known and take part in the ring. -/
def requireMembers (nodeInfos : KVStore Bytes NodeInfo) (ring : Ring) : List Bytes → Except Error Unit
  | [] => pure ()
  | nodeKey :: rest => do
    match nodeInfos.get nodeKey with
    | none => .error ⟨.invalidRing, str "peer_node_key " ++ Γ.quote nodeKey ++ str " has no registered node info"⟩
    | some nodeInfo => check (nodeInfoAllowsRing nodeInfo ring = true) ⟨.invalidRing,
        str "peer_node_key " ++ Γ.quote nodeKey ++ str " is not whitelisted for policy_id " ++ Γ.quote ring.policyId ++
          str " or ring_id " ++ Γ.quote ring.id⟩
    requireMembers nodeInfos ring rest

def Ring.withReshare (ring : Ring) (newPeerNodeKeys : List Bytes) (newThreshold : Option UInt32) : Ring := { ring with
  newPeerNodeKeys := if newPeerNodeKeys = [] then ring.newPeerNodeKeys else newPeerNodeKeys
  newThreshold := newThreshold.orElse fun _ => ring.newThreshold }

def Ring.withoutReshare (ring : Ring) : Ring := { ring with newPeerNodeKeys := [], newThreshold := none }

def ringForReshareFinalization (currentRing : Ring) : Except Error Ring := do
  check (currentRing.resharePending = true)
    ⟨.invalidRing, str "missing new_peer_node_keys or new_threshold for reshare finalization"⟩
  let finalized := { currentRing.withoutReshare with
    peerNodeKeys := currentRing.targetCommittee, threshold := currentRing.targetThreshold }
  validateRing Γ finalized
  pure finalized

end Checks

/-! ## What is signed -/

/-- The entries of the state of a ring that is signed. -/
def ringReshareSignState (ring : Ring) : List (Nat × Protobuf.Value) :=
  Protobuf.bytesField 1 ring.ringPk ++ Protobuf.repeatedField 2 ring.peerNodeKeys ++
    Protobuf.uintField 3 ring.threshold.toNat ++ Protobuf.repeatedField 4 ring.newPeerNodeKeys ++
    Protobuf.optionalField 5 (ring.newThreshold.map UInt32.toNat) ++ Protobuf.uintField 7 ring.blockNumberNonce.toNat ++
    Protobuf.bytesField 8 ring.policyId ++ Protobuf.repeatedField 9 ring.trustedAuthRelayDids ++
    Protobuf.uintField 10 (if ring.allowTrustedAuthRelays then 1 else 0)

def ringReshareSignStateHash (ring : Ring) : Bytes := Sha256.sum256 (Protobuf.encode (ringReshareSignState ring))

/-- The entries of the document that is signed. -/
def ringReshareFinalizeSignDoc (chainID : Bytes) (currentRing finalizedRing : Ring) : List (Nat × Protobuf.Value) :=
  Protobuf.bytesField 1 (str "orbis-ring-reshare-finalize") ++ Protobuf.bytesField 2 chainID ++
    Protobuf.bytesField 3 currentRing.id ++ Protobuf.bytesField 4 currentRing.ringPk ++
    Protobuf.bytesField 5 (ringReshareSignStateHash currentRing) ++
    Protobuf.bytesField 6 (ringReshareSignStateHash finalizedRing) ++ Protobuf.uintField 7 currentRing.blockNumberNonce.toNat

/-- The bytes that the ring signs to make a reshare final. -/
def ringReshareFinalizeSignBytes (chainID : Bytes) (currentRing finalizedRing : Ring) : Bytes :=
  Protobuf.encode (ringReshareFinalizeSignDoc chainID currentRing finalizedRing)

/-! ## Calls -/

variable {Γ : Env}

def actorDID (creator : Bytes) : M Γ Bytes :=
  Eff.query fun s => Outcome.ofExcept (fun e => ⟨.other, e⟩) (Γ.getActorDID s.env creator)

def ensureRingUpdatePermission (ring : Ring) (updaterDID : Bytes) : M Γ Unit :=
  Eff.query fun s => do
    Outcome.require (ring.policyId ≠ []) ⟨.invalidRing, str "missing policy_id"⟩
    let valid ← Outcome.ofExcept (fun e => ⟨.other, e⟩) (Γ.verifyRingUpdate s.env ring.policyId ring.id updaterDID)
    Outcome.require (valid = true)
      ⟨.unauthorizedRingUpdate, str "actor " ++ updaterDID ++ str " cannot update ring " ++ ring.id⟩

def pass {α : Type} (x : Except Error α) : M Γ α := Eff.lift (Outcome.ofExcept id x)

def startRingReshareByAcp (ctx : Ctx) (msg : MsgStartRingReshareByAcp) : M Γ Unit := do
  let stored ← requireRing msg.ringId
  pass (requireRingFinalized stored)
  let updaterDID ← actorDID msg.creator
  ensureRingUpdatePermission stored updaterDID
  let (ring, normalized) ← pass (maybeNormalizeMaturedRingUpgrade stored ctx)
  pass (validateStartRingReshare Γ (canonicalStrings msg.newPeerNodeKeys) msg.newThreshold ring)
  Eff.query fun s => Outcome.ofExcept id (requireMembers Γ s.nodeInfos ring (canonicalStrings msg.newPeerNodeKeys))
  pass (validateRing Γ (ring.withReshare (canonicalStrings msg.newPeerNodeKeys) msg.newThreshold))
  setRing (ring.withReshare (canonicalStrings msg.newPeerNodeKeys) msg.newThreshold)
  emit (.ringUpdated ring.id updaterDID)
  Eff.forEach normalized.toList emit

def cancelRingReshareByAcp (msg : MsgCancelRingReshareByAcp) : M Γ Unit := do
  let ring ← requireRing msg.ringId
  pass (requireRingFinalized ring)
  let updaterDID ← actorDID msg.creator
  ensureRingUpdatePermission ring updaterDID
  pass (check (ring.resharePending = true) ⟨.reshareNotInProgress, []⟩)
  pass (validateRing Γ ring.withoutReshare)
  setRing ring.withoutReshare
  emit (.ringUpdated ring.id updaterDID)
  emit (.ringReshareCancelled ring.id updaterDID)

/-- Make a reshare final. The height of the block becomes the nonce of the ring. -/
def finalizeRingReshareByThresholdSignature (ctx : Ctx) (msg : MsgFinalizeRingReshareByThresholdSignature) : M Γ Unit := do
  let ring ← requireRing msg.ringId
  let updaterDID ← actorDID msg.creator
  let finalized ← pass (ringForReshareFinalization Γ ring)
  Eff.lift (verifyThresholdSignature Γ msg.signatureScheme ring.ringPk
    (ringReshareFinalizeSignBytes ctx.chainID ring finalized) msg.signature)
  setRing { finalized with blockNumberNonce := UInt64.ofInt ctx.blockHeight }
  emit (.ringUpdated finalized.id updaterDID)

end Vera.Orbis
