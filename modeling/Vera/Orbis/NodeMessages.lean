import Vera.Orbis.RingMessages

/-!
# The messages on nodes

How a node makes itself known, under its own public key, and how whoever controls it changes what is known of it
(`CreateNodeInfo`, `UpdateNodePeerId`, `TransferNodeController`, `AddNodeToWhitelist` and `RemoveNodeFromWhitelist` of
`x/orbis/keeper/msg_server.go`, with `node_info.go`). Nothing deletes a node.
-/

namespace Vera.Orbis

open Bytes (str)

/-! ## Messages -/

/-- Make a node known. -/
structure MsgCreateNodeInfo where
  creator : Bytes
  peerId : Bytes
  controllerKey : Bytes
  whitelistedPolicyIds : List Bytes
  whitelistedRingIds : List Bytes
  deriving Repr, DecidableEq

/-- Change the peer of a node. -/
structure MsgUpdateNodePeerId where
  creator : Bytes
  nodeKey : Bytes
  peerId : Bytes
  deriving Repr, DecidableEq

/-- Hand the control of a node over. -/
structure MsgTransferNodeController where
  creator : Bytes
  nodeKey : Bytes
  controllerKey : Bytes
  deriving Repr, DecidableEq

/-- What a node takes part in. -/
inductive WhitelistTarget where
  | policyId (policyId : Bytes)
  | ringId (ringId : Bytes)
  deriving Repr, DecidableEq

/-- Add to what a node takes part in (`MsgAddNodeToWhitelist`), or remove from it (`MsgRemoveNodeFromWhitelist`). -/
structure MsgNodeWhitelist where
  creator : Bytes
  nodeKey : Bytes
  target : Option WhitelistTarget
  deriving Repr, DecidableEq

/-! ## Checks -/

/-- The largest number of policies, and of rings, that a node takes part in. -/
def maxNodeWhitelistLen : Nat := 256

section Checks

variable (Γ : RingEnv)

/-- Check that strings are different and not empty, with those seen so far. -/
def validateUniqueNonEmptyFrom (field : String) (seen : List Bytes) : List Bytes → Except Error Unit
  | [] => pure ()
  | value :: rest => do
    check (value ≠ []) ⟨.invalidNodeInfo, str field ++ str " contains an empty value"⟩
    check (value ∉ seen) ⟨.invalidNodeInfo, str field ++ str " contains duplicate value " ++ Γ.quote value⟩
    validateUniqueNonEmptyFrom field (value :: seen) rest

/-- Check that strings are different and not empty. -/
def validateUniqueNonEmptyStrings (field : String) (values : List Bytes) : Except Error Unit :=
  validateUniqueNonEmptyFrom Γ field [] values

/-- Check the length of a list of policies or rings. -/
def validateWhitelistLen (field : String) (values : List Bytes) : Except Error Unit :=
  check (values.length ≤ maxNodeWhitelistLen) ⟨.invalidNodeInfo, str field ++ str " exceeds maximum length 256"⟩

/-- Check a node, and write the key of its controller in one form. -/
def normalizeAndValidateNodeInfo (nodeInfo : NodeInfo) : Except Error NodeInfo := do
  check (nodeInfo.peerId ≠ []) ⟨.invalidNodeInfo, str "missing peer_id"⟩
  check (nodeInfo.controllerKey ≠ []) ⟨.invalidNodeInfo, str "missing controller_key"⟩
  validateWhitelistLen "whitelisted_policy_ids" nodeInfo.whitelistedPolicyIds
  validateWhitelistLen "whitelisted_ring_ids" nodeInfo.whitelistedRingIds
  validateUniqueNonEmptyStrings Γ "whitelisted_policy_ids" nodeInfo.whitelistedPolicyIds
  validateUniqueNonEmptyStrings Γ "whitelisted_ring_ids" nodeInfo.whitelistedRingIds
  let keyHex := Γ.toLower (Bytes.trimStart (str "0x") nodeInfo.controllerKey)
  match Γ.hexDecodeString keyHex with
  | .error _ => .error ⟨.invalidNodeInfo, str "invalid controller_key encoding"⟩
  | .ok decoded => check (decoded.length = compressedPubKeyLen) ⟨.invalidNodeInfo, str "invalid controller_key encoding"⟩
  pure { nodeInfo with controllerKey := keyHex }

end Checks

/-! ## Calls -/

variable {Γ : RingEnv}

def setNodeInfo (nodeKey : Bytes) (nodeInfo : NodeInfo) : M Γ.toEnv Unit :=
  Eff.modify fun s => { s with nodeInfos := s.nodeInfos.set nodeKey nodeInfo }

/-- Make a node known under the public key of the account that signs. -/
def createNodeInfo (msg : MsgCreateNodeInfo) : M Γ.toEnv Unit := do
  let nodeKey ← signerKey msg.creator
  let s ← Eff.read
  pass (check ((s.nodeInfos.get nodeKey).isNone = true) ⟨.nodeInfoAlreadyExists, []⟩)
  let nodeInfo ← pass (normalizeAndValidateNodeInfo Γ
    ⟨msg.peerId, msg.whitelistedPolicyIds, msg.whitelistedRingIds, msg.controllerKey⟩)
  setNodeInfo nodeKey nodeInfo
  emit (.nodeInfoCreated nodeInfo.peerId nodeInfo.controllerKey)

/-- The node that an account may change: the account has the key of the controller. -/
def authorizeNodeInfoUpdate (nodeKey creator : Bytes) : M Γ.toEnv NodeInfo := do
  let s ← Eff.read
  let nodeInfo ← Eff.lift (Outcome.ofOption ⟨.nodeInfoNotFound, []⟩ (s.nodeInfos.get nodeKey))
  let signer ← signerKey creator
  pass (check (signer = nodeInfo.controllerKey) ⟨.unauthorizedNodeInfoUpdate, []⟩)
  pure nodeInfo

def updateNodeInfo (nodeKey creator : Bytes) (change : NodeInfo → Except Error NodeInfo) : M Γ.toEnv Unit := do
  let nodeInfo ← authorizeNodeInfoUpdate nodeKey creator
  let next ← pass (change nodeInfo)
  setNodeInfo nodeKey next
  emit (.nodeInfoUpdated next.peerId next.controllerKey)

def updateNodePeerId (msg : MsgUpdateNodePeerId) : M Γ.toEnv Unit :=
  updateNodeInfo msg.nodeKey msg.creator fun nodeInfo => do
    check (msg.peerId ≠ []) ⟨.invalidNodeInfo, str "missing peer_id"⟩
    check (nodeInfo.peerId ≠ msg.peerId) ⟨.nodeInfoUnchanged, []⟩
    normalizeAndValidateNodeInfo Γ { nodeInfo with peerId := msg.peerId }

/-- Hand the control of a node over. The new key is compared with the old in its normal form. -/
def transferNodeController (msg : MsgTransferNodeController) : M Γ.toEnv Unit :=
  updateNodeInfo msg.nodeKey msg.creator fun nodeInfo => do
    let next ← normalizeAndValidateNodeInfo Γ { nodeInfo with controllerKey := msg.controllerKey }
    check (next.controllerKey ≠ nodeInfo.controllerKey) ⟨.nodeInfoUnchanged, []⟩
    pure next

/-- Change one of the two lists of what a node takes part in. -/
def changeWhitelist (target : Option WhitelistTarget) (change : Bytes → List Bytes → Except Error (List Bytes))
    (nodeInfo : NodeInfo) : Except Error NodeInfo :=
  match target with
  | none => .error ⟨.invalidNodeInfo, str "missing whitelist target"⟩
  | some (.policyId policyId) => do
    check (policyId ≠ []) ⟨.invalidNodeInfo, str "missing policy_id"⟩
    let policyIds ← change policyId nodeInfo.whitelistedPolicyIds
    normalizeAndValidateNodeInfo Γ { nodeInfo with whitelistedPolicyIds := policyIds }
  | some (.ringId ringId) => do
    check (ringId ≠ []) ⟨.invalidNodeInfo, str "missing ring_id"⟩
    let ringIds ← change ringId nodeInfo.whitelistedRingIds
    normalizeAndValidateNodeInfo Γ { nodeInfo with whitelistedRingIds := ringIds }

/-- Add a policy or a ring to those a node takes part in. -/
def addNodeToWhitelist (msg : MsgNodeWhitelist) : M Γ.toEnv Unit :=
  updateNodeInfo msg.nodeKey msg.creator (changeWhitelist (Γ := Γ) msg.target fun entry entries => do
    check (entry ∉ entries) ⟨.nodeWhitelistEntryExists, []⟩
    pure (entries ++ [entry]))

/-- Remove a policy or a ring from those a node takes part in. -/
def removeNodeFromWhitelist (msg : MsgNodeWhitelist) : M Γ.toEnv Unit :=
  updateNodeInfo msg.nodeKey msg.creator (changeWhitelist (Γ := Γ) msg.target fun entry entries => do
    check (entry ∈ entries) ⟨.nodeWhitelistEntryNotFound, []⟩
    pure (entries.erase entry))

end Vera.Orbis
