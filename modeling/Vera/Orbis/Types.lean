import Vera.Lib.Canonical
import Vera.Lib.Decimal
import Vera.Lib.Effect
import Vera.Lib.KVStore

/-!
# The state of the Orbis module

The rings of nodes that hold a key together, the information on the nodes, the reports of faults and the records of those
accepted (`x/orbis`), with what the module calls: Go's string functions, the threshold signature schemes and the access
control module.
-/

namespace Vera.Orbis

/-! ## Records -/

/-- The protocol version of a ring and the upgrade that is scheduled. -/
structure UpgradeInfo where
  currentVersion : UInt64
  nextVersion : Option UInt64
  activationTime : Option UInt64
  deriving Repr, DecidableEq

/-- The demerits for each kind of report. -/
structure DemeritConfig where
  nodeOfflineDemerits : UInt64
  resetIntervalSeconds : UInt64
  invalidCryptoResponseDemerits : UInt64
  unauthorizedRequestDemerits : UInt64
  deriving Repr, DecidableEq

/-- How a ring deals with reports. -/
structure ReportingConfig where
  demeritConfig : DemeritConfig
  backupNodeKeys : List Bytes
  kickThreshold : UInt64
  deriving Repr, DecidableEq

/-- What a node of a new ring has said its keys are. -/
structure RingConfirmation where
  nodeKey : Bytes
  ringPk : Bytes
  petPk : Option Bytes
  deriving Repr, DecidableEq

/-- A ring: its committee, and the committee and threshold of a reshare that is pending. A ring without a public key is one
whose committee has yet to agree on it. -/
structure Ring where
  id : Bytes
  ringPk : Bytes
  peerNodeKeys : List Bytes
  threshold : UInt32
  newPeerNodeKeys : List Bytes
  newThreshold : Option UInt32
  pssInterval : UInt64
  blockNumberNonce : UInt64
  policyId : Bytes
  upgradeInfo : UpgradeInfo
  reporting : ReportingConfig
  trustedAuthRelayDids : List Bytes
  allowTrustedAuthRelays : Bool
  creatorDid : Bytes := []
  confirmations : List RingConfirmation := []
  requiresPet : Bool := false
  petPk : Option Bytes := none
  deriving Repr, DecidableEq

structure NodeInfo where
  peerId : Bytes
  whitelistedPolicyIds : List Bytes
  whitelistedRingIds : List Bytes
  controllerKey : Bytes := []
  deriving Repr, DecidableEq

/-- The demerits of a node in the running window. -/
structure NodeDemeritState where
  points : UInt64
  windowStartedAt : UInt64
  deriving Repr, DecidableEq

/-- A report of a fault. -/
structure ReportEnvelope where
  domain : Bytes
  reportType : Bytes
  chainId : Bytes
  ringId : Bytes
  ringPk : Bytes
  ringStateSha256 : Bytes
  reporterNodeKey : Bytes
  accusedNodeKey : Bytes
  accusedPeerId : Bytes
  observedAt : UInt64
  expiresAt : UInt64
  payload : Bytes
  sessionId : Bytes
  deriving Repr, DecidableEq

/-! ## Errors and events -/

/-- The sentinel errors that the modelled functions return. -/
inductive Sentinel where
  | invalidRingId
  | invalidRing
  | ringNotFound
  | reshareInProgress
  | reshareNotInProgress
  | invalidThresholdSignature
  | nodeInfoNotFound
  | ringNotFinalized
  | unauthorizedRingUpdate
  | invalidReport
  | reportAlreadyAccepted
  | ringAlreadyExists
  | ringAlreadyFinalized
  | invalidRingFinalizer
  | duplicateConfirmation
  | invalidRingCanceller
  | unauthorizedRingCreate
  | ringPssIntervalUnchanged
  | ringUpgradeUnchanged
  | ringUpgradeNotScheduled
  | ringUpgradeAlreadyActive
  | ringAuthRelaysDisabled
  | ringAuthRelayExists
  | ringTrustedAuthRelayNotFound
  | invalidNodeInfo
  | nodeInfoAlreadyExists
  | nodeInfoUnchanged
  | unauthorizedNodeInfoUpdate
  | nodeWhitelistEntryExists
  | nodeWhitelistEntryNotFound
  | invalidSignatureScheme
  | invalidSignaturePayload
  | invalidAddress
  | invalidSigner
  | invalidDocumentId
  | invalidDocument
  | documentAlreadyExists
  | invalidKeyDerivationId
  | invalidKeyDerivation
  | keyDerivationAlreadyExists
  | nodeKeyBalanceEmpty
  /-- An error of another module. -/
  | other
  deriving Repr, DecidableEq

/-- An error: the sentinel it wraps and the text in front of it. -/
structure Error where
  sentinel : Sentinel
  msg : Bytes := []
  deriving Repr, DecidableEq

/-- What the module reports of its actions. -/
inductive Event where
  | reportAccepted (reportId ringId reportType reporterNodeKey accusedNodeKey : Bytes)
  | ringAutoReshareScheduled (ringId accusedNodeKey replacementNodeKey : Bytes) (kickThreshold demerits : UInt64)
  | ringUpdated (ringId updaterDid : Bytes)
  | ringReshareCancelled (ringId updaterDid : Bytes)
  | ringUpgradeNormalized (ringId : Bytes) (previousVersion currentVersion activationTime : UInt64)
  | ringCreated (ringId creatorDid : Bytes)
  | ringDeleted (ringId reason : Bytes)
  | ringUpgradeScheduled (ringId : Bytes) (currentVersion nextVersion activationTime : UInt64)
  | ringUpgradeCancelled (ringId : Bytes) (currentVersion : UInt64)
  | nodeInfoCreated (peerId controllerKey : Bytes)
  | nodeInfoUpdated (peerId controllerKey : Bytes)
  | documentStored (documentId creatorDid : Bytes)
  | keyDerivationStored (keyDerivationId creatorDid : Bytes)
  | nodeKeyDrained (nodeKey recipient : Bytes) (amount : List (Bytes × Nat))
  deriving Repr, DecidableEq

/-! ## Environment and state -/

/-- What a call reads of its context: the chain, and the height and the Unix time of the block, in 64 bits. -/
structure Ctx where
  chainID : Bytes
  blockHeight : Int
  int64_height : -2 ^ 63 ≤ blockHeight ∧ blockHeight < 2 ^ 63
  unixTime : Int
  int64_time : -2 ^ 63 ≤ unixTime ∧ unixTime < 2 ^ 63
  deriving Repr, DecidableEq

/-- What the module calls, over a state `σ` of the other modules. -/
structure Env where
  σ : Type
  /-- `strings.ToLower`, `strings.TrimSpace` and the verb `%q`. -/
  toLower : Bytes → Bytes
  trimSpace : Bytes → Bytes
  quote : Bytes → Bytes
  hexDecodeString : Bytes → Except Bytes Bytes
  /-- Verification by public key, message and signature. -/
  blsVerify : Bytes → Bytes → Bytes → Bool
  jubjubIsIdentity : Bytes → Except Bytes Bool
  jubjubVerify : Bytes → Bytes → Bytes → Except Bytes Bool
  /-- Whether the key of a `did:key` is an Ed25519 key. -/
  didKeyIsEd25519 : Bytes → Except Bytes Bool
  /-- `acpKeeper.GetActorDID`. -/
  getActorDID : σ → Bytes → Except Bytes Bytes
  /-- Whether a policy lets an actor update a ring. -/
  verifyRingUpdate : σ → (policyId ringId actor : Bytes) → Except Bytes Bool

/-- The store of `x/orbis`, with the state of the other modules and the events reported so far. -/
structure State (Γ : Env) where
  env : Γ.σ
  rings : KVStore Bytes Ring
  nodeInfos : KVStore Bytes NodeInfo
  acceptedReports : KVStore Bytes Unit
  acceptedSessions : KVStore Bytes Unit
  acceptedExpiry : KVStore Bytes Bytes
  demerits : KVStore Bytes NodeDemeritState
  events : List Event

abbrev M (Γ : Env) (α : Type) : Type := Eff (State Γ) Error α

variable {Γ : Env}

def emit (e : Event) : M Γ Unit := Eff.modify fun s => { s with events := s.events ++ [e] }

/-- A time or a height that is not negative is not changed by the conversion to an unsigned number. -/
theorem toNat_ofInt_of_nonneg {x : Int} (h : 0 ≤ x) (hlt : x < 2 ^ 63) : ((UInt64.ofInt x).toNat : Int) = x := by
  show ((UInt64.ofNat (x % 2 ^ 64).toNat).toNat : Int) = x
  rw [UInt64.toNat_ofNat_of_lt' (by unfold UInt64.size; omega)]
  omega

theorem except_bind_eq_ok {ε α β : Type} {x : Except ε α} {f : α → Except ε β} {b : β} :
    x >>= f = .ok b ↔ ∃ a, x = .ok a ∧ f a = .ok b := by
  cases x with
  | ok a => exact ⟨fun h => ⟨a, rfl, h⟩, fun ⟨_, ha, h⟩ => Except.ok.inj ha ▸ h⟩
  | error e => exact ⟨(nomatch ·), fun ⟨_, ha, _⟩ => nomatch ha⟩

def check (c : Prop) [Decidable c] (e : Error) : Except Error Unit := if c then .ok () else .error e

theorem check_eq_ok {c : Prop} [Decidable c] {e : Error} {u : Unit} : check c e = .ok u ↔ c := by
  unfold check
  split
  · simp_all
  · simp_all

end Vera.Orbis
