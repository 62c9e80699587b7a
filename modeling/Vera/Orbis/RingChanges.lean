import Vera.Orbis.Ledger
import Vera.Orbis.ReshareOnce

/-!
# What a message does to the rings

A message creates a ring, takes a confirmation of one, gives one up, or revises one that is there without touching its keys.
Only nodes write on nodes, each under a key that was there or under the hexadecimal form of a public key.
-/

namespace Vera.Orbis

open Eff List Outcome

variable {Γ : RingEnv}

/-! ## Kinds of changes -/

/-- What agreeing on the keys and resharing have to do with in a ring. -/
def Ring.core (ring : Ring) : Bytes × Option Bytes × Bool × List RingConfirmation × List Bytes × List Bytes × Option UInt32 :=
  (ring.ringPk, ring.petPk, ring.requiresPet, ring.confirmations, ring.peerNodeKeys, ring.newPeerNodeKeys, ring.newThreshold)

/-- What a message makes of a ring that is there: the keys stay, new members are known nodes, and the committee of a ring that
has no key and no reshare pending stays. -/
structure Revises (Γ : Env) (nodeInfos : KVStore Bytes NodeInfo) (ring next : Ring) : Prop where
  ringPk : next.ringPk = ring.ringPk
  petPk : next.petPk = ring.petPk
  requiresPet : next.requiresPet = ring.requiresPet
  valid : validateRing Γ next = .ok ()
  known : ∀ key ∈ next.peerNodeKeys ++ next.newPeerNodeKeys,
    key ∈ ring.peerNodeKeys ++ ring.newPeerNodeKeys ∨ (nodeInfos.get key).isSome = true
  forming : ring.ringPk = [] → ring.resharePending = false →
    next.peerNodeKeys = ring.peerNodeKeys ∧ next.resharePending = false ∧ next.confirmations = ring.confirmations

/-- The rings after a message that revises one at most. -/
def RevisesRing (s t : State Γ.toEnv) : Prop := StoresRing (Revises Γ.toEnv s.nodeInfos) s t ∧ t.nodeInfos = s.nodeInfos

variable {nodeInfos : KVStore Bytes NodeInfo} {ring : Ring} {keys : List Bytes} {s t : State Γ.toEnv}
  {id creator key nodeKey : Bytes} {u : Unit} {ctx : Ctx}

theorem Revises.of_core {Γ : Env} {next : Ring} (hcor : next.core = ring.core)
    (hv : validateRing Γ next = .ok ()) : Revises Γ nodeInfos ring next := by
  simp only [Ring.core, Prod.mk.injEq] at hcor
  obtain ⟨hri, hpet, hr, hco, hpe, hnew, ht⟩ := hcor
  refine ⟨hri, hpet, hr, hv, ?_, ?_⟩
  · intro key hke
    rw [hpe, hnew] at hke
    exact .inl hke
  · intro _ hp
    refine ⟨hpe, ?_, hco⟩
    unfold Ring.resharePending at hp ⊢
    rw [hnew, ht, hp]

/-- A confirmation that a message makes, before it is compared with the others: the ring has no key yet, and the node is one of
its committee and has not confirmed before. -/
structure Confirms (Γ : RingEnv) (s : State Γ.toEnv) (msg : MsgFinalizeRing) (ring : Ring) (nodeKey : Bytes) : Prop where
  stored : s.rings.get msg.ringId = some ring
  forming : ring.ringPk = []
  named : msg.ringPk ≠ []
  signer : signerPublicKeyHex Γ s.env msg.creator = .ok nodeKey
  pet : ring.requiresPet = msg.petPk.isSome
  member : nodeKey ∈ ring.peerNodeKeys
  first : ∀ c ∈ ring.confirmations, c.nodeKey ≠ nodeKey

/-- The confirmation that a message makes for a node. -/
def MsgFinalizeRing.confirmation (msg : MsgFinalizeRing) (nodeKey : Bytes) : RingConfirmation := ⟨nodeKey, msg.ringPk, msg.petPk⟩

/-- A node is written, under a key that is there or under the hexadecimal form of a public key. -/
def WritesNode (s t : State Γ.toEnv) : Prop := t.rings = s.rings ∧ ∃ key nodeInfo,
  t.nodeInfos = s.nodeInfos.set key nodeInfo ∧
    ((s.nodeInfos.get key).isSome = true ∨ ∃ publicKey, key = Bytes.hex publicKey)

/-- Whether a message creates a ring or confirms its keys. -/
def Message.forms : Message → Bool
  | .createRing _ => true
  | .finalizeRing _ => true
  | _ => false

inductive RingEffect (s t : State Γ.toEnv) : Message → Prop
  | created {msg : MsgCreateRing} (creatorDID : Bytes) (defaults : ReportingDefaults)
      (absent : s.rings.get msg.ringID = none) (valid : validateRing Γ.toEnv (msg.ring creatorDID defaults) = .ok ())
      (known : ∀ key ∈ canonicalStrings msg.peerNodeKeys, (s.nodeInfos.get key).isSome = true)
      (rings : t.rings = s.rings.set msg.ringID (msg.ring creatorDID defaults).canonical)
      (nodeInfos : t.nodeInfos = s.nodeInfos) : RingEffect s t (.createRing msg)
  | disputed {msg : MsgFinalizeRing} (ring : Ring) (nodeKey : Bytes) (confirms : Confirms Γ s msg ring nodeKey)
      (rings : t.rings = s.rings.delete ring.id) (nodeInfos : t.nodeInfos = s.nodeInfos) : RingEffect s t (.finalizeRing msg)
  | confirmed {msg : MsgFinalizeRing} (ring : Ring) (nodeKey : Bytes) (confirms : Confirms Γ s msg ring nodeKey)
      (agrees : ∀ c ∈ ring.confirmations, ring.conflicts (msg.confirmation nodeKey) c = false)
      (missing : ring.confirmations.length + 1 < ring.peerNodeKeys.length)
      (rings : t.rings = s.rings.set ring.id (ring.withConfirmation (msg.confirmation nodeKey)).canonical)
      (nodeInfos : t.nodeInfos = s.nodeInfos) : RingEffect s t (.finalizeRing msg)
  | finalized {msg : MsgFinalizeRing} (ring : Ring) (nodeKey : Bytes) (confirms : Confirms Γ s msg ring nodeKey)
      (agrees : ∀ c ∈ ring.confirmations, ring.conflicts (msg.confirmation nodeKey) c = false)
      (complete : ring.peerNodeKeys.length ≤ ring.confirmations.length + 1)
      (valid : validateRing Γ.toEnv (ring.withKeys msg.ringPk msg.petPk) = .ok ())
      (rings : t.rings = s.rings.set ring.id (ring.withKeys msg.ringPk msg.petPk).canonical)
      (nodeInfos : t.nodeInfos = s.nodeInfos) : RingEffect s t (.finalizeRing msg)
  | cancelled {msg : MsgCancelPendingRing} (ring : Ring) (stored : s.rings.get msg.ringId = some ring)
      (forming : ring.ringPk = []) (rings : t.rings = s.rings.delete ring.id) (nodeInfos : t.nodeInfos = s.nodeInfos) :
      RingEffect s t (.cancelPendingRing msg)
  | revised {msg : Message} (later : msg.forms = false) (rings : RevisesRing s t) : RingEffect s t msg
  | onNodes {msg : Message} (later : msg.forms = false) (writes : WritesNode s t) : RingEffect s t msg

/-! ## Rings that are formed -/

theorem requireNodeInfos_eq_ok {field : String}
    (h : requireNodeInfos Γ field nodeInfos keys = .ok ()) : ∀ key ∈ keys, (nodeInfos.get key).isSome = true := by
  induction keys with
  | nil =>
    intro key hke
    cases hke
  | cons first rest ih =>
    obtain ⟨_, hf, hrest⟩ := except_bind_eq_ok.1 h
    intro key hke
    rcases mem_cons.1 hke with rfl | hke
    · exact check_eq_ok.1 hf
    · exact ih hrest key hke

theorem createRing_effect {msg : MsgCreateRing}
    (h : (createRing msg).Succeeds s id t) : RingEffect s t (.createRing msg) := by
  unfold createRing actorDID ensureRingCreatePermission at h
  simp only [query_bind_ok, read_bind_ok, pass_bind_ok] at h
  obtain ⟨creatorDID, _, _, hkn, _, ha, _, _, _, hv, _, _, _, _, h⟩ := h
  simp only [bind_ok] at h
  obtain ⟨_, s₁, hr, _, s₂, hs, _, s₃, hem, h⟩ := h
  obtain ⟨env, _, hr⟩ := query_bind_ok.1 hr
  have ht := (pure_ok.1 h).2
  rw [modify_ok.1 hem, modify_ok.1 hs, modify_ok.1 hr] at ht
  exact .created creatorDID (Γ.defaultReporting s.env) (Option.isNone_iff_eq_none.1 (check_eq_ok.1 ha)) hv
    (requireNodeInfos_eq_ok hkn) (by rw [ht]; rfl) (by rw [ht])

theorem validateFinalizePetPk_eq_ok {petPk : Option Bytes}
    (h : validateFinalizePetPk Γ ring petPk = .ok ()) : ring.requiresPet = petPk.isSome := by
  obtain ⟨_, hr, h⟩ := except_bind_eq_ok.1 h
  obtain ⟨_, ha, _⟩ := except_bind_eq_ok.1 h
  exact Bool.eq_iff_iff.2 ⟨check_eq_ok.1 hr, check_eq_ok.1 ha⟩

theorem finalizeRing_effect {msg : MsgFinalizeRing} {outcome : FinalizeRingOutcome}
    (hna : msg.ringPk ≠ []) (h : (finalizeRing msg).Succeeds s outcome t) : RingEffect s t (.finalizeRing msg) := by
  unfold finalizeRing signerKey at h
  simp only [requireRing_bind_ok, pass_bind_ok, query_bind_ok] at h
  obtain ⟨ring, hstored, _, hf, _, _, _, hp, nodeKey, hs, _, hme, _, hfi, h⟩ := h
  have hco : Confirms Γ s msg ring nodeKey := ⟨hstored, check_eq_ok.1 hf, hna,
    ofExcept_eq_ok.1 hs, validateFinalizePetPk_eq_ok hp, check_eq_ok.1 hme, check_eq_ok.1 hfi⟩
  split at h
  · obtain ⟨_, s₁, hd, h⟩ := bind_ok.1 h
    obtain ⟨_, s₂, hem, h⟩ := bind_ok.1 h
    have ht := (pure_ok.1 h).2
    rw [modify_ok.1 hem, modify_ok.1 hd] at ht
    exact .disputed ring nodeKey hco (by rw [ht]) (by rw [ht])
  · rename_i ha
    have ha : ∀ c ∈ ring.confirmations, ring.conflicts (msg.confirmation nodeKey) c = false := by
      intro c hc
      have hnone := any_eq_false.1 (Bool.not_eq_true _ ▸ ha) c hc
      exact Bool.not_eq_true _ ▸ hnone
    have hlength : (ring.withConfirmation ⟨nodeKey, msg.ringPk, msg.petPk⟩).confirmations.length =
        ring.confirmations.length + 1 := by
      simp [Ring.withConfirmation]
    rw [hlength] at h
    split at h
    · rename_i hm
      obtain ⟨_, s₁, hse, h⟩ := bind_ok.1 h
      have ht := (pure_ok.1 h).2
      rw [modify_ok.1 hse] at ht
      exact .confirmed ring nodeKey hco ha hm (by rw [ht]; rfl) (by rw [ht])
    · rename_i hcom
      obtain ⟨_, _, h⟩ := query_bind_ok.1 h
      obtain ⟨_, hv, h⟩ := pass_bind_ok.1 h
      obtain ⟨_, s₁, hse, h⟩ := bind_ok.1 h
      obtain ⟨_, s₂, hem, h⟩ := bind_ok.1 h
      have ht := (pure_ok.1 h).2
      rw [modify_ok.1 hem, modify_ok.1 hse] at ht
      exact .finalized ring nodeKey hco ha (Nat.not_lt.1 hcom) hv (by rw [ht]; rfl) (by rw [ht])

theorem mayCancel_state {b : Bool} (h : (mayCancel ring creator).Succeeds s b t) : t = s := by
  obtain ⟨nodeKey, _, h⟩ := query_bind_ok.1 h
  split at h
  · exact (pure_ok.1 h).2
  · obtain ⟨_, _, h⟩ := query_bind_ok.1 h
    exact (pure_ok.1 h).2

theorem cancelPendingRing_effect {msg : MsgCancelPendingRing}
    (h : (cancelPendingRing msg).Succeeds s u t) : RingEffect s t (.cancelPendingRing msg) := by
  obtain ⟨ring, hstored, h⟩ := requireRing_bind_ok.1 h
  obtain ⟨_, hf, h⟩ := pass_bind_ok.1 h
  obtain ⟨_, s₁, hm, h⟩ := bind_ok.1 h
  obtain ⟨_, _, h⟩ := pass_bind_ok.1 h
  obtain ⟨_, s₂, hd, hem⟩ := bind_ok.1 h
  have ht := modify_ok.1 hem
  rw [modify_ok.1 hd, mayCancel_state hm] at ht
  exact .cancelled ring hstored (check_eq_ok.1 hf) (by rw [ht]) (by rw [ht])

/-! ## Rings that are revised -/

theorem updateFinalizedRing_revises {ringId : Bytes} {change : State Γ.toEnv → Ring → Except Error (Ring × List Event)}
    (hch : ∀ stored next events, change s stored = .ok (next, events) →
      next.id = stored.id ∧ next.core = stored.core ∧ validateRing Γ.toEnv next = .ok ())
    (h : (updateFinalizedRing creator ringId change).Succeeds s u t) : RevisesRing s t := by
  unfold updateFinalizedRing actorDID ensureRingUpdatePermission at h
  simp only [requireRing_bind_ok, pass_bind_ok, query_bind_ok, read_bind_ok] at h
  obtain ⟨stored, hstored, _, _, _, _, _, _, ⟨next, events⟩, hne, h⟩ := h
  simp only [bind_ok] at h
  obtain ⟨_, s₁, hs, _, s₂, hem, hev⟩ := h
  obtain ⟨hid, hco, hv⟩ := hch stored next events hne
  have ht := forEach_emit_ok hev
  rw [modify_ok.1 hem, modify_ok.1 hs] at ht
  exact ⟨.inr ⟨ringId, stored, next, hstored, hid, .of_core hco hv, by rw [ht]⟩, by rw [ht]⟩

theorem setRingPssIntervalByAcp_revises {msg : MsgSetRingPssIntervalByAcp}
    (h : (setRingPssIntervalByAcp ctx msg).Succeeds s u t) : RevisesRing s t := by
  refine updateFinalizedRing_revises ?_ h
  intro stored next events hch
  simp only [except_bind_eq_ok] at hch
  obtain ⟨⟨ring, normalized⟩, hr, _, _, _, _, _, hv, hch⟩ := hch
  obtain ⟨info, rfl⟩ := maybeNormalizeMaturedRingUpgrade_eq_ok hr
  obtain ⟨rfl, _⟩ := Prod.mk.inj (Except.ok.inj hch)
  exact ⟨rfl, rfl, hv⟩

theorem scheduleRingUpgradeByAcp_revises {msg : MsgScheduleRingUpgradeByAcp}
    (h : (scheduleRingUpgradeByAcp ctx msg).Succeeds s u t) : RevisesRing s t := by
  refine updateFinalizedRing_revises ?_ h
  intro stored next events hch
  obtain ⟨now, _, hch⟩ := except_bind_eq_ok.1 hch
  obtain ⟨info, hin⟩ := normalizeMaturedRingUpgrade_eq stored now
  generalize normalizeMaturedRingUpgrade stored now = normalization at hch hin
  obtain ⟨ring, normalized⟩ := normalization
  obtain rfl : ring = { stored with upgradeInfo := info } := hin
  simp only [except_bind_eq_ok] at hch
  obtain ⟨_, _, _, _, _, hv, hch⟩ := hch
  obtain ⟨rfl, _⟩ := Prod.mk.inj (Except.ok.inj hch)
  exact ⟨rfl, rfl, hv⟩

theorem cancelRingUpgradeByAcp_revises {msg : MsgCancelRingUpgradeByAcp}
    (h : (cancelRingUpgradeByAcp ctx msg).Succeeds s u t) : RevisesRing s t := by
  refine updateFinalizedRing_revises ?_ h
  intro stored next events hch
  simp only [except_bind_eq_ok] at hch
  obtain ⟨_, _, _, _, _, _, _, hv, hch⟩ := hch
  obtain ⟨rfl, _⟩ := Prod.mk.inj (Except.ok.inj hch)
  exact ⟨rfl, rfl, hv⟩

theorem setRingReportingByAcp_revises {msg : MsgSetRingReportingByAcp}
    (h : (setRingReportingByAcp ctx msg).Succeeds s u t) : RevisesRing s t := by
  refine updateFinalizedRing_revises ?_ h
  intro stored next events hch
  simp only [except_bind_eq_ok] at hch
  obtain ⟨⟨ring, normalized⟩, hr, _, hv, _, _, hch⟩ := hch
  obtain ⟨info, rfl⟩ := maybeNormalizeMaturedRingUpgrade_eq_ok hr
  obtain ⟨rfl, _⟩ := Prod.mk.inj (Except.ok.inj hch)
  exact ⟨rfl, rfl, hv⟩

theorem updateRelays_revises {msg : MsgRingTrustedAuthRelayByAcp} {change : List Bytes → Except Error (List Bytes)}
    (h : (updateRelays msg change).Succeeds s u t) : RevisesRing s t := by
  unfold updateRelays actorDID ensureRingUpdatePermission at h
  simp only [requireRing_bind_ok, pass_bind_ok, query_bind_ok] at h
  obtain ⟨ring, hr, _, _, _, _, _, _, _, _, relays, _, _, hv, h⟩ := h
  obtain ⟨_, s₁, hs, hem⟩ := bind_ok.1 h
  have ht := modify_ok.1 hem
  rw [modify_ok.1 hs] at ht
  exact ⟨.inr ⟨msg.ringId, ring, { ring with trustedAuthRelayDids := relays }, hr, rfl, .of_core rfl hv, by rw [ht]⟩,
    by rw [ht]⟩

/-! ## Rings that are reshared -/

theorem requireMembers_eq_ok {Γ : Env}
    (h : requireMembers Γ nodeInfos ring keys = .ok ()) : ∀ key ∈ keys, (nodeInfos.get key).isSome = true := by
  induction keys with
  | nil =>
    intro key hke
    cases hke
  | cons first rest ih =>
    unfold requireMembers at h
    intro key hke
    cases hget : nodeInfos.get first with
    | none =>
      rw [hget] at h
      cases h
    | some nodeInfo =>
      rw [hget] at h
      obtain ⟨_, _, hrest⟩ := except_bind_eq_ok.1 h
      rcases mem_cons.1 hke with rfl | hke
      · rw [hget]
        rfl
      · exact ih hrest key hke

theorem startRingReshareByAcp_revises {msg : MsgStartRingReshareByAcp}
    (h : (startRingReshareByAcp ctx msg).Succeeds s u t) : RevisesRing s t := by
  obtain ⟨stored, info, ring, hstored, hf, rfl, hm, hv, hr, hno⟩ :=
    startRingReshareByAcp_ok h
  have hkn := requireMembers_eq_ok hm
  refine ⟨.inr ⟨msg.ringId, stored, Ring.withReshare { stored with upgradeInfo := info } (canonicalStrings msg.newPeerNodeKeys)
    msg.newThreshold, hstored, rfl, ⟨rfl, rfl, rfl, hv, ?_, ?_⟩, hr⟩, hno⟩
  · intro key hke
    rcases mem_append.1 hke with hke | hke
    · exact .inl (mem_append_left _ hke)
    · by_cases hnew : canonicalStrings msg.newPeerNodeKeys = []
      · simp only [Ring.withReshare, if_pos hnew] at hke
        exact .inl (mem_append_right _ hke)
      · simp only [Ring.withReshare, if_neg hnew] at hke
        exact .inr (hkn key hke)
  · intro hfo
    exact absurd hfo hf

theorem cancelRingReshareByAcp_revises {msg : MsgCancelRingReshareByAcp}
    (h : (cancelRingReshareByAcp msg).Succeeds s u t) : RevisesRing s t := by
  obtain ⟨ring, hri, hf, hv, hr, hno⟩ := cancelRingReshareByAcp_ok h
  refine ⟨.inr ⟨msg.ringId, ring, ring.withoutReshare, hri, rfl, ⟨rfl, rfl, rfl, hv, ?_, ?_⟩, hr⟩, hno⟩
  · intro key hke
    exact .inl (mem_append_left _ (by simpa [Ring.withoutReshare] using hke))
  · intro hfo
    exact absurd hfo hf

theorem ringForReshareFinalization_eq_ok {Γ : Env} {finalized : Ring}
    (h : ringForReshareFinalization Γ ring = .ok finalized) : ring.resharePending = true ∧
      finalized = { ring.withoutReshare with peerNodeKeys := ring.targetCommittee, threshold := ring.targetThreshold } ∧
      validateRing Γ finalized = .ok () := by
  obtain ⟨_, hp, h⟩ := except_bind_eq_ok.1 h
  obtain ⟨_, hv, h⟩ := except_bind_eq_ok.1 h
  have hf := Except.ok.inj h
  exact ⟨check_eq_ok.1 hp, hf.symm, hf ▸ hv⟩

theorem mem_targetCommittee (h : key ∈ ring.targetCommittee) : key ∈ ring.peerNodeKeys ++ ring.newPeerNodeKeys := by
  unfold Ring.targetCommittee at h
  split at h
  · exact mem_append_left _ h
  · exact mem_append_right _ h

theorem finalizeRingReshareByThresholdSignature_revises {msg : MsgFinalizeRingReshareByThresholdSignature}
    (h : (finalizeRingReshareByThresholdSignature ctx msg).Succeeds s u t) :
    RevisesRing s t := by
  obtain ⟨ring, finalized, hri, hf, _, hr, hno⟩ := finalizeRingReshareByThresholdSignature_ok h
  obtain ⟨hp, rfl, hv⟩ := ringForReshareFinalization_eq_ok hf
  refine ⟨.inr ⟨msg.ringId, ring, { ring.withoutReshare with
    peerNodeKeys := ring.targetCommittee, threshold := ring.targetThreshold
    blockNumberNonce := UInt64.ofInt ctx.blockHeight }, hri, rfl, ⟨rfl, rfl, rfl, hv, ?_, ?_⟩, hr⟩, hno⟩
  · intro key hke
    exact .inl (mem_targetCommittee (by simpa [Ring.withoutReshare] using hke))
  · intro _ hnot
    rw [hp] at hnot
    cases hnot

theorem selectAutoReshareReplacement_known {passed backups : List Bytes} {replacement : Bytes} {remaining : List Bytes}
    (h : selectAutoReshareReplacement nodeInfos ring passed backups = some (replacement, remaining)) :
    (nodeInfos.get replacement).isSome = true := by
  induction backups generalizing passed with
  | nil => cases h
  | cons backup rest ih =>
    unfold selectAutoReshareReplacement at h
    split at h
    · exact ih h
    · split at h
      · exact ih h
      · rename_i nodeInfo hget
        split at h
        · obtain ⟨rfl, _⟩ := Prod.mk.inj (Option.some.inj h)
          rw [hget]
          rfl
        · exact ih h

theorem submitReport_revises {msg : MsgSubmitReport} (h : (submitReport ctx msg).Succeeds s id t) : RevisesRing s t := by
  obtain ⟨v, hv, ⟨hr, hno⟩ | ⟨replacement, backups, hp, hs, hva, hr, hno⟩⟩ :=
    submitReport_reshares h
  · exact ⟨.inl hr, hno⟩
  · refine ⟨.inr ⟨msg.report.ringId, v.ring, v.ring.withReplacement msg.report.accusedNodeKey replacement backups, hv.ring, rfl,
      ⟨rfl, rfl, rfl, hva, ?_, ?_⟩, hr⟩, hno⟩
    · intro key hke
      rcases mem_append.1 hke with hke | hke
      · exact .inl (mem_append_left _ hke)
      · have hmem := (mem_insertionSort _).1 hke
        rcases mem_append.1 hmem with hold | hnew
        · exact .inl (mem_append_left _ (mem_filter.1 hold).1)
        · rw [mem_singleton.1 hnew]
          exact .inr (selectAutoReshareReplacement_known hs)
    · intro hf
      exact absurd hf hv.finalized

/-! ## Nodes -/

theorem signerPublicKeyHex_eq_ok {env : Γ.σ} {address : Bytes} (h : signerPublicKeyHex Γ env address = .ok key) :
    ∃ publicKey, key = Bytes.hex publicKey := by
  unfold signerPublicKeyHex at h
  split at h
  · cases h
  · split at h
    · cases h
    · cases h
    · exact ⟨_, (Except.ok.inj h).symm⟩

theorem createNodeInfo_writes {msg : MsgCreateNodeInfo} (h : (createNodeInfo msg).Succeeds s u t) : WritesNode s t := by
  obtain ⟨nodeKey, hs, h⟩ := query_bind_ok.1 h
  rw [read_bind_ok] at h
  obtain ⟨_, _, h⟩ := pass_bind_ok.1 h
  obtain ⟨nodeInfo, _, h⟩ := pass_bind_ok.1 h
  obtain ⟨_, s₁, hse, hem⟩ := bind_ok.1 h
  have ht := modify_ok.1 hem
  rw [modify_ok.1 hse] at ht
  exact ⟨by rw [ht], nodeKey, nodeInfo, by rw [ht], .inr (signerPublicKeyHex_eq_ok (ofExcept_eq_ok.1 hs))⟩

theorem authorizeNodeInfoUpdate_ok {nodeInfo : NodeInfo}
    (h : (authorizeNodeInfoUpdate nodeKey creator).Succeeds s nodeInfo t) : t = s ∧ s.nodeInfos.get nodeKey = some nodeInfo := by
  unfold authorizeNodeInfoUpdate at h
  rw [read_bind_ok] at h
  obtain ⟨stored, hstored, h⟩ := lift_bind_ok.1 h
  obtain ⟨_, _, h⟩ := query_bind_ok.1 h
  obtain ⟨_, _, h⟩ := pass_bind_ok.1 h
  obtain ⟨rfl, ht⟩ := pure_ok.1 h
  exact ⟨ht, ofOption_eq_ok.1 hstored⟩

theorem updateNodeInfo_writes {change : NodeInfo → Except Error NodeInfo}
    (h : (updateNodeInfo nodeKey creator change).Succeeds s u t) : WritesNode s t := by
  obtain ⟨nodeInfo, s₁, ha, hrest⟩ := bind_ok.1 h
  obtain ⟨hs₁, hstored⟩ := authorizeNodeInfoUpdate_ok ha
  obtain ⟨next, _, hw⟩ := pass_bind_ok.1 hrest
  obtain ⟨_, s₂, hse, hem⟩ := bind_ok.1 hw
  have ht := modify_ok.1 hem
  rw [modify_ok.1 hse, hs₁] at ht
  exact ⟨by rw [ht], nodeKey, next, by rw [ht], .inl (by rw [hstored]; rfl)⟩

/-! ## Turns -/

theorem Message.deliver_effect {msg : Message} (h : (msg.deliver ctx).Succeeds s u t) : RingEffect s t msg := by
  obtain ⟨_, hb, h⟩ := pass_bind_ok.1 h
  cases msg with
  | createRing msg =>
    obtain ⟨_, s₁, hcall, hp⟩ := bind_ok.1 h
    rw [(pure_ok.1 hp).2]
    exact createRing_effect hcall
  | finalizeRing msg =>
    obtain ⟨_, _, hna⟩ := except_bind_eq_ok.1 hb
    obtain ⟨_, s₁, hcall, hp⟩ := bind_ok.1 h
    rw [(pure_ok.1 hp).2]
    exact finalizeRing_effect (check_eq_ok.1 hna) hcall
  | cancelPendingRing msg => exact cancelPendingRing_effect h
  | startRingReshareByAcp msg => exact .revised rfl (startRingReshareByAcp_revises h)
  | cancelRingReshareByAcp msg => exact .revised rfl (cancelRingReshareByAcp_revises h)
  | finalizeRingReshareByThresholdSignature msg => exact .revised rfl (finalizeRingReshareByThresholdSignature_revises h)
  | setRingPssIntervalByAcp msg => exact .revised rfl (setRingPssIntervalByAcp_revises h)
  | scheduleRingUpgradeByAcp msg => exact .revised rfl (scheduleRingUpgradeByAcp_revises h)
  | cancelRingUpgradeByAcp msg => exact .revised rfl (cancelRingUpgradeByAcp_revises h)
  | setRingReportingByAcp msg => exact .revised rfl (setRingReportingByAcp_revises h)
  | addRingTrustedAuthRelayByAcp msg =>
    have hcall : (Orbis.addRingTrustedAuthRelayByAcp msg).Succeeds s u t := h
    exact .revised rfl (updateRelays_revises hcall)
  | removeRingTrustedAuthRelayByAcp msg =>
    have hcall : (Orbis.removeRingTrustedAuthRelayByAcp msg).Succeeds s u t := h
    exact .revised rfl (updateRelays_revises hcall)
  | submitReport creator msg =>
    obtain ⟨_, s₁, hcall, hp⟩ := bind_ok.1 h
    rw [(pure_ok.1 hp).2]
    exact .revised rfl (submitReport_revises hcall)
  | createNodeInfo msg => exact .onNodes rfl (createNodeInfo_writes h)
  | updateNodePeerId msg =>
    have hcall : (Orbis.updateNodePeerId msg).Succeeds s u t := h
    exact .onNodes rfl (updateNodeInfo_writes hcall)
  | transferNodeController msg =>
    have hcall : (Orbis.transferNodeController msg).Succeeds s u t := h
    exact .onNodes rfl (updateNodeInfo_writes hcall)
  | addNodeToWhitelist msg =>
    have hcall : (Orbis.addNodeToWhitelist msg).Succeeds s u t := h
    exact .onNodes rfl (updateNodeInfo_writes hcall)
  | removeNodeFromWhitelist msg =>
    have hcall : (Orbis.removeNodeFromWhitelist msg).Succeeds s u t := h
    exact .onNodes rfl (updateNodeInfo_writes hcall)

def Ledger.accepts (ledger : Ledger Γ) (msg : Message) : Bool := (msg.deliver ledger.ctx ledger.state).1.isOk

theorem deletePairs_keeps {Γ : Env} (l : List (Bytes × Bytes)) (s : State Γ) :
    (l.foldl State.deletePair s).rings = s.rings ∧ (l.foldl State.deletePair s).nodeInfos = s.nodeInfos ∧
      (l.foldl State.deletePair s).demerits = s.demerits ∧ (l.foldl State.deletePair s).env = s.env := by
  induction l generalizing s with
  | nil => exact ⟨rfl, rfl, rfl, rfl⟩
  | cons entry rest ih => exact ih (s.deletePair entry)

theorem Ledger.step_cases (ledger : Ledger Γ) (turn : Turn Γ) :
    ((ledger.step turn).state.rings = ledger.state.rings ∧ (ledger.step turn).state.nodeInfos = ledger.state.nodeInfos ∧
      ∀ msg, turn = .message msg → ledger.accepts msg = false) ∨
    ∃ msg, turn = .message msg ∧ ledger.accepts msg = true ∧ RingEffect ledger.state (ledger.step turn).state msg := by
  cases turn with
  | message msg =>
    cases ha : ledger.accepts msg with
    | true =>
      have hsu := ok_unit_of_isOk ha
      have hs : (ledger.step (.message msg)).state = (msg.deliver ledger.ctx ledger.state).2 := hsu.commit_eq
      exact .inr ⟨msg, rfl, ha, by rw [hs]; exact Message.deliver_effect hsu⟩
    | false =>
      have hs : (ledger.step (.message msg)).state = ledger.state := by
        rcases commit_cases (msg.deliver ledger.ctx) ledger.state with hsame | ⟨_, hsu⟩
        · exact hsame
        · unfold Ledger.accepts at ha
          rw [hsu] at ha
          cases ha
      refine .inl ⟨by rw [hs], by rw [hs], ?_⟩
      rintro _ ⟨⟩
      exact ha
  | endBlock =>
    obtain ⟨hr, hno, _⟩ := deletePairs_keeps
      (expiredPairs (UInt64.ofInt ledger.ctx.unixTime) ledger.state.acceptedExpiry.entries) ledger.state
    exact .inl ⟨hr, hno, fun _ h => nomatch h⟩
  | newBlock ctx => exact .inl ⟨rfl, rfl, fun _ h => nomatch h⟩
  | other env => exact .inl ⟨rfl, rfl, fun _ h => nomatch h⟩

end Vera.Orbis
