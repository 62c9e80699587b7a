import Mathlib.Data.Set.List
import Vera.Orbis.RingChanges

/-!
# Every stored ring is well formed

A ring is checked before it is stored, and only then are its lists sorted; the checks do not depend on the order. The nodes of a
committee are known when they join it. A node is known under the hexadecimal form of its public key, which is not written in a
second way, so that different keys of a committee are different public keys.
-/

namespace Vera.Orbis

open KVStore List
open Bytes (str)

/-! ## Sorted lists -/

section Sorted

instance : Std.Total fun a b : Bytes => compare a b ≠ .gt where
  total a b := by
    by_cases h : compare a b = .gt
    · right
      have hswap : compare b a = (compare a b).swap := Std.OrientedCmp.eq_swap
      rw [hswap, h]
      decide
    · exact .inl h

instance : IsTrans Bytes fun a b => compare a b ≠ .gt where
  trans a b c hab hbc := by
    have hle := Std.TransCmp.isLE_trans (Ordering.isLE_iff_ne_gt.2 hab) (Ordering.isLE_iff_ne_gt.2 hbc)
    exact Ordering.isLE_iff_ne_gt.1 hle

def Sorted (values : List Bytes) : Prop := values.Pairwise fun a b => compare a b ≠ .gt

theorem canonicalStrings_perm (values : List Bytes) : (canonicalStrings values).Perm values := perm_insertionSort _ _

theorem sorted_canonicalStrings (values : List Bytes) : Sorted (canonicalStrings values) := pairwise_insertionSort _ _

theorem canonicalStrings_canonicalStrings (values : List Bytes) :
    canonicalStrings (canonicalStrings values) = canonicalStrings values :=
  (sorted_canonicalStrings values).insertionSort_eq

variable {values : List Bytes}

@[simp] theorem mem_canonicalStrings {value : Bytes} : value ∈ canonicalStrings values ↔ value ∈ values :=
  (canonicalStrings_perm values).mem_iff

@[simp] theorem length_canonicalStrings (values : List Bytes) : (canonicalStrings values).length = values.length :=
  (canonicalStrings_perm values).length_eq

@[simp] theorem canonicalStrings_eq_nil : canonicalStrings values = [] ↔ values = [] := by
  rw [← length_eq_zero_iff, length_canonicalStrings, length_eq_zero_iff]

end Sorted

variable {Γ : Env}

/-! ## What the checks of a ring say -/

theorem check_bind_eq_ok {x : Except Error Unit} {f : Unit → Except Error Unit} :
    x >>= f = .ok () ↔ x = .ok () ∧ f () = .ok () := by
  rw [except_bind_eq_ok]
  exact ⟨fun ⟨_, hx, hf⟩ => ⟨hx, hf⟩, fun ⟨hx, hf⟩ => ⟨(), hx, hf⟩⟩

/-- A loop that passes on the keys of what it has seen: each element passes its own check and no key comes twice. -/
theorem unseenBy_cons_iff {α β : Type} {P : α → Prop} {key : α → β} {x : α} {rest : List α} {seen : List β} :
    P x ∧ key x ∉ seen ∧ (∀ y ∈ rest, P y ∧ key y ∉ key x :: seen) ∧ (rest.map key).Nodup ↔
      (∀ y ∈ x :: rest, P y ∧ key y ∉ seen) ∧ ((x :: rest).map key).Nodup := by
  rw [forall_mem_cons, map_cons, nodup_cons]
  constructor
  · rintro ⟨hx, hnew, hrest, hno⟩
    refine ⟨⟨⟨hx, hnew⟩, ?_⟩, ?_, hno⟩
    · intro y hy
      exact ⟨(hrest y hy).1, fun hs => (hrest y hy).2 (mem_cons_of_mem _ hs)⟩
    · intro hmem
      obtain ⟨y, hy, hke⟩ := mem_map.1 hmem
      exact (hrest y hy).2 (hke ▸ mem_cons_self)
  · rintro ⟨⟨⟨hx, hnew⟩, hrest⟩, ha, hno⟩
    refine ⟨hx, hnew, ?_, hno⟩
    intro y hy
    refine ⟨(hrest y hy).1, ?_⟩
    intro hs
    rcases mem_cons.1 hs with hke | hs
    · exact ha (mem_map.2 ⟨y, hy, hke⟩)
    · exact (hrest y hy).2 hs

variable {seen keys relays : List Bytes} {ring : Ring} {nodeInfos : KVStore Bytes NodeInfo} {s t : State Γ}

theorem unseen_cons_iff {P : Bytes → Prop} {value : Bytes} {rest : List Bytes} :
    P value ∧ value ∉ seen ∧ (∀ other ∈ rest, P other ∧ other ∉ value :: seen) ∧ rest.Nodup ↔
      (∀ other ∈ value :: rest, P other ∧ other ∉ seen) ∧ (value :: rest).Nodup := by
  have h := @unseenBy_cons_iff _ _ P id value rest seen
  simpa only [map_id, id] using h

theorem validateUniqueFrom_eq_ok : validateUniqueFrom Γ seen keys = .ok () ↔
    (∀ key ∈ keys, validatePeerNodeKeyFormat Γ key = .ok () ∧ key ∉ seen) ∧ keys.Nodup := by
  induction keys generalizing seen with
  | nil =>
    simp [validateUniqueFrom]
    rfl
  | cons key rest ih =>
    rw [validateUniqueFrom, check_bind_eq_ok, check_bind_eq_ok, check_eq_ok, ← unseen_cons_iff, ← ih]

theorem validateUniquePeerNodeKeys_eq_ok : validateUniquePeerNodeKeys Γ keys = .ok () ↔
    (∀ key ∈ keys, validatePeerNodeKeyFormat Γ key = .ok ()) ∧ keys.Nodup := by
  unfold validateUniquePeerNodeKeys
  rw [validateUniqueFrom_eq_ok]
  simp

/-- A relay is named by a plain Ed25519 `did:key`. -/
def RelayAllowed (Γ : Env) (relayDID : Bytes) : Prop :=
  (relayDID ≠ [] ∧ Γ.trimSpace relayDID = relayDID) ∧ Γ.didKeyIsEd25519 relayDID = .ok true

theorem validateRelaysFrom_eq_ok : validateRelaysFrom Γ seen relays = .ok () ↔
    (∀ relay ∈ relays, RelayAllowed Γ relay ∧ relay ∉ seen) ∧ relays.Nodup := by
  induction relays generalizing seen with
  | nil =>
    simp [validateRelaysFrom]
    rfl
  | cons relay rest ih =>
    rw [validateRelaysFrom, check_bind_eq_ok, check_eq_ok, ← unseen_cons_iff, ← ih]
    unfold RelayAllowed
    cases Γ.didKeyIsEd25519 relay with
    | error e => simp [check_bind_eq_ok]
    | ok ed25519 => simp [check_bind_eq_ok, check_eq_ok, and_assoc]

/-- The checks of a ring one by one. -/
structure Ring.Valid (Γ : Env) (ring : Ring) : Prop where
  id : ring.id ≠ []
  peers : ring.peerNodeKeys ≠ []
  threshold : ring.threshold ≠ 0 ∧ ring.threshold.toNat ≤ ring.peerNodeKeys.length
  policyId : ring.policyId ≠ []
  upgradeInfo : validateUpgradeInfo ring.upgradeInfo = .ok ()
  reporting : validateReportingConfig Γ ring.reporting = .ok ()
  relays : validateTrustedAuthRelayConfig Γ ring.allowTrustedAuthRelays ring.trustedAuthRelayDids = .ok ()
  peerKeys : validateUniquePeerNodeKeys Γ ring.peerNodeKeys = .ok ()
  newKeys : validateUniquePeerNodeKeys Γ ring.newPeerNodeKeys = .ok ()
  newThreshold : ring.newThreshold ≠ some 0
  target : ring.resharePending = true → ring.targetThreshold ≤ UInt32.ofNat ring.targetCommittee.length

theorem validateUniquePeerNodeKeys_bind_eq_ok {y : Except Error Unit} :
    (if 0 < keys.length then validateUniquePeerNodeKeys Γ keys >>= fun _ => y else y) = .ok () ↔
      validateUniquePeerNodeKeys Γ keys = .ok () ∧ y = .ok () := by
  cases keys with
  | nil =>
    have hni : validateUniquePeerNodeKeys Γ [] = .ok () := rfl
    simp [hni]
  | cons key rest => simp [check_bind_eq_ok]

theorem validateEffectiveReshareThreshold_eq_ok :
    (if ring.resharePending = true then validateEffectiveReshareThreshold ring.targetThreshold ring.targetCommittee.length
      else pure ()) = .ok () ↔
      (ring.resharePending = true → ring.targetThreshold ≤ UInt32.ofNat ring.targetCommittee.length) := by
  cases ring.resharePending with
  | true => simp [validateEffectiveReshareThreshold, check_eq_ok]
  | false =>
    simp
    rfl

theorem validateRing_eq_ok : validateRing Γ ring = .ok () ↔ ring.Valid Γ := by
  unfold validateRing
  dsimp only
  simp only [check_bind_eq_ok, check_eq_ok]
  rw [validateUniquePeerNodeKeys_bind_eq_ok, check_bind_eq_ok, check_eq_ok, validateEffectiveReshareThreshold_eq_ok]
  constructor
  · rintro ⟨hid, hpe, ht, hpolicy, hu, hr, hre, hp, hnewK, hne, hta⟩
    exact ⟨hid, hpe, ht, hpolicy, hu, hr, hre, hp, hnewK, hne, hta⟩
  · rintro ⟨hid, hpe, ht, hpolicy, hu, hr, hre, hp, hnewK, hne, hta⟩
    exact ⟨hid, hpe, ht, hpolicy, hu, hr, hre, hp, hnewK, hne, hta⟩

/-! ## The order of the lists -/

theorem validateUniquePeerNodeKeys_perm {keys' : List Bytes} (hp : keys'.Perm keys)
    (h : validateUniquePeerNodeKeys Γ keys = .ok ()) : validateUniquePeerNodeKeys Γ keys' = .ok () := by
  obtain ⟨hf, hno⟩ := validateUniquePeerNodeKeys_eq_ok.1 h
  exact validateUniquePeerNodeKeys_eq_ok.2 ⟨fun key hke => hf key (hp.mem_iff.1 hke), hp.nodup_iff.2 hno⟩

theorem validateTrustedAuthRelayConfig_perm {allow : Bool} {relays' : List Bytes} (hp : relays'.Perm relays)
    (h : validateTrustedAuthRelayConfig Γ allow relays = .ok ()) : validateTrustedAuthRelayConfig Γ allow relays' = .ok () := by
  unfold validateTrustedAuthRelayConfig at h ⊢
  rw [check_bind_eq_ok, check_eq_ok, validateRelaysFrom_eq_ok] at h ⊢
  obtain ⟨ha, hr, hno⟩ := h
  refine ⟨?_, fun relay hre => hr relay (hp.mem_iff.1 hre), hp.nodup_iff.2 hno⟩
  rcases ha with ha | hempty
  · exact .inl ha
  · right
    rw [hempty] at hp
    exact hp.eq_nil

@[simp] theorem Ring.canonical_resharePending (ring : Ring) : ring.canonical.resharePending = ring.resharePending := by
  simp [Ring.resharePending, Ring.canonical]

theorem Ring.canonical_targetCommittee (ring : Ring) :
    ring.canonical.targetCommittee = canonicalStrings ring.targetCommittee := by
  by_cases hnew : ring.newPeerNodeKeys = []
  · simp [Ring.targetCommittee, Ring.canonical, hnew]
  · simp [Ring.targetCommittee, Ring.canonical, hnew]

theorem Ring.Valid.canonical (h : ring.Valid Γ) : ring.canonical.Valid Γ where
  id := h.id
  peers := fun hni => h.peers (canonicalStrings_eq_nil.1 hni)
  threshold := ⟨h.threshold.1, by
    have hle := h.threshold.2
    rwa [← length_canonicalStrings ring.peerNodeKeys] at hle⟩
  policyId := h.policyId
  upgradeInfo := h.upgradeInfo
  reporting := h.reporting
  relays := validateTrustedAuthRelayConfig_perm (canonicalStrings_perm _) h.relays
  peerKeys := validateUniquePeerNodeKeys_perm (canonicalStrings_perm _) h.peerKeys
  newKeys := validateUniquePeerNodeKeys_perm (canonicalStrings_perm _) h.newKeys
  newThreshold := h.newThreshold
  target := by
    intro hp
    rw [Ring.canonical_resharePending] at hp
    rw [Ring.canonical_targetCommittee, length_canonicalStrings]
    exact h.target hp

/-! ## Reachable states -/

/-- A ring as it is stored: checked, sorted, of known nodes, and without a reshare until it has its key. -/
structure Ring.Sound (Γ : Env) (nodeInfos : KVStore Bytes NodeInfo) (ring : Ring) : Prop where
  valid : ring.Valid Γ
  sorted : ring.canonical = ring
  known : ∀ key ∈ ring.peerNodeKeys ++ ring.newPeerNodeKeys, (nodeInfos.get key).isSome = true
  pending : ring.resharePending = true → ring.ringPk ≠ []

/-- What is true of every state that is reached: the rings are sound and under their identifiers, the nodes under the
hexadecimal forms of public keys. -/
structure State.Sound (s : State Γ) : Prop where
  keyed : s.Keyed
  hexKeys : ∀ key, (s.nodeInfos.get key).isSome = true → ∃ publicKey, key = Bytes.hex publicKey
  rings : ∀ id ring, s.rings.get id = some ring → ring.Sound Γ s.nodeInfos

theorem Ring.canonical_canonical (ring : Ring) : ring.canonical.canonical = ring.canonical := by
  simp [Ring.canonical, canonicalStrings_canonicalStrings]

theorem Ring.mem_canonical {key : Bytes} :
    key ∈ ring.canonical.peerNodeKeys ++ ring.canonical.newPeerNodeKeys ↔ key ∈ ring.peerNodeKeys ++ ring.newPeerNodeKeys := by
  simp [Ring.canonical]

/-- A ring that is stored is sound when it is valid, of known nodes and not reshared before it has its key. -/
theorem Ring.Sound.of_canonical (hv : validateRing Γ ring = .ok ())
    (hkn : ∀ key ∈ ring.peerNodeKeys ++ ring.newPeerNodeKeys, (nodeInfos.get key).isSome = true)
    (hp : ring.resharePending = true → ring.ringPk ≠ []) : ring.canonical.Sound Γ nodeInfos where
  valid := (validateRing_eq_ok.1 hv).canonical
  sorted := ring.canonical_canonical
  known := fun key hke => hkn key (Ring.mem_canonical.1 hke)
  pending := fun h => hp (ring.canonical_resharePending ▸ h)

theorem State.Sound.of_same (hs : s.Sound) (hr : t.rings = s.rings) (hno : t.nodeInfos = s.nodeInfos) : t.Sound := by
  refine ⟨hs.keyed.of_eq hr, ?_, ?_⟩
  · rw [hno]
    exact hs.hexKeys
  · rw [hr, hno]
    exact hs.rings

theorem State.Sound.set (hs : s.Sound) (hri : ring.canonical.Sound Γ s.nodeInfos)
    (hr : t.rings = s.rings.set ring.id ring.canonical) (hno : t.nodeInfos = s.nodeInfos) : t.Sound := by
  refine ⟨hs.keyed.set ring hr, ?_, ?_⟩
  · rw [hno]
    exact hs.hexKeys
  · rw [hr, hno]
    exact All.set hs.rings hri

theorem State.Sound.delete (hs : s.Sound) {id : Bytes} (hr : t.rings = s.rings.delete id)
    (hno : t.nodeInfos = s.nodeInfos) : t.Sound := by
  refine ⟨hs.keyed.delete hr, ?_, ?_⟩
  · rw [hno]
    exact hs.hexKeys
  · rw [hr, hno]
    exact All.delete hs.rings id

theorem State.Sound.writesNode {Γ : RingEnv} {s t : State Γ.toEnv} (hs : s.Sound) (h : WritesNode s t) : t.Sound := by
  obtain ⟨hr, key, nodeInfo, hno, hkn⟩ := h
  have his : ∀ other, (s.nodeInfos.get other).isSome = true → (t.nodeInfos.get other).isSome = true := by
    intro other hot
    rw [hno, isSome_get_set]
    simp [hot]
  refine ⟨hs.keyed.of_eq hr, ?_, ?_⟩
  · intro other hot
    rw [hno, get_set] at hot
    split at hot
    · rename_i hsame
      rw [hsame]
      rcases hkn with hkn | hh
      · exact hs.hexKeys key hkn
      · exact hh
    · exact hs.hexKeys other hot
  · intro id ring hget
    rw [hr] at hget
    obtain ⟨hv, hso, hm, hp⟩ := hs.rings id ring hget
    exact ⟨hv, hso, fun k hk => his k (hm k hk), hp⟩

theorem validateRing_withConfirmation (ring : Ring) (confirmation : RingConfirmation) :
    validateRing Γ (ring.withConfirmation confirmation) = validateRing Γ ring := rfl

theorem State.Sound.effect {Γ : RingEnv} {s t : State Γ.toEnv} {msg : Message} (hs : s.Sound) (h : RingEffect s t msg) :
    t.Sound := by
  cases h with
  | created creatorDID defaults _ hv hkn hr hno =>
    refine hs.set (.of_canonical hv ?_ (fun h => nomatch h)) hr hno
    intro key hke
    rcases mem_append.1 hke with hke | hke
    · exact hkn key hke
    · cases hke
  | disputed ring _ _ hr hno => exact hs.delete hr hno
  | @confirmed msg ring nodeKey hco _ _ hr hno =>
    obtain ⟨hv, _, hkn, hp⟩ := hs.rings _ ring hco.stored
    have hcon := validateRing_eq_ok.2 hv
    rw [← validateRing_withConfirmation ring (msg.confirmation nodeKey)] at hcon
    exact hs.set (.of_canonical hcon hkn hp) hr hno
  | finalized ring nodeKey hco _ _ hv hr hno =>
    obtain ⟨_, _, hkn, _⟩ := hs.rings _ ring hco.stored
    exact hs.set (.of_canonical hv hkn (fun _ => hco.named)) hr hno
  | cancelled ring _ _ hr hno => exact hs.delete hr hno
  | revised _ hre =>
    obtain ⟨hr | ⟨id, ring, next, hget, _, hnex, hr⟩, hno⟩ := hre
    · exact hs.of_same hr hno
    · obtain ⟨_, _, hkn, hp⟩ := hs.rings id ring hget
      refine hs.set (.of_canonical hnex.valid ?_ ?_) hr hno
      · intro key hke
        rcases hnex.known key hke with hold | hnew
        · exact hkn key hold
        · exact hnew
      · intro hne hf
        rw [hnex.ringPk] at hf
        have hnotP : ring.resharePending = false := by
          cases hri : ring.resharePending with
          | false => rfl
          | true => exact absurd hf (hp hri)
        rw [(hnex.forming hf hnotP).2.1] at hne
        cases hne
  | onNodes _ hw => exact hs.writesNode hw

theorem Ledger.sound_step {Γ : RingEnv} {ledger : Ledger Γ} (hs : ledger.state.Sound) (turn : Turn Γ) :
    (ledger.step turn).state.Sound := by
  rcases ledger.step_cases turn with ⟨hr, hno, _⟩ | ⟨msg, _, _, hef⟩
  · exact hs.of_same hr hno
  · exact hs.effect hef

/-- A state without rings and nodes is sound, so every state is that a run from it reaches. -/
theorem Ledger.sound_run {Γ : RingEnv} {ledger : Ledger Γ} (hr : ledger.state.rings = KVStore.empty)
    (hno : ledger.state.nodeInfos = KVStore.empty) (turns : List (Turn Γ)) :
    (Run.run Ledger.step ledger turns).state.Sound := by
  have hst : ledger.state.Sound := by
    refine ⟨?_, ?_, ?_⟩
    · intro id ring hget
      rw [hr] at hget
      cases hget
    · intro key hke
      rw [hno] at hke
      cases hke
    · intro id ring hget
      rw [hr] at hget
      cases hget
  exact Run.run_invariant Ledger.step (I := fun l : Ledger Γ => l.state.Sound) (fun _ turn hs => Ledger.sound_step hs turn)
    hst turns

/-! ## Public keys -/

/-- A sorted list of keys that are the public keys, 33 bytes long, of different nodes. -/
structure Committee (Γ : Env) (keys : List Bytes) : Prop where
  sorted : Sorted keys
  decoded : ∃ publicKeys : List Bytes, publicKeys.Nodup ∧ List.Forall₂ (fun key publicKey =>
    Γ.hexDecodeString (Bytes.trimStart (str "0x") key) = .ok publicKey ∧ publicKey.length = compressedPubKeyLen) keys publicKeys

/-- Keys that are hexadecimal forms and pass their check are the public keys of different nodes. -/
theorem Committee.of_hex (hh : ∀ b, Γ.hexDecodeString (Bytes.hex b) = .ok b) (hs : Sorted keys)
    (hkeys : ∀ key ∈ keys, ∃ publicKey, key = Bytes.hex publicKey) (hv : validateUniquePeerNodeKeys Γ keys = .ok ()) :
    Committee Γ keys := by
  obtain ⟨hf, hno⟩ := validateUniquePeerNodeKeys_eq_ok.1 hv
  have hr : keys ∈ Set.range (List.map Bytes.hex) := by
    rw [Set.range_list_map]
    intro key hke
    obtain ⟨publicKey, rfl⟩ := hkeys key hke
    exact ⟨publicKey, rfl⟩
  obtain ⟨publicKeys, rfl⟩ := hr
  refine ⟨hs, publicKeys, hno.of_map, forall₂_map_left_iff.2 (forall₂_same.2 ?_)⟩
  intro publicKey hmem
  have hd : Γ.hexDecodeString (Bytes.trimStart (str "0x") (Bytes.hex publicKey)) = .ok publicKey := by
    rw [Bytes.trimStart_hex, hh]
  refine ⟨hd, ?_⟩
  have hke := hf _ (mem_map_of_mem hmem)
  unfold validatePeerNodeKeyFormat at hke
  rw [check_bind_eq_ok, hd] at hke
  exact check_eq_ok.1 hke.2

/-! ## Well-formed rings -/

/-- A ring that is well formed: it passes its checks, both committees are of different nodes, the threshold fits, a reshare is
pending only if the ring has its key, and its threshold fits the committee it would give. -/
structure Ring.WellFormed (Γ : Env) (ring : Ring) : Prop where
  valid : validateRing Γ ring = .ok ()
  committee : Committee Γ ring.peerNodeKeys
  newCommittee : Committee Γ ring.newPeerNodeKeys
  threshold : 1 ≤ ring.threshold.toNat ∧ ring.threshold.toNat ≤ ring.peerNodeKeys.length
  pending : ring.newPeerNodeKeys ≠ [] ∨ ring.newThreshold.isSome = true → ring.ringPk ≠ []
  target : ring.newPeerNodeKeys ≠ [] ∨ ring.newThreshold.isSome = true → ∃ finalized,
    ringForReshareFinalization Γ ring = .ok finalized ∧
      1 ≤ finalized.threshold.toNat ∧ finalized.threshold.toNat ≤ finalized.peerNodeKeys.length

theorem Ring.resharePending_iff :
    ring.resharePending = true ↔ ring.newPeerNodeKeys ≠ [] ∨ ring.newThreshold.isSome = true := by
  simp [Ring.resharePending]

theorem one_le_toNat {n : UInt32} (h : n ≠ 0) : 1 ≤ n.toNat := by
  rcases Nat.eq_zero_or_pos n.toNat with hz | hp
  · exact absurd (UInt32.toNat_inj.1 hz) h
  · exact hp

/-- The threshold after a pending reshare lies between 1 and the size of the committee. The size is cut to 32 bits before the
threshold is compared with it, which only makes it smaller. -/
theorem Ring.Valid.target_le (h : ring.Valid Γ) (hp : ring.resharePending = true) :
    ring.targetThreshold ≠ 0 ∧ ring.targetThreshold.toNat ≤ ring.targetCommittee.length := by
  constructor
  · unfold Ring.targetThreshold
    cases hnew : ring.newThreshold with
    | none => exact h.threshold.1
    | some threshold =>
      intro hz
      exact h.newThreshold (by rw [hnew]; exact congrArg some hz)
  · have hle := UInt32.le_iff_toNat_le.1 (h.target hp)
    rw [UInt32.toNat_ofNat'] at hle
    exact hle.trans (Nat.mod_le _ _)

theorem Ring.Valid.finalizes (h : ring.Valid Γ) (hp : ring.resharePending = true) :
    ringForReshareFinalization Γ ring = .ok { ring.withoutReshare with
      peerNodeKeys := ring.targetCommittee, threshold := ring.targetThreshold } := by
  have ht := h.target_le hp
  have hpe : ring.targetCommittee ≠ [] := by
    unfold Ring.targetCommittee
    split
    · exact h.peers
    · assumption
  have hke : validateUniquePeerNodeKeys Γ ring.targetCommittee = .ok () := by
    unfold Ring.targetCommittee
    split
    · exact h.peerKeys
    · exact h.newKeys
  refine except_bind_eq_ok.2 ⟨(), check_eq_ok.2 hp, except_bind_eq_ok.2 ⟨(), ?_, rfl⟩⟩
  exact validateRing_eq_ok.2 ⟨h.id, hpe, ht, h.policyId, h.upgradeInfo, h.reporting, h.relays, hke, rfl, nofun, nofun⟩

theorem Ring.Sound.wellFormed (h : ring.Sound Γ nodeInfos) (hh : ∀ b, Γ.hexDecodeString (Bytes.hex b) = .ok b)
    (hke : ∀ key, (nodeInfos.get key).isSome = true → ∃ publicKey, key = Bytes.hex publicKey) : ring.WellFormed Γ := by
  have hs := h.sorted
  refine ⟨validateRing_eq_ok.2 h.valid, ?_, ?_, ⟨one_le_toNat h.valid.threshold.1, h.valid.threshold.2⟩, ?_, ?_⟩
  · have hpe : canonicalStrings ring.peerNodeKeys = ring.peerNodeKeys := congrArg Ring.peerNodeKeys hs
    refine .of_hex hh (hpe ▸ sorted_canonicalStrings _) ?_ h.valid.peerKeys
    exact fun key hkey => hke key (h.known key (mem_append_left _ hkey))
  · have hnew : canonicalStrings ring.newPeerNodeKeys = ring.newPeerNodeKeys := congrArg Ring.newPeerNodeKeys hs
    refine .of_hex hh (hnew ▸ sorted_canonicalStrings _) ?_ h.valid.newKeys
    exact fun key hkey => hke key (h.known key (mem_append_right _ hkey))
  · intro hp
    exact h.pending (Ring.resharePending_iff.2 hp)
  · intro hp
    have hp := Ring.resharePending_iff.2 hp
    obtain ⟨hpo, hle⟩ := h.valid.target_le hp
    exact ⟨_, h.valid.finalizes hp, one_le_toNat hpo, hle⟩

/-- Every stored ring is well formed: in every state that a run of messages reaches from a store without rings and nodes. The
bytes that `hex.EncodeToString` writes are those that `hex.DecodeString` reads. -/
theorem stored_ring_well_formed (Γ : RingEnv) (hhex : ∀ b, Γ.hexDecodeString (Bytes.hex b) = .ok b) (ledger : Ledger Γ)
    (hrings : ledger.state.rings = KVStore.empty) (hnodeInfos : ledger.state.nodeInfos = KVStore.empty)
    (turns : List (Turn Γ)) (id : Bytes) (ring : Ring)
    (hget : (Run.run Ledger.step ledger turns).state.rings.get id = some ring) : ring.WellFormed Γ.toEnv := by
  have hs := Ledger.sound_run hrings hnodeInfos turns
  exact (hs.rings id ring hget).wellFormed hhex hs.hexKeys

/-- An environment in which an account is known by one byte, has 33 of these as its public key and may do everything. -/
def localLibraries : RingEnv := { plainLibraries with
  accAddressFromBech32 := .ok
  getAccount := fun _ address => some (some (List.replicate 33 (address.headD 0)))
  blsKeyValidate := fun _ => none
  verifyRingCreate := fun _ _ _ => .ok true
  registerRing := fun env _ _ _ => .ok env
  defaultReporting := fun _ => ⟨⟨1, 86400, 1, 1⟩, 3⟩ }

theorem hexDecode_hex (b : Bytes) : hexDecode (Bytes.hex b) = .ok b := by
  induction b with
  | nil => rfl
  | cons byte rest ih =>
    have hd : ∀ n < 16, hexValue (Bytes.hexDigit n) = some n := by decide
    have hb : UInt8.ofNat (16 * (byte.toNat / 16) + byte.toNat % 16) = byte := by
      rw [Nat.div_add_mod, UInt8.ofNat_toNat]
    have hlt := byte.toNat_lt
    change hexDecode (Bytes.hexDigit _ :: Bytes.hexDigit _ :: Bytes.hex rest) = _
    simp only [hexDecode, hd _ (show byte.toNat / 16 < 16 by omega), hd _ (show byte.toNat % 16 < 16 by omega), ih, hb]
    rfl

def joinMsg (n : UInt8) : Message := .createNodeInfo ⟨[n], str "peer", nodeKey n, [str "policy"], []⟩

def pairMsg : MsgCreateRing :=
  ⟨[7], [nodeKey 2, nodeKey 1], 2, 86400, str "policy", none, 1, none, false, [], false⟩

def confirmMsg (n : UInt8) : MsgFinalizeRing := ⟨[n], pairMsg.ringID, str "key", none⟩

def localLedger : Ledger localLibraries where
  state := ⟨(), KVStore.empty, KVStore.empty, KVStore.empty, KVStore.empty, KVStore.empty, KVStore.empty, []⟩
  ctx := blockAt 1 0

/-- Two nodes make themselves known, a ring of the two is created, both confirm its key. -/
def pairTurns : List (Turn localLibraries) :=
  [.message (joinMsg 1), .message (joinMsg 2), .message (.createRing pairMsg), .message (.finalizeRing (confirmMsg 1)),
    .newBlock (blockAt 2 6), .message (.finalizeRing (confirmMsg 2))]

def reshareTurn : Turn localLibraries := .message (.startRingReshareByAcp ⟨[7], pairMsg.ringID, [], some 1⟩)

/-- A ring is formed, and a reshare to another threshold is pending. -/
theorem stored_ring_well_formed_reshared : ∃ ring,
    (Run.run Ledger.step localLedger (pairTurns ++ [reshareTurn])).state.rings.get pairMsg.ringID = some ring ∧
      ring.newThreshold = some 1 ∧ ring.WellFormed localLibraries.toEnv := by
  have hr : ((Run.run Ledger.step localLedger (pairTurns ++ [reshareTurn])).state.rings.get pairMsg.ringID).map
      (·.newThreshold) = some (some 1) := by decide +kernel
  obtain ⟨ring, hget, ht⟩ := Option.map_eq_some_iff.1 hr
  exact ⟨ring, hget, ht, stored_ring_well_formed localLibraries hexDecode_hex localLedger rfl rfl
    (pairTurns ++ [reshareTurn]) pairMsg.ringID ring hget⟩

end Vera.Orbis
