import Vera.Orbis.ReportOnce
import Vera.Orbis.Reshare

/-!
# A signature of a reshare is used once

The nonce of a ring is the height of the block in which its last reshare became final. It goes into what the ring signs, and
nothing else moves it: while it grows with every reshare, no bytes are signed for twice. Two reshares of one block leave it
where it is.
-/

namespace Vera.Orbis

open Eff KVStore List Outcome

variable {Γ : Env}

/-! ## What the calls do to the rings -/

/-- Every ring is stored under its identifier. -/
def State.Keyed (s : State Γ) : Prop := ∀ id ring, s.rings.get id = some ring → ring.id = id

/-- A call stores a ring in the place of another with the same identifier, or none. The nonce is the same if `P` holds of it. -/
def StoresRing (P : Ring → Ring → Prop) (s t : State Γ) : Prop :=
  t.rings = s.rings ∨ ∃ id ring next, s.rings.get id = some ring ∧ next.id = ring.id ∧ P ring next ∧
    t.rings = s.rings.set next.id next.canonical

def SameNonce (ring next : Ring) : Prop := next.blockNumberNonce = ring.blockNumberNonce

variable {α : Type} {id message sig : Bytes} {s t : State Γ} {u : Unit}
  {msg : MsgFinalizeRingReshareByThresholdSignature} {finalized : Ring} {P : Ring → Ring → Prop}

theorem requireRing_bind_ok {f : Ring → M Γ α} {a : α} :
    (requireRing id >>= f).Succeeds s a t ↔ ∃ ring, s.rings.get id = some ring ∧ (f ring).Succeeds s a t := by
  unfold requireRing
  rw [query_bind_ok]
  cases s.rings.get id with
  | none => simp
  | some stored => simp

theorem pass_bind_ok {β : Type} {x : Except Error α} {f : α → M Γ β} {b : β} :
    (pass x >>= f).Succeeds s b t ↔ ∃ a, x = .ok a ∧ (f a).Succeeds s b t := by
  unfold pass
  simp [ofExcept_eq_ok, and_assoc]

theorem forEach_emit_ok {events : List Event}
    (h : (Eff.forEach events emit : M Γ Unit).Succeeds s u t) : t = { s with events := s.events ++ events } := by
  induction events generalizing s with
  | nil =>
    rw [(pure_ok.1 h).2, append_nil]
  | cons e rest ih =>
    obtain ⟨_, s₁, he, hrest⟩ := bind_ok.1 h
    rw [ih hrest, modify_ok.1 he]
    simp

variable {ctx : Ctx}

theorem normalizeMaturedRingUpgrade_eq (ring : Ring) (now : UInt64) :
    ∃ info, (normalizeMaturedRingUpgrade ring now).1 = { ring with upgradeInfo := info } := by
  unfold normalizeMaturedRingUpgrade
  split
  · split
    · exact ⟨ring.upgradeInfo, rfl⟩
    · exact ⟨_, rfl⟩
  · exact ⟨ring.upgradeInfo, rfl⟩

theorem maybeNormalizeMaturedRingUpgrade_eq_ok {ring next : Ring} {event : Option Event}
    (h : maybeNormalizeMaturedRingUpgrade ring ctx = .ok (next, event)) : ∃ info, next = { ring with upgradeInfo := info } := by
  unfold maybeNormalizeMaturedRingUpgrade at h
  split at h
  · obtain ⟨rfl, _⟩ := Prod.mk.inj (Except.ok.inj h)
    exact ⟨ring.upgradeInfo, rfl⟩
  · cases ht : currentBlockUnixTime ctx with
    | error e =>
      rw [ht] at h
      cases h
    | ok now =>
      rw [ht] at h
      have hne := congrArg Prod.fst (Except.ok.inj h)
      obtain rfl : (normalizeMaturedRingUpgrade ring now).1 = next := hne
      exact normalizeMaturedRingUpgrade_eq ring now

/-- A reshare that is started: the ring has its key, and the new committee is of known nodes. -/
theorem startRingReshareByAcp_ok {msg : MsgStartRingReshareByAcp} (h : (startRingReshareByAcp ctx msg).Succeeds s u t) :
    ∃ stored info, ∃ ring : Ring, s.rings.get msg.ringId = some stored ∧ stored.ringPk ≠ [] ∧
      ring = { stored with upgradeInfo := info } ∧
      requireMembers Γ s.nodeInfos ring (canonicalStrings msg.newPeerNodeKeys) = .ok () ∧
      validateRing Γ (ring.withReshare (canonicalStrings msg.newPeerNodeKeys) msg.newThreshold) = .ok () ∧
      t.rings = s.rings.set ring.id (ring.withReshare (canonicalStrings msg.newPeerNodeKeys) msg.newThreshold).canonical ∧
      t.nodeInfos = s.nodeInfos := by
  obtain ⟨stored, hstored, h⟩ := requireRing_bind_ok.1 h
  obtain ⟨_, hf, h⟩ := pass_bind_ok.1 h
  obtain ⟨_, _, h⟩ := query_bind_ok.1 h
  obtain ⟨_, _, h⟩ := query_bind_ok.1 h
  obtain ⟨⟨ring, normalized⟩, hr, h⟩ := pass_bind_ok.1 h
  obtain ⟨_, _, h⟩ := pass_bind_ok.1 h
  obtain ⟨_, hm, h⟩ := query_bind_ok.1 h
  obtain ⟨_, hv, h⟩ := pass_bind_ok.1 h
  obtain ⟨_, s₁, hs, h⟩ := bind_ok.1 h
  obtain ⟨_, s₂, hem, hev⟩ := bind_ok.1 h
  obtain ⟨info, hin⟩ := maybeNormalizeMaturedRingUpgrade_eq_ok hr
  have ht := forEach_emit_ok hev
  rw [modify_ok.1 hem, modify_ok.1 hs] at ht
  exact ⟨stored, info, ring, hstored, check_eq_ok.1 hf, hin, ofExcept_eq_ok.1 hm, hv, by rw [ht]; rfl, by rw [ht]⟩

theorem startRingReshareByAcp_rings {msg : MsgStartRingReshareByAcp}
    (h : (startRingReshareByAcp ctx msg).Succeeds s u t) : StoresRing SameNonce s t := by
  obtain ⟨stored, info, ring, hstored, _, hr, _, _, hri, _⟩ := startRingReshareByAcp_ok h
  exact .inr ⟨msg.ringId, stored, ring.withReshare (canonicalStrings msg.newPeerNodeKeys) msg.newThreshold, hstored,
    by rw [hr]; rfl, by rw [hr]; rfl, hri⟩

theorem cancelRingReshareByAcp_ok {msg : MsgCancelRingReshareByAcp} (h : (cancelRingReshareByAcp msg).Succeeds s u t) :
    ∃ ring, s.rings.get msg.ringId = some ring ∧ ring.ringPk ≠ [] ∧ validateRing Γ ring.withoutReshare = .ok () ∧
      t.rings = s.rings.set ring.id ring.withoutReshare.canonical ∧ t.nodeInfos = s.nodeInfos := by
  obtain ⟨ring, hr, h⟩ := requireRing_bind_ok.1 h
  obtain ⟨_, hf, h⟩ := pass_bind_ok.1 h
  obtain ⟨_, _, h⟩ := query_bind_ok.1 h
  obtain ⟨_, _, h⟩ := query_bind_ok.1 h
  obtain ⟨_, _, h⟩ := pass_bind_ok.1 h
  obtain ⟨_, hv, h⟩ := pass_bind_ok.1 h
  obtain ⟨_, s₁, hs, h⟩ := bind_ok.1 h
  obtain ⟨_, s₂, hu, hca⟩ := bind_ok.1 h
  have ht := modify_ok.1 hca
  rw [modify_ok.1 hu, modify_ok.1 hs] at ht
  exact ⟨ring, hr, check_eq_ok.1 hf, hv, by rw [ht]; rfl, by rw [ht]⟩

theorem cancelRingReshareByAcp_rings {msg : MsgCancelRingReshareByAcp}
    (h : (cancelRingReshareByAcp msg).Succeeds s u t) : StoresRing SameNonce s t := by
  obtain ⟨ring, hri, _, _, hr, _⟩ := cancelRingReshareByAcp_ok h
  exact .inr ⟨msg.ringId, ring, ring.withoutReshare, hri, rfl, rfl, hr⟩

/-- A report that is accepted: what an automatic reshare of its ring makes of a state with the same rings and nodes. -/
theorem submitReport_reshares {msg : MsgSubmitReport} (h : (submitReport ctx msg).Succeeds s id t) :
    ∃ v, Validated ctx msg s v ∧ ((t.rings = s.rings ∧ t.nodeInfos = s.nodeInfos) ∨ ∃ replacement backups,
      v.ring.resharePending = false ∧
      selectAutoReshareReplacement s.nodeInfos v.ring [] v.ring.reporting.backupNodeKeys = some (replacement, backups) ∧
      validateRing Γ (v.ring.withReplacement msg.report.accusedNodeKey replacement backups) = .ok () ∧
      t.rings = s.rings.set v.ring.id (v.ring.withReplacement msg.report.accusedNodeKey replacement backups).canonical ∧
      t.nodeInfos = s.nodeInfos) := by
  obtain ⟨v, amount, s₁, hv, _, hr, rfl⟩ := submitReport_inv h
  refine ⟨v, validateSubmittedReport_eq_ok hv, ?_⟩
  rcases maybeScheduleAutoReshareForReport_ok hr with rfl | ⟨replacement, backups, hp, hs, hva, rfl⟩
  · exact .inl ⟨rfl, rfl⟩
  · exact .inr ⟨replacement, backups, hp, hs, hva, rfl, rfl⟩

theorem submitReport_rings {msg : MsgSubmitReport}
    (h : (submitReport ctx msg).Succeeds s id t) : StoresRing SameNonce s t := by
  obtain ⟨v, hv, hsame | ⟨replacement, backups, _, _, _, hr, _⟩⟩ := submitReport_reshares h
  · exact .inl hsame.1
  · exact .inr ⟨msg.report.ringId, v.ring, v.ring.withReplacement msg.report.accusedNodeKey replacement backups, hv.ring, rfl,
      rfl, hr⟩

/-- A reshare that becomes final: the ring has signed the bytes, and the height is its new nonce. -/
theorem finalizeRingReshareByThresholdSignature_ok (h : (finalizeRingReshareByThresholdSignature ctx msg).Succeeds s u t) :
    ∃ ring finalized, s.rings.get msg.ringId = some ring ∧ ringForReshareFinalization Γ ring = .ok finalized ∧
      verifyThresholdSignature Γ msg.signatureScheme ring.ringPk (ringReshareFinalizeSignBytes ctx.chainID ring finalized)
        msg.signature = .ok () ∧
      t.rings = s.rings.set finalized.id
        { finalized with blockNumberNonce := UInt64.ofInt ctx.blockHeight }.canonical ∧ t.nodeInfos = s.nodeInfos := by
  obtain ⟨ring, hr, h⟩ := requireRing_bind_ok.1 h
  obtain ⟨_, _, h⟩ := query_bind_ok.1 h
  obtain ⟨finalized, hf, h⟩ := pass_bind_ok.1 h
  obtain ⟨_, s₁, hve, h⟩ := bind_ok.1 h
  obtain ⟨_, s₂, hse, hem⟩ := bind_ok.1 h
  obtain ⟨hv, hs₁⟩ := lift_ok.1 hve
  have ht := modify_ok.1 hem
  rw [modify_ok.1 hse, hs₁] at ht
  exact ⟨ring, finalized, hr, hf, hv, by rw [ht], by rw [ht]⟩

theorem ringForReshareFinalization_id {ring : Ring} (h : ringForReshareFinalization Γ ring = .ok finalized) :
    finalized.id = ring.id := by
  obtain ⟨_, _, h⟩ := except_bind_eq_ok.1 h
  obtain ⟨_, _, h⟩ := except_bind_eq_ok.1 h
  rw [← Except.ok.inj h]
  rfl

/-! ## What is signed -/

theorem ringReshareFinalizeSignBytes_inj {chainID chainID' : Bytes} {ring ring' finalized' : Ring}
    (h : ringReshareFinalizeSignBytes chainID ring finalized = ringReshareFinalizeSignBytes chainID' ring' finalized') :
    ring.id = ring'.id ∧ ring.blockNumberNonce = ring'.blockNumberNonce := by
  have hd := Protobuf.encode_inj h
  have hid := congrArg (List.lookup 3) hd
  have hno := congrArg (List.lookup 7) hd
  simp [ringReshareFinalizeSignDoc, lookup_append] at hid hno
  exact ⟨Protobuf.eq_of_present (fun _ _ => Protobuf.Value.bytes.inj) hid,
    UInt64.toNat_inj.1 (Protobuf.eq_of_present (fun _ _ => Protobuf.Value.uint.inj) hno)⟩

/-- Bytes that a ring signs while it has a nonce. -/
def SignedAt (message id : Bytes) (nonce : UInt64) : Prop :=
  ∃ chainID ring finalized, message = ringReshareFinalizeSignBytes chainID ring finalized ∧ ring.id = id ∧
    ring.blockNumberNonce = nonce

theorem SignedAt.unique {id' : Bytes} {nonce nonce' : UInt64} (h : SignedAt message id nonce)
    (h' : SignedAt message id' nonce') : id = id' ∧ nonce = nonce' := by
  obtain ⟨_, _, _, rfl, rfl, rfl⟩ := h
  obtain ⟨_, _, _, heq, rfl, rfl⟩ := h'
  exact ringReshareFinalizeSignBytes_inj heq

/-! ## Runs -/

theorem State.Keyed.of_eq (hs : s.Keyed) (h : t.rings = s.rings) : t.Keyed := by
  unfold State.Keyed
  rw [h]
  exact hs

theorem State.Keyed.set (hs : s.Keyed) (ring : Ring) (h : t.rings = s.rings.set ring.id ring.canonical) : t.Keyed := by
  unfold State.Keyed
  rw [h]
  exact All.set hs rfl

theorem State.Keyed.delete (hs : s.Keyed) {id : Bytes} (h : t.rings = s.rings.delete id) : t.Keyed := by
  unfold State.Keyed
  rw [h]
  exact All.delete hs id

theorem State.Keyed.of_stores (hs : s.Keyed) (h : StoresRing P s t) : t.Keyed := by
  rcases h with heq | ⟨_, _, next, _, _, _, heq⟩
  · exact hs.of_eq heq
  · exact hs.set next heq

/-- A ring that is stored is there after the call, and it is the same or as the call stores it. -/
theorem StoresRing.get (h : StoresRing P s t) (hs : s.Keyed) {ring : Ring} (hget : s.rings.get id = some ring) :
    ∃ next, t.rings.get id = some next ∧ (next = ring ∨ ∃ n, P ring n ∧ next = n.canonical) := by
  rcases h with heq | ⟨id', ring', next, hget', hid, hP, heq⟩
  · exact ⟨ring, by rw [heq, hget], .inl rfl⟩
  · rw [heq]
    by_cases hsame : id = next.id
    · obtain rfl : id = id' := hsame.trans (hid.trans (hs id' ring' hget'))
      obtain rfl := Option.some.inj (hget.symm.trans hget')
      exact ⟨next.canonical, by rw [get_set, if_pos hsame], .inr ⟨next, hP, rfl⟩⟩
    · exact ⟨ring, by rw [get_set, if_neg hsame, hget], .inl rfl⟩

/-- A chain: its state, with every ring under its identifier, and the block it is in. -/
structure Chain (Γ : Env) where
  state : State Γ
  ctx : Ctx
  keyed : state.Keyed

/-- What happens to the reshares of a chain. Reports may schedule one; other messages change what the policies allow and which
nodes are known. -/
inductive Action (Γ : Env) where
  | start (msg : MsgStartRingReshareByAcp)
  | cancel (msg : MsgCancelRingReshareByAcp)
  | report (msg : MsgSubmitReport)
  | finalize (msg : MsgFinalizeRingReshareByThresholdSignature)
  | newBlock (ctx : Ctx)
  | other (env : Γ.σ) (nodeInfos : KVStore Bytes NodeInfo)

theorem storesRing_commit {x : M Γ α} (h : ∀ {a t}, x.Succeeds s a t → StoresRing P s t) : StoresRing P s (x.commit s) := by
  rcases commit_cases x s with heq | ⟨a, hs⟩
  · exact .inl (by rw [heq])
  · exact h hs

theorem finalizeRingReshareByThresholdSignature_rings
    (h : (finalizeRingReshareByThresholdSignature ctx msg).Succeeds s u t) :
    StoresRing (fun ring next => s.rings.get msg.ringId = some ring ∧ next.blockNumberNonce = UInt64.ofInt ctx.blockHeight)
      s t := by
  obtain ⟨ring, finalized, hr, hf, _, hs, _⟩ := finalizeRingReshareByThresholdSignature_ok h
  have hid : finalized.id = ring.id := ringForReshareFinalization_id hf
  exact .inr ⟨msg.ringId, ring, { finalized with blockNumberNonce := UInt64.ofInt ctx.blockHeight }, hr, hid, ⟨hr, rfl⟩, hs⟩

/-- One step of a chain. A block with a smaller height is none. -/
def Chain.step (c : Chain Γ) : Action Γ → Chain Γ
  | .start msg => { c with
      state := (startRingReshareByAcp c.ctx msg).commit c.state
      keyed := c.keyed.of_stores (storesRing_commit startRingReshareByAcp_rings) }
  | .cancel msg => { c with
      state := (cancelRingReshareByAcp msg).commit c.state
      keyed := c.keyed.of_stores (storesRing_commit cancelRingReshareByAcp_rings) }
  | .report msg => { c with
      state := (submitReport c.ctx msg).commit c.state
      keyed := c.keyed.of_stores (storesRing_commit submitReport_rings) }
  | .finalize msg => { c with
      state := (finalizeRingReshareByThresholdSignature c.ctx msg).commit c.state
      keyed := c.keyed.of_stores (storesRing_commit finalizeRingReshareByThresholdSignature_rings) }
  | .newBlock ctx => if c.ctx.blockHeight ≤ ctx.blockHeight then { c with ctx := ctx } else c
  | .other env nodeInfos => { c with state := { c.state with env := env, nodeInfos := nodeInfos }, keyed := c.keyed }

/-- Whether a chain accepts the signature of a reshare. -/
def Chain.accepts (c : Chain Γ) (msg : MsgFinalizeRingReshareByThresholdSignature) : Bool :=
  (finalizeRingReshareByThresholdSignature c.ctx msg c.state).1.isOk

/-- The bytes that a ring signs to make its pending reshare final. -/
def Chain.signBytes (c : Chain Γ) (ringId : Bytes) : Option Bytes :=
  match c.state.rings.get ringId with
  | none => none
  | some ring =>
    match ringForReshareFinalization Γ ring with
    | .ok finalized => some (ringReshareFinalizeSignBytes c.ctx.chainID ring finalized)
    | .error _ => none

/-- Whether a step accepts a signature over given bytes. -/
def Chain.finalizesOver (message : Bytes) (c : Chain Γ) : Action Γ → Bool
  | .finalize msg => c.accepts msg && decide (c.signBytes msg.ringId = some message)
  | _ => false

/-- Whether a step accepts a given signature. -/
def Chain.finalizesBy (signature : Bytes) (c : Chain Γ) : Action Γ → Bool
  | .finalize msg => c.accepts msg && decide (msg.signature = signature)
  | _ => false

/-- The ring of a signature has a nonce below the height: it had no reshare in this block. -/
def Chain.Fresh (c : Chain Γ) : Action Γ → Prop
  | .finalize msg => ∀ ring, c.state.rings.get msg.ringId = some ring → (ring.blockNumberNonce.toNat : Int) < c.ctx.blockHeight
  | _ => True

/-- The ring that signs the bytes has a later nonce. -/
def Chain.Outdated (c : Chain Γ) (message : Bytes) : Prop :=
  ∃ id nonce ring, SignedAt message id nonce ∧ c.state.rings.get id = some ring ∧ nonce < ring.blockNumberNonce

variable {c : Chain Γ}

theorem Chain.Outdated.of_sameNonce {d : Chain Γ} (h : c.Outdated message)
    (hst : StoresRing SameNonce c.state d.state) : d.Outdated message := by
  obtain ⟨id, nonce, ring, hs, hget, hlt⟩ := h
  obtain ⟨next, hne, rfl | ⟨n, hn, rfl⟩⟩ := hst.get c.keyed hget
  · exact ⟨id, nonce, next, hs, hne, hlt⟩
  · refine ⟨id, nonce, n.canonical, hs, hne, ?_⟩
    show nonce < n.blockNumberNonce
    rwa [hn]

theorem Chain.Fresh.lt (h : c.Fresh (.finalize msg)) {ring : Ring} (hget : c.state.rings.get msg.ringId = some ring) :
    ring.blockNumberNonce < UInt64.ofInt c.ctx.blockHeight := by
  have hlt := h ring hget
  have hheight := toNat_ofInt_of_nonneg (show 0 ≤ c.ctx.blockHeight by omega) c.ctx.int64_height.2
  exact UInt64.lt_iff_toNat_lt.2 (by omega)

theorem Chain.Outdated.step (h : c.Outdated message) {a : Action Γ} (hf : c.Fresh a) : (c.step a).Outdated message := by
  cases a with
  | start msg => exact h.of_sameNonce (storesRing_commit startRingReshareByAcp_rings)
  | cancel msg => exact h.of_sameNonce (storesRing_commit cancelRingReshareByAcp_rings)
  | report msg => exact h.of_sameNonce (storesRing_commit submitReport_rings)
  | finalize msg =>
    obtain ⟨id, nonce, ring, hs, hget, hlt⟩ := h
    have hst := storesRing_commit (x := finalizeRingReshareByThresholdSignature c.ctx msg) (s := c.state)
      finalizeRingReshareByThresholdSignature_rings
    obtain ⟨next, hne, rfl | ⟨n, ⟨hr, hn⟩, rfl⟩⟩ := hst.get c.keyed hget
    · exact ⟨id, nonce, next, hs, hne, hlt⟩
    · refine ⟨id, nonce, n.canonical, hs, hne, ?_⟩
      show nonce < n.blockNumberNonce
      rw [hn]
      exact UInt64.lt_trans hlt (hf.lt hr)
  | newBlock ctx =>
    simp only [Chain.step]
    split
    · exact h
    · exact h
  | other env nodeInfos => exact h

/-- An accepted signature is over the bytes of the ring, which are outdated after the step if it is fresh. -/
theorem Chain.accepts_spec (h : c.accepts msg = true) :
    ∃ message ring, c.signBytes msg.ringId = some message ∧ c.state.rings.get msg.ringId = some ring ∧
      SignedAt message msg.ringId ring.blockNumberNonce ∧
      verifyThresholdSignature Γ msg.signatureScheme ring.ringPk message msg.signature = .ok () ∧
      (c.Fresh (.finalize msg) → (c.step (.finalize msg)).Outdated message) := by
  obtain ⟨_, hsu⟩ := succeeds_of_isOk h
  obtain ⟨ring, finalized, hr, hf, hv, hse, _⟩ := finalizeRingReshareByThresholdSignature_ok hsu
  have hke := c.keyed msg.ringId ring hr
  have hs : SignedAt (ringReshareFinalizeSignBytes c.ctx.chainID ring finalized) msg.ringId ring.blockNumberNonce :=
    ⟨c.ctx.chainID, ring, finalized, rfl, hke, rfl⟩
  let next : Ring := { finalized with blockNumberNonce := UInt64.ofInt c.ctx.blockHeight }.canonical
  refine ⟨_, ring, ?_, hr, hs, hv, fun hfr => ⟨msg.ringId, ring.blockNumberNonce, next, hs, ?_, ?_⟩⟩
  · unfold Chain.signBytes
    simp only [hr, hf]
  · show ((finalizeRingReshareByThresholdSignature c.ctx msg).commit c.state).rings.get msg.ringId = some _
    rw [hsu.commit_eq, hse, get_set, if_pos ((ringForReshareFinalization_id hf).trans hke).symm]
  · exact hfr.lt hr

theorem Chain.Outdated.not_signBytes (h : c.Outdated message) {ringId : Bytes} {ring : Ring}
    (hr : c.state.rings.get ringId = some ring) (hs : SignedAt message ringId ring.blockNumberNonce) : False := by
  obtain ⟨id, nonce, stored, hs', hget, hlt⟩ := h
  obtain ⟨rfl, rfl⟩ := hs'.unique hs
  obtain rfl := Option.some.inj (hget.symm.trans hr)
  exact UInt64.lt_irrefl _ hlt

/-- A scheme in which a signature is valid for one message only. -/
def Exact (Γ : Env) : Prop := ∀ {scheme scheme' ringPk ringPk' message message' signature : Bytes},
  verifyThresholdSignature Γ scheme ringPk message signature = .ok () →
    verifyThresholdSignature Γ scheme' ringPk' message' signature = .ok () → message = message'

variable {actions : List (Action Γ)}

theorem finalizesOver_count_le_one (hf : Run.AllSteps Chain.step Chain.Fresh c actions) (message : Bytes) :
    Run.count Chain.step (Chain.finalizesOver message) c actions ≤ 1 := by
  refine Run.count_le_one (fun c a hP hm => ?spend) (fun c a hP (hs : c.Outdated message) => hs.step hP)
    (fun c a hP hs => ?none) hf
  case spend =>
    cases a with
    | finalize msg =>
      obtain ⟨ha, hb⟩ := Bool.and_eq_true _ _ ▸ hm
      obtain ⟨_, _, hme, _, _, _, haf⟩ := Chain.accepts_spec ha
      obtain rfl := Option.some.inj (hme.symm.trans (of_decide_eq_true hb))
      exact haf hP
    | start msg => cases hm
    | cancel msg => cases hm
    | report msg => cases hm
    | newBlock ctx => cases hm
    | other env nodeInfos => cases hm
  case none =>
    cases a with
    | finalize msg =>
      refine Bool.eq_false_iff.2 fun hm => ?_
      obtain ⟨ha, hb⟩ := Bool.and_eq_true _ _ ▸ hm
      obtain ⟨_, _, hme, hr, hsi, _, _⟩ := Chain.accepts_spec ha
      obtain rfl := Option.some.inj (hme.symm.trans (of_decide_eq_true hb))
      exact hs.not_signBytes hr hsi
    | start msg => rfl
    | cancel msg => rfl
    | report msg => rfl
    | newBlock ctx => rfl
    | other env nodeInfos => rfl

/-- In a run of fresh steps no signature is accepted twice, if a signature is valid for one message only. -/
theorem finalizesBy_count_le_one (hexa : Exact Γ) (hf : Run.AllSteps Chain.step Chain.Fresh c actions) (signature : Bytes) :
    Run.count Chain.step (Chain.finalizesBy signature) c actions ≤ 1 := by
  -- the message that the signature is for is outdated
  let Spent (c : Chain Γ) : Prop := ∃ scheme ringPk message,
    verifyThresholdSignature Γ scheme ringPk message signature = .ok () ∧ c.Outdated message
  refine Run.count_le_one (fun c a hP hm => ?spend) (fun c a hP (hs : Spent c) => ?keep) (fun c a hP hs => ?none) hf
  case spend =>
    cases a with
    | finalize msg =>
      obtain ⟨ha, hsame⟩ := Bool.and_eq_true _ _ ▸ hm
      obtain ⟨message, ring, _, _, _, hv, haf⟩ := Chain.accepts_spec ha
      rw [of_decide_eq_true hsame] at hv
      exact ⟨msg.signatureScheme, ring.ringPk, message, hv, haf hP⟩
    | start msg => cases hm
    | cancel msg => cases hm
    | report msg => cases hm
    | newBlock ctx => cases hm
    | other env nodeInfos => cases hm
  case keep =>
    obtain ⟨scheme, ringPk, message, hv, hou⟩ := hs
    exact ⟨scheme, ringPk, message, hv, hou.step hP⟩
  case none =>
    cases a with
    | finalize msg =>
      obtain ⟨scheme, ringPk, message, hv, hou⟩ := hs
      refine Bool.eq_false_iff.2 fun hm => ?_
      obtain ⟨ha, hsame⟩ := Bool.and_eq_true _ _ ▸ hm
      obtain ⟨message', ring, _, hr, hsi, hv', _⟩ := Chain.accepts_spec ha
      rw [of_decide_eq_true hsame] at hv'
      obtain rfl := hexa hv hv'
      exact hou.not_signBytes hr hsi
    | start msg => rfl
    | cancel msg => rfl
    | report msg => rfl
    | newBlock ctx => rfl
    | other env nodeInfos => rfl

/-- A signature of a reshare is used once in a run whose steps are fresh: no two signatures over the same bytes are accepted,
and, if a signature is valid for one message only, no signature is accepted twice. -/
theorem reshare_signature_used_once (Γ : Env) (c : Chain Γ) (actions : List (Action Γ))
    (hfresh : Run.AllSteps Chain.step Chain.Fresh c actions) :
    (∀ message, Run.count Chain.step (Chain.finalizesOver message) c actions ≤ 1) ∧
      (Exact Γ → ∀ signature, Run.count Chain.step (Chain.finalizesBy signature) c actions ≤ 1) :=
  ⟨finalizesOver_count_le_one hfresh, fun hexa => finalizesBy_count_le_one hexa hfresh⟩

/-! ## A signature that is used twice -/

open Bytes (str)

/-- The environment in which a ring has made the signatures of a table, and no others are valid. -/
def tableLibraries (table : List (Bytes × Bytes)) : Env := { plainLibraries with
  blsVerify := fun _ _ _ => false
  jubjubVerify := fun _ message signature => .ok (decide ((signature, message) ∈ table)) }

def pair : Ring := { triad with peerNodeKeys := [nodeKey 1, nodeKey 2], threshold := 1 }

/-- What the ring of two nodes signs to change its threshold. -/
def changeMessage (threshold newThreshold : UInt32) (nonce : UInt64) : Bytes :=
  ringReshareFinalizeSignBytes (str "vera-1")
    { pair with threshold := threshold, newThreshold := some newThreshold, blockNumberNonce := nonce }
    { pair with threshold := newThreshold, blockNumberNonce := nonce }

def signature (n : UInt8) : Bytes := List.replicate 64 n

/-- Three signatures: of the first change, and of a change back and forth at the height five. -/
def signatures : List (Bytes × Bytes) :=
  [(signature 0, changeMessage 1 2 0), (signature 1, changeMessage 2 1 5), (signature 2, changeMessage 1 2 5)]

def startMsg (threshold : UInt32) : MsgStartRingReshareByAcp := ⟨str "admin", pair.id, [], some threshold⟩

def finalizeMsg (n : UInt8) : MsgFinalizeRingReshareByThresholdSignature :=
  ⟨str "relayer", pair.id, str "jubjub_frost", signature n⟩

def pairChain : Chain (tableLibraries signatures) where
  state := ⟨(), KVStore.empty.set pair.id pair, KVStore.empty, KVStore.empty, KVStore.empty, KVStore.empty, KVStore.empty, []⟩
  ctx := blockAt 5 0
  keyed := All.set .empty rfl

/-- The threshold goes from one to two and back, twice, in one block. -/
def backAndForth : List (Action (tableLibraries signatures)) :=
  [.start (startMsg 2), .finalize (finalizeMsg 0), .start (startMsg 1), .finalize (finalizeMsg 1),
    .start (startMsg 2), .finalize (finalizeMsg 2), .start (startMsg 1), .finalize (finalizeMsg 1)]

theorem mem_table_of_verify {table : List (Bytes × Bytes)} {scheme ringPk : Bytes}
    (h : verifyThresholdSignature (tableLibraries table) scheme ringPk message sig = .ok ()) : (sig, message) ∈ table := by
  unfold verifyThresholdSignature at h
  simp only at h
  split at h
  · obtain ⟨_, _, h⟩ := bind_eq_ok.1 h
    exact absurd (require_eq_ok.1 h) Bool.false_ne_true
  · split at h
    · obtain ⟨_, _, h⟩ := bind_eq_ok.1 h
      obtain ⟨_, _, h⟩ := bind_eq_ok.1 h
      obtain ⟨_, _, h⟩ := bind_eq_ok.1 h
      obtain ⟨ok, hok, h⟩ := bind_eq_ok.1 h
      have hmem : decide ((sig, message) ∈ table) = ok := Except.ok.inj (ofExcept_eq_ok.1 hok)
      exact of_decide_eq_true (hmem.trans (require_eq_ok.1 h))
    · cases h

theorem signatures_unique {message' : Bytes} (h : (sig, message) ∈ signatures) (h' : (sig, message') ∈ signatures) :
    message = message' := by
  simp only [signatures, mem_cons, Prod.mk.injEq, not_mem_nil, or_false] at h h'
  -- two entries of the table are the same, or their signatures differ
  rcases h with ⟨hs, hm⟩ | ⟨hs, hm⟩ | ⟨hs, hm⟩ <;> rcases h' with ⟨hs', hm'⟩ | ⟨hs', hm'⟩ | ⟨hs', hm'⟩ <;>
    first
    | exact absurd (hs.symm.trans hs') (by decide)
    | exact hm.trans hm'.symm

theorem exact_signatures : Exact (tableLibraries signatures) := fun h h' =>
  signatures_unique (mem_table_of_verify h) (mem_table_of_verify h')

theorem backAndForth_count : Run.count Chain.step (Chain.finalizesBy (signature 1)) pairChain backAndForth = 2 := by
  decide +kernel

/-- Without that condition the same signature is accepted twice in one block. -/
theorem reshare_signature_used_once_false : ∃ (Γ : Env) (c : Chain Γ) (actions : List (Action Γ)), Exact Γ ∧
    (∃ message, 2 ≤ Run.count Chain.step (Chain.finalizesOver message) c actions) ∧
      ∃ signature, 2 ≤ Run.count Chain.step (Chain.finalizesBy signature) c actions := by
  refine ⟨tableLibraries signatures, pairChain, backAndForth, exact_signatures, ⟨changeMessage 2 1 5, ?_⟩, signature 1,
    le_of_eq backAndForth_count.symm⟩
  refine le_trans (le_of_eq backAndForth_count.symm) (Run.count_le_count (fun c a h => ?_) pairChain backAndForth)
  cases a with
  | finalize msg =>
    obtain ⟨ha, hsame⟩ := Bool.and_eq_true _ _ ▸ h
    obtain ⟨message, _, hm, _, _, hv, _⟩ := Chain.accepts_spec ha
    rw [of_decide_eq_true hsame] at hv
    obtain rfl : message = changeMessage 2 1 5 := signatures_unique (mem_table_of_verify hv) (by simp [signatures])
    exact Bool.and_eq_true_iff.2 ⟨ha, decide_eq_true hm⟩
  | start msg => cases h
  | cancel msg => cases h
  | report msg => cases h
  | newBlock ctx => cases h
  | other env nodeInfos => cases h

theorem Chain.fresh_of_all
    (h : ((c.state.rings.get msg.ringId).all fun ring => decide ((ring.blockNumberNonce.toNat : Int) < c.ctx.blockHeight)) =
      true) : c.Fresh (.finalize msg) := by
  intro ring hr
  rw [hr] at h
  exact of_decide_eq_true h

/-- A signature that is sent again in the next block is accepted once. -/
theorem reshare_signature_used_once_resent : (pairChain.step (.start (startMsg 2))).accepts (finalizeMsg 0) = true ∧
    Run.count Chain.step (Chain.finalizesBy (signature 0)) pairChain
      [.start (startMsg 2), .finalize (finalizeMsg 0), .newBlock (blockAt 6 5), .finalize (finalizeMsg 0)] ≤ 1 := by
  refine ⟨by decide +kernel, (reshare_signature_used_once (tableLibraries signatures) pairChain _ ?_).2 exact_signatures _⟩
  refine ⟨trivial, Chain.fresh_of_all (by decide +kernel), trivial, Chain.fresh_of_all (by decide +kernel), trivial⟩

end Vera.Orbis
