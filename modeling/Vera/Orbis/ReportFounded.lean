import Vera.Orbis.CanonicalCodec
import Vera.Orbis.ReportOnce

/-!
# What an accepted report rests on

A report is accepted when its envelope fits the stored ring and the evidence inside its payload is bound to the envelope. The
evidence comes in a dozen kinds, each with its own decoder; the statement in it is attacker-chosen bytes. Whatever the kind,
the bytes of an accepted statement start with the chain, the ring and the session of the envelope, and name the accused node.
-/

namespace Vera.Orbis

open Eff List Outcome
open Bytes (str)

variable {Γ : Env}

/-! ## What the decoder has read -/

variable {d rest v statement : Bytes} {label : String} {b : RingBinding} {u : Unit}
  {st : InvalidCryptoResponseStatement} {c : DkgCommitmentStatement} {r : ReportEnvelope}

theorem readU64_ok {v : UInt64} (h : (readU64 label).Succeeds d v rest) : d = Canonical.encode [.u64 v] ++ rest := by
  simpa [Canonical.encode, Canonical.Field.encode] using ((inverts_readU64 label _ _ _).1 h).2

theorem readString_ok (h : (readString label).Succeeds d v rest) : d = Canonical.encode [.bytes v] ++ rest := by
  simpa [Canonical.encode] using ((inverts_readString label _ _ _).1 h).2

/-- The fields that every statement starts with, after its domain. -/
def RingBinding.fields (b : RingBinding) : List Canonical.Field :=
  [.bytes b.chainID, .bytes b.ringID, .bytes b.ringPk, .bytes b.ringStateSha256, .u64 b.protocolVersion]

theorem readBinding_ok (h : readBinding.Succeeds d b rest) : d = Canonical.encode b.fields ++ rest := by
  simp only [readBinding, bind_ok, pure_ok] at h
  obtain ⟨_, _, hch, _, _, hr, _, _, hpk, _, _, hs, _, _, hv, rfl, rfl⟩ := h
  rw [readString_ok hch, readString_ok hr, readString_ok hpk, readString_ok hs, readU64_ok hv]
  simp [RingBinding.fields, Canonical.encode]

theorem readDomain_ok {expected : String}
    (h : (readDomain Γ expected label).Succeeds d u rest) : d = Canonical.encode [.bytes (str expected)] ++ rest := by
  unfold readDomain at h
  obtain ⟨domain, left, hre, hr⟩ := bind_ok.1 h
  obtain ⟨hd, rfl⟩ := require_ok.1 hr
  rw [not_not] at hd
  rw [readString_ok hre, hd]

/-! ## What a statement is bound to -/

/-- The chain, the ring with its state and the protocol version, the session and the node, as a statement names them. -/
structure Bound (st : InvalidCryptoResponseStatement) (b : RingBinding) (requestID nodeKey : Bytes) : Prop where
  chainID : st.chainID = b.chainID
  ringID : st.ringID = b.ringID
  ringPk : st.ringPk = b.ringPk
  ringStateSha256 : st.ringStateSha256 = b.ringStateSha256
  protocolVersion : st.protocolVersion = b.protocolVersion
  requestID : st.requestID = requestID
  nodeKey : st.responderNodeKey = nodeKey

/-- The bytes of a statement name the fields: behind the domain stand the ring and the session, and then, after one or two
times or two digests, the node. -/
def Names (statement : Bytes) (b : RingBinding) (requestID nodeKey : Bytes) : Prop :=
  ∃ (domain : String) (middle rest : Bytes), (middle.length = 8 ∨ middle.length = 16 ∨ middle.length = 64) ∧
    statement = Canonical.encode ([.bytes (str domain)] ++ b.fields ++ [.bytes requestID]) ++ middle ++
      Canonical.encode [.bytes nodeKey] ++ rest

/-- The bytes of a statement name what its decoder returns. -/
def Named (statement : Bytes) (st : InvalidCryptoResponseStatement) : Prop :=
  Names statement ⟨st.chainID, st.ringID, st.ringPk, st.ringStateSha256, st.protocolVersion⟩ st.requestID st.responderNodeKey

theorem Bound.named {requestID nodeKey : Bytes}
    (hb : Bound st b requestID nodeKey) (h : Names statement b requestID nodeKey) : Named statement st := by
  unfold Named
  rw [hb.chainID, hb.ringID, hb.ringPk, hb.ringStateSha256, hb.protocolVersion, hb.requestID, hb.nodeKey]
  exact h

theorem bound_statement (b : RingBinding) (requestID : Bytes) (signedAt : UInt64) (nodeKey originProtocol : Bytes)
    (accusedScope signingScope : UInt8) :
    Bound (b.statement requestID signedAt nodeKey originProtocol accusedScope signingScope) b requestID nodeKey :=
  ⟨rfl, rfl, rfl, rfl, rfl, rfl, rfl⟩

/-! ### The decoders, one shape at a time -/

section Decoders

variable {α : Type} {domain label l₁ l₂ l₃ l₄ : String} {d : Bytes} {a : α}

theorem readStart_ok {f : RingBinding → Bytes → Decoder α}
    (h : (readDomain Γ domain label >>= fun _ => readBinding >>= fun b => readString l₁ >>= fun req => f b req).run d = .ok a) :
    ∃ b req rest left, d = Canonical.encode ([.bytes (str domain)] ++ b.fields ++ [.bytes req]) ++ rest ∧
      (f b req).Succeeds rest a left := by
  obtain ⟨u, d₁, hd, h₁⟩ := bind_ok.1 (succeeds_of_fst_eq h)
  obtain ⟨b, d₂, hb, h₂⟩ := bind_ok.1 h₁
  obtain ⟨req, d₃, hr, h₃⟩ := bind_ok.1 h₂
  refine ⟨b, req, d₃, _, ?_, h₃⟩
  rw [readDomain_ok hd, readBinding_ok hb, readString_ok hr]
  simp [Canonical.encode]

variable (view : α → InvalidCryptoResponseStatement)

theorem named_of_signed {f : RingBinding → Bytes → UInt64 → Bytes → Decoder α}
    (hf : ∀ b req signedAt key, Eff.Returns (fun a => Bound (view a) b req key) (f b req signedAt key))
    (h : (readDomain Γ domain label >>= fun _ => readBinding >>= fun b => readString l₁ >>= fun req =>
      readU64 l₂ >>= fun signedAt => readString l₃ >>= fun key => f b req signedAt key).run d = .ok a) :
    Named d (view a) := by
  obtain ⟨b, req, rest, _, rfl, hrest⟩ := readStart_ok h
  obtain ⟨signedAt, d₁, ht, h₁⟩ := bind_ok.1 hrest
  obtain ⟨key, d₂, hke, h₂⟩ := bind_ok.1 h₁
  refine (hf b req signedAt key _ _ _ h₂).named ⟨domain, Canonical.encode [.u64 signedAt], d₂, .inl ?_, ?_⟩
  · simp [Canonical.encode, Canonical.Field.encode]
  · rw [readU64_ok ht, readString_ok hke]
    simp

theorem named_of_relayed {f : RingBinding → Bytes → UInt64 → UInt64 → Bytes → Decoder α}
    (hf : ∀ b req signedAt userSignedAt key, Eff.Returns (fun a => Bound (view a) b req key) (f b req signedAt userSignedAt key))
    (h : (readDomain Γ domain label >>= fun _ => readBinding >>= fun b => readString l₁ >>= fun req =>
      readU64 l₂ >>= fun signedAt => readU64 l₃ >>= fun userSignedAt => readString l₄ >>= fun key =>
      f b req signedAt userSignedAt key).run d = .ok a) :
    Named d (view a) := by
  obtain ⟨b, req, rest, _, rfl, hrest⟩ := readStart_ok h
  obtain ⟨signedAt, d₁, ht, h₁⟩ := bind_ok.1 hrest
  obtain ⟨userSignedAt, d₂, hu, h₂⟩ := bind_ok.1 h₁
  obtain ⟨key, d₃, hke, h₃⟩ := bind_ok.1 h₂
  refine (hf b req signedAt userSignedAt key _ _ _ h₃).named
    ⟨domain, Canonical.encode [.u64 signedAt, .u64 userSignedAt], d₃, .inr (.inl ?_), ?_⟩
  · simp [Canonical.encode, Canonical.Field.encode]
  · rw [readU64_ok ht, readU64_ok hu, readString_ok hke]
    simp [Canonical.encode]

/-- The statements of the equality test: two digests stand between the attempt and the node. -/
theorem named_of_digests {f : RingBinding → Bytes → Bytes → Decoder α}
    (hf : ∀ b req key, Eff.Returns (fun a => Bound (view a) b req key) (f b req key))
    (h : (readDomain Γ domain label >>= fun _ => readBinding >>= fun b => readString l₁ >>= fun req =>
      readFixed32 l₂ >>= fun _ => readFixed32 l₃ >>= fun _ => readString l₄ >>= fun key => f b req key).run d = .ok a) :
    Named d (view a) := by
  obtain ⟨b, req, rest, _, rfl, hrest⟩ := readStart_ok h
  obtain ⟨x, d₁, hx, h₁⟩ := bind_ok.1 hrest
  obtain ⟨y, d₂, hy, h₂⟩ := bind_ok.1 h₁
  obtain ⟨key, d₃, hke, h₃⟩ := bind_ok.1 h₂
  obtain ⟨hxl, rfl⟩ := (inverts_readFixed ..).1 hx
  obtain ⟨hyl, rfl⟩ := (inverts_readFixed ..).1 hy
  refine (hf b req key _ _ _ h₃).named ⟨domain, x ++ y, d₃, .inr (.inr ?_), ?_⟩
  · rw [length_append, hxl, hyl]
  · rw [readString_ok hke]
    simp

theorem named_of_header {f : InvalidCryptoResponseStatement → Decoder InvalidCryptoResponseStatement}
    {st : InvalidCryptoResponseStatement}
    (hf : ∀ b req key hea, Bound hea b req key → Eff.Returns (fun st => Bound st b req key) (f hea))
    (h : (readDomain Γ domain label >>= fun _ => decodeDkgStatementHeader >>= fun hea => f hea).run d = .ok st) :
    Named d st := by
  obtain ⟨u, d₁, hd, h₁⟩ := bind_ok.1 (succeeds_of_fst_eq h)
  obtain ⟨hea, d₂, hh, h₂⟩ := bind_ok.1 h₁
  unfold decodeDkgStatementHeader at hh
  obtain ⟨b, d₃, hb, h₃⟩ := bind_ok.1 hh
  obtain ⟨req, d₄, hr, h₄⟩ := bind_ok.1 h₃
  obtain ⟨signedAt, d₅, ht, h₅⟩ := bind_ok.1 h₄
  obtain ⟨key, d₆, hke, h₆⟩ := bind_ok.1 h₅
  have hbo : Bound hea b req key := by
    refine (?_ : Eff.Returns (fun st => Bound st b req key) _) _ _ _ h₆
    exact Eff.Returns.bind fun _ => Eff.Returns.bind fun _ => Eff.Returns.bind fun _ =>
      Eff.Returns.pure (bound_statement b req signedAt key _ _ _)
  refine (hf b req key hea hbo _ _ _ h₂).named ⟨domain, Canonical.encode [.u64 signedAt], d₆, .inl ?_, ?_⟩
  · simp [Canonical.encode, Canonical.Field.encode]
  · rw [readDomain_ok hd, readBinding_ok hb, readString_ok hr, readU64_ok ht, readString_ok hke]
    simp [Canonical.encode]

end Decoders

theorem readDkgCommitment_named (h : decodeBounded label (readDkgCommitment Γ) statement = .ok c) :
    Named statement c.toInvalidCryptoResponseStatement := by
  refine named_of_signed DkgCommitmentStatement.toInvalidCryptoResponseStatement (fun b req signedAt key => ?_)
    (decodeBounded_eq_ok h)
  repeat refine Eff.Returns.bind fun _ => ?_
  exact Eff.Returns.pure ⟨rfl, rfl, rfl, rfl, rfl, rfl, rfl⟩

/-- Whatever the kind, the bytes of a statement that is decoded name what the decoder returns. -/
theorem decodeStatement_named {kind : StatementKind}
    (h : decodeStatement Γ kind statement = .ok st) : Named statement st := by
  cases kind with
  | pre | sign =>
    refine named_of_signed id (fun b req signedAt key => ?_) h
    repeat refine Eff.Returns.bind fun _ => ?_
    exact Eff.Returns.pure (bound_statement ..)
  | petBlindReveal | petBlindDecrypt =>
    refine named_of_digests id (fun b req key => ?_) h
    repeat refine Eff.Returns.bind fun _ => ?_
    exact Eff.Returns.pure (bound_statement ..)
  | dkgShare =>
    refine named_of_signed id (fun b req signedAt key => ?_) (decodeBounded_eq_ok h)
    repeat refine Eff.Returns.bind fun _ => ?_
    exact Eff.Returns.pure ⟨rfl, rfl, rfl, rfl, rfl, rfl, rfl⟩
  | dkgInvalidRefreshCommitment =>
    obtain ⟨c, hc, rfl⟩ := decodeDkgInvalidRefreshCommitmentStatement_eq_ok h
    exact readDkgCommitment_named hc
  | dkgPublicOriginFault | dkgLeaderEquivocation | dkgControlMessageFault | dkgLeaderPublicFault | dkgLeaderBatchMismatch =>
    refine named_of_header (fun b req key hea hb => ?_) h
    repeat refine Eff.Returns.bind fun _ => ?_
    exact Eff.Returns.pure { hb with }

theorem DkgCommitmentStatement.named_of_bindingEq {d : DkgCommitmentStatement} (h : c.bindingEq d = true)
    (hna : Named statement d.toInvalidCryptoResponseStatement) : Named statement c.toInvalidCryptoResponseStatement := by
  simp only [DkgCommitmentStatement.bindingEq, Bool.and_eq_true, decide_eq_true_eq] at h
  unfold Named at hna ⊢
  simpa only [h] using hna

theorem Evidence.named {evidence : Evidence} (h : evidence.decode Γ = .ok st)
    (hmem : statement ∈ evidence.statements) : Named statement st := by
  cases evidence with
  | single kind bytes =>
    obtain rfl := mem_singleton.1 hmem
    exact decodeStatement_named h
  | equivocation statementA signatureA statementB signatureB =>
    obtain ⟨a, b, ha, hb, ⟨hbi, -⟩, -, rfl⟩ := decodeDkgEquivocationStatements_eq_ok h
    rcases mem_cons.1 hmem with rfl | hmem
    · exact readDkgCommitment_named ha
    · obtain rfl := mem_singleton.1 hmem
      exact DkgCommitmentStatement.named_of_bindingEq hbi (readDkgCommitment_named hb)

theorem decodeRelayRequestStatement_named
    (h : (decodeRelayRequestStatement Γ).run statement = .ok st) : Named statement st := by
  refine named_of_relayed id (fun b req signedAt userSignedAt key => ?_) h
  repeat refine Eff.Returns.bind fun _ => ?_
  exact Eff.Returns.pure (bound_statement ..)

/-! ## Accepted reports -/

/-- The statements inside the evidence of a report; a report that a node is offline has none. -/
def evidenceStatements (Γ : Env) (r : ReportEnvelope) : List Bytes :=
  if r.reportType = unauthorizedRequestReportType then
    match readUnauthorizedRequest.run r.payload with
    | .ok statement => [statement]
    | _ => []
  else statementsOf Γ r

/-- What an accepted report rests on. -/
structure Founded (ctx : Ctx) (s : State Γ) (r : ReportEnvelope) (ring : Ring) (payload : ReportPayload)
    (accusedCommittee signingCommittee : List Bytes) (threshold : UInt32) : Prop where
  /-- The envelope is of this chain and of the stored ring. -/
  chain : r.chainId = ctx.chainID
  stored : s.rings.get r.ringId = some ring
  ringPk : r.ringPk = ring.ringPk
  digest : r.ringStateSha256 = sha256Hex (Canonical.encode (ring.stateFields true)) ∨
    ring.allowTrustedAuthRelays = false ∧ ring.trustedAuthRelayDids = [] ∧
      r.ringStateSha256 = sha256Hex (Canonical.encode (ring.stateFields false))
  /-- The evidence is of the version in effect when the fault was observed, and is about the envelope. -/
  decoded : decodeReportPayload Γ r = .ok payload
  version : payload.originProtocolVersion = effectiveReportProtocolVersion ring r.observedAt
  evidence : r.reportType ≠ nodeOfflineReportType → evidenceStatements Γ r ≠ []
  statements : ∀ statement ∈ evidenceStatements Γ r, Names statement
    ⟨r.chainId, r.ringId, r.ringPk, r.ringStateSha256, payload.originProtocolVersion⟩ r.sessionId r.accusedNodeKey
  /-- The reporter and the accused are two nodes of the committees that the evidence selects. -/
  different : r.reporterNodeKey ≠ r.accusedNodeKey
  accusedScope : ∃ t, reportCommitteeForScope ring payload.accusedCommitteeScope = .ok (accusedCommittee, t)
  signingScope : reportCommitteeForScope ring payload.signingCommitteeScope = .ok (signingCommittee, threshold)
  reporter : r.reporterNodeKey ∈ signingCommittee
  accused : r.accusedNodeKey ∈ accusedCommittee
  peerId : ∃ info, s.nodeInfos.get r.accusedNodeKey = some info ∧ info.peerId = r.accusedPeerId
  /-- The others can sign: in a committee that names no node twice, without any mention of the accused. -/
  two_le : 2 ≤ threshold
  met : threshold.toNat ≤ (signingCommittee.erase r.accusedNodeKey).length
  met_others : signingCommittee.Nodup → threshold.toNat ≤ (signingCommittee.filter (· != r.accusedNodeKey)).length

theorem validateReportEnvelopeShape_different {now : UInt64}
    (h : validateReportEnvelopeShape Γ r now = .ok u) : r.reporterNodeKey ≠ r.accusedNodeKey := by
  simp only [validateReportEnvelopeShape, bind_eq_ok] at h
  obtain ⟨_, _, _, _, _, _, _, _, _, _, _, hd, _⟩ := h
  exact require_eq_ok.1 hd

theorem decodeReportPayload_statements {payload : ReportPayload} (h : decodeReportPayload Γ r = .ok payload) :
    (r.reportType ≠ nodeOfflineReportType → evidenceStatements Γ r ≠ []) ∧
      ∀ statement ∈ evidenceStatements Γ r, Names statement
        ⟨r.chainId, r.ringId, r.ringPk, r.ringStateSha256, payload.originProtocolVersion⟩ r.sessionId r.accusedNodeKey := by
  -- a statement whose fields are those of the envelope
  have hnam : ∀ {st : InvalidCryptoResponseStatement} {what role : String} {u : Unit} {statement : Bytes},
      checkStatementBinding r st what role = .ok u → Named statement st → Names statement
        ⟨r.chainId, r.ringId, r.ringPk, r.ringStateSha256, st.protocolVersion⟩ r.sessionId r.accusedNodeKey := by
    intro st what role u statement hbi hna
    simp only [checkStatementBinding, bind_eq_ok, require_eq_ok] at hbi
    obtain ⟨_, hch, _, ⟨hid, hpk, hsta⟩, _, hr, _, hno, _⟩ := hbi
    unfold Named at hna
    rwa [hch, hid, hpk, hsta, hr, hno] at hna
  unfold decodeReportPayload at h
  split at h
  · rename_i hof
    have hnone : evidenceStatements Γ r = [] := by
      unfold evidenceStatements statementsOf
      rw [hof, if_neg (by decide), if_neg (by decide)]
    rw [hnone]
    exact ⟨fun hne => absurd hof hne, by simp⟩
  · split at h
    · rename_i hcr
      obtain ⟨st, hst, hrest⟩ := bind_eq_ok.1 h
      obtain ⟨_, hb, hrest⟩ := bind_eq_ok.1 hrest
      obtain ⟨_, hb, _⟩ := bind_eq_ok.1 hb
      obtain rfl := pure_eq_ok.1 hrest
      obtain ⟨evidence, hev, hd⟩ := bind_eq_ok.1 hst
      have hs : evidenceStatements Γ r = evidence.statements := by
        unfold evidenceStatements statementsOf
        rw [hcr, if_neg (by decide), if_pos rfl, hev]
      rw [hs]
      refine ⟨fun _ => ?_, fun statement hmem => hnam hb (Evidence.named hd hmem)⟩
      cases evidence <;> exact cons_ne_nil _ _
    · split at h
      · rename_i hr
        obtain ⟨st, hst, hrest⟩ := bind_eq_ok.1 h
        obtain ⟨_, hb, hrest⟩ := bind_eq_ok.1 hrest
        obtain rfl := pure_eq_ok.1 hrest
        obtain ⟨bytes, hre, hd⟩ := bind_eq_ok.1 hst
        have hs : evidenceStatements Γ r = [bytes] := by
          unfold evidenceStatements
          rw [if_pos hr, hre]
        rw [hs]
        refine ⟨fun _ => cons_ne_nil _ _, fun statement hmem => ?_⟩
        obtain rfl := mem_singleton.1 hmem
        exact hnam hb (decodeRelayRequestStatement_named hd)
      · cases h

theorem reportRingStateDigestMatches_eq_true {ring : Ring} {digest : Bytes}
    (h : reportRingStateDigestMatches ring digest = .ok true) :
    digest = sha256Hex (Canonical.encode (ring.stateFields true)) ∨
      ring.allowTrustedAuthRelays = false ∧ ring.trustedAuthRelayDids = [] ∧
        digest = sha256Hex (Canonical.encode (ring.stateFields false)) := by
  obtain ⟨current, hcu, h⟩ := bind_eq_ok.1 h
  obtain ⟨-, rfl⟩ := canonicalBytes_eq_ok hcu
  split at h
  · rename_i hsame
    exact .inl hsame
  · split at h
    · cases h
    · rename_i hr
      obtain ⟨legacy, hl, h⟩ := bind_eq_ok.1 h
      obtain ⟨-, rfl⟩ := canonicalBytes_eq_ok hl
      have hsame := of_decide_eq_true (pure_eq_ok.1 h)
      simp only [not_or, Bool.not_eq_true, not_not] at hr
      exact .inr ⟨hr.1, hr.2, hsame⟩

end Vera.Orbis
