import Vera.Acp.Registration

/-!
# What a command writes

A command that succeeds has called the engine for one policy, added or changed one row of a table, or both: a commitment adds a
row to the commitments, an amendment one to the events, and a hijack is flagged in the row of its event. The policy of a reveal is
that of the commitment, and the policy of a flag is that of the event, whatever policy the command was given.
-/

namespace Vera.Acp.Registration

open Eff Outcome
open Commitment (RegistrationProof)

variable {Γ : Env} {s t : State Γ} {ctx : CmdCtx}

theorem callEngine_ok {α : Type} {x : Eff Γ.σ Error α} {a : α} :
    (callEngine x).Succeeds s a t ↔ ∃ e, x.Succeeds s.engine a e ∧ t = { s with engine := e } := by
  simp only [callEngine, Eff.Succeeds, Prod.mk.injEq]
  constructor
  · rintro ⟨hres, rfl⟩
    exact ⟨(x s.engine).2, Prod.ext hres rfl, rfl⟩
  · rintro ⟨e, hx, rfl⟩
    simp [hx]

variable {id : UInt64} {proof : Option RegistrationProof} {actor : Actor} {c : RegistrationsCommitment}
  {res : RelationshipRecord × Option AmendmentEvent}

/-- An opening that is accepted: it is there and names an object, and the commitment is stored and still valid. -/
theorem validateOpening_ok (h : (validateOpening ctx id proof actor).Succeeds s (c, true) t) :
    t = s ∧ s.commitments.get id = some c ∧ (∃ opening o, proof = some opening ∧ opening.object = some o) ∧
      ∃ now ts, timestampFromCtx ctx.block = .ok now ∧ c.metadata.creationTs = some ts ∧
        isAfter Γ ts c.validity now = .ok false := by
  unfold validateOpening at h
  rw [query_bind_ok] at h
  obtain ⟨c', hc, h⟩ := h
  rw [lift_bind_ok] at h
  obtain ⟨now, hno, h⟩ := h
  rw [lift_bind_ok] at h
  obtain ⟨ts, hts, h⟩ := h
  rw [lift_bind_ok] at h
  obtain ⟨after, ha, h⟩ := h
  rw [require_bind_ok, lift_bind_ok] at h
  obtain ⟨rfl, ok, hok, h⟩ := h
  rw [pure_ok, Prod.mk.injEq] at h
  obtain ⟨⟨rfl, rfl⟩, rfl⟩ := h
  refine ⟨rfl, ofOption_eq_ok.1 hc, ?_, now, ts, ofExcept_eq_ok.1 hno, deref_eq_ok.1 hts, mapErr_eq_ok.1 ha⟩
  have hop := mapErr_eq_ok.1 hok
  simp only [Commitment.verifyProof, bind_eq_ok, ofOption_eq_ok] at hop
  obtain ⟨_, -, _, -, _, -, opening, hp, o, ho, -⟩ := hop
  exact ⟨opening, o, hp, ho⟩

/-- What the calls of the engine do to its state, said for the policy they are given. -/
structure EngineCalls (Γ : Env) (T : Bytes → Γ.σ → Γ.σ → Prop) : Prop where
  register : ∀ {e e' principal p o blob r}, (Γ.registerObject principal p o blob).Succeeds e r e' → T p e e'
  reveal : ∀ {e e' principal p o blob ts r}, (Γ.revealRegistration principal p o blob ts).Succeeds e r e' → T p e e'
  amend : ∀ {e e' principal p o actor ts blob r}, (Γ.amendRegistration principal p o actor ts blob).Succeeds e r e' → T p e e'
  archive : ∀ {e e' principal p o n}, (Γ.archiveObject principal p o).Succeeds e n e' → T p e e'
  unarchive : ∀ {e e' principal p o res}, (Γ.unarchiveObject principal p o).Succeeds e res e' → T p e e'

def Cmd.claim (s : State Γ) : Cmd → Option (RegistrationsCommitment × Object)
  | .revealRegistration commitmentId proof => do
    let c ← s.commitments.get commitmentId
    let proof ← proof
    let o ← proof.object
    pure (c, o)
  | _ => none

/-- What a command that succeeds does: the call of the engine, with what it is given, and the row that is written. -/
inductive Writes (ctx : CmdCtx) (s : State Γ) : Cmd → State Γ → Prop
  | registered (object blob r e) (hblob : buildACPSuppliedMetadata Γ ctx ctx.principalDID ctx.signer = .ok blob)
    (hcall : (Γ.registerObject (.did ctx.principalDID) ctx.policyId object blob).Succeeds s.engine r e) :
    Writes ctx s (.registerObject object) { s with engine := e }
  | archived (object n e) (hcall : (Γ.archiveObject (.did ctx.principalDID) ctx.policyId object).Succeeds s.engine n e) :
    Writes ctx s (.archiveObject object) { s with engine := e }
  | unarchived (object res e) (hcall : (Γ.unarchiveObject (.did ctx.principalDID) ctx.policyId object).Succeeds s.engine res e) :
    Writes ctx s (.unarchiveObject object) { s with engine := e }
  | committed (commitment : Bytes) (c : RegistrationsCommitment) (hid : c.id = s.lastCommitmentId + 1)
    (hpolicy : c.policyId = ctx.policyId) (hexpired : c.expired = false) :
    Writes ctx s (.commitRegistrations commitment)
      { s with commitments := s.commitments.set c.id c, lastCommitmentId := c.id }
  | revealed (id proof c o e registration made blob r) (hclaim : (Cmd.revealRegistration id proof).claim s = some (c, o))
    (hget : Γ.getObjectRegistration s.engine (.did ctx.principalDID) c.policyId (some o) = .ok registration)
    (hnew : registration.isRegistered = false) (hmade : c.metadata.creationTs = some made)
    (hblob : buildACPSuppliedMetadataWithTime Γ ctx c.metadata.creationTs ctx.principalDID ctx.signer = .ok blob)
    (hreveal : (Γ.revealRegistration (.did ctx.principalDID) c.policyId (some o) blob made.protoTs).Succeeds s.engine r e) :
    Writes ctx s (.revealRegistration id proof) { s with engine := e }
  | amended (id proof c o e registration record metadata made made' blob r) (event : AmendmentEvent)
    (hclaim : (Cmd.revealRegistration id proof).claim s = some (c, o))
    (hget : Γ.getObjectRegistration s.engine (.did ctx.principalDID) c.policyId (some o) = .ok registration)
    (hregistered : registration.isRegistered = true) (hrecord : registration.record = some record)
    (hmetadata : Γ.unmarshal record.supplied = .ok metadata) (hmade' : metadata.creationTs = some made')
    (hmade : c.metadata.creationTs = some made) (hnot : ¬made'.blockHeight < made.blockHeight)
    (hblob : buildACPSuppliedMetadataWithTime Γ ctx c.metadata.creationTs ctx.principalDID ctx.signer = .ok blob)
    (hamend : (Γ.amendRegistration .root c.policyId record.object ⟨ctx.principalDID⟩ made.protoTs blob).Succeeds s.engine r e)
    (hid : event.id = s.lastAmendmentId + 1) (hpolicy : event.policyId = c.policyId) :
    Writes ctx s (.revealRegistration id proof)
      { s with engine := e, amendments := s.amendments.set event.id event, lastAmendmentId := event.id }
  | flagged (id : UInt64) (event : AmendmentEvent) (hevent : s.amendments.get id = some event) :
    Writes ctx s (.flagHijackAttempt id) { s with amendments := s.amendments.set id { event with hijackFlag := true } }

theorem setNewCommitment_writes {commitment : Bytes}
    (h : (setNewCommitment ctx commitment actor).Succeeds s c t) : Writes ctx s (.commitRegistrations commitment) t := by
  unfold setNewCommitment askEngine at h
  rw [query_bind_ok] at h
  obtain ⟨found, -, h⟩ := h
  rw [require_bind_ok, require_bind_ok, lift_bind_ok] at h
  obtain ⟨-, -, m, -, h⟩ := h
  rw [read_bind_ok, modify_bind_ok, pure_ok] at h
  obtain ⟨-, rfl⟩ := h
  exact .committed commitment _ rfl rfl rfl

theorem flagHijackEvent_writes {event : AmendmentEvent}
    (h : (flagHijackEvent id actor).Succeeds s event t) : Writes ctx s (.flagHijackAttempt id) t := by
  unfold flagHijackEvent at h
  rw [query_bind_ok] at h
  obtain ⟨stored, hstored, h⟩ := h
  rw [require_bind_ok, modify_bind_ok, pure_ok] at h
  obtain ⟨-, -, rfl⟩ := h
  exact .flagged id stored (ofOption_eq_ok.1 hstored)

theorem revealRegistration_writes (h : (revealRegistration ctx id proof ⟨ctx.principalDID⟩).Succeeds s res t) :
    Writes ctx s (.revealRegistration id proof) t := by
  unfold revealRegistration at h
  rw [bind_ok] at h
  obtain ⟨⟨c, ok⟩, s₁, hop, h⟩ := h
  dsimp only at h
  rw [require_bind_ok, lift_bind_ok] at h
  obtain ⟨rfl, opening, hp, h⟩ := h
  obtain ⟨rfl, hc, ⟨opening', o, rfl, ho⟩, -⟩ := validateOpening_ok hop
  obtain rfl : opening' = opening := Option.some.inj (deref_eq_ok.1 hp)
  have hclaim : (Cmd.revealRegistration id (some opening')).claim s₁ = some (c, o) := by
    simp [Cmd.claim, hc, ho]
  unfold askEngine at h
  rw [query_bind_ok, ho] at h
  obtain ⟨registration, hget, h⟩ := h
  split at h
  · -- the object is registered
    rename_i hregistered
    simp only [amendRegistration, lift_bind_ok, require_bind_ok] at h
    obtain ⟨record, hrecord, metadata, hmetadata, made', hmade', made, hmade, hnot, blob, hblob, h⟩ := h
    obtain ⟨r, t₁, hcall, h⟩ := bind_ok.1 h
    rw [lift_bind_ok] at h
    obtain ⟨eventMetadata, -, h⟩ := h
    rw [read_bind_ok, modify_bind_ok, pure_ok] at h
    obtain ⟨-, rfl⟩ := h
    obtain ⟨e, hamend, rfl⟩ := callEngine_ok.1 hcall
    exact .amended id _ c o e registration record metadata made made' blob r
      ⟨s₁.lastAmendmentId + 1, c.policyId, record.object, _, _, c.id, false, eventMetadata⟩ hclaim (ofExcept_eq_ok.1 hget)
      hregistered (deref_eq_ok.1 hrecord) (ofExcept_eq_ok.1 hmetadata) (deref_eq_ok.1 hmade') (deref_eq_ok.1 hmade) hnot hblob
      hamend rfl rfl
  · rename_i hnew
    simp only [lift_bind_ok] at h
    obtain ⟨made, hmade, blob, hblob, h⟩ := h
    obtain ⟨r, t₁, hcall, h⟩ := bind_ok.1 h
    obtain ⟨-, rfl⟩ := pure_ok.1 h
    obtain ⟨e, hreveal, rfl⟩ := callEngine_ok.1 hcall
    exact .revealed id _ c o e registration made blob r hclaim (ofExcept_eq_ok.1 hget) (Bool.not_eq_true _ ▸ hnew)
      (deref_eq_ok.1 hmade) hblob hreveal

theorem dispatch_writes {cmd : Cmd} {res : CmdResult} (h : (dispatch ctx cmd).Succeeds s res t) : Writes ctx s cmd t := by
  unfold dispatch at h
  rw [lift_bind_ok] at h
  obtain ⟨-, -, h⟩ := h
  cases cmd with
  | registerObject object =>
    obtain ⟨r, t₁, hcall, h⟩ := bind_ok.1 h
    obtain ⟨record, -, h⟩ := lift_bind_ok.1 h
    obtain ⟨-, rfl⟩ := pure_ok.1 h
    obtain ⟨blob, hblob, hcall⟩ := lift_bind_ok.1 hcall
    obtain ⟨e, hr, rfl⟩ := callEngine_ok.1 hcall
    exact .registered object blob r e hblob hr
  | archiveObject object =>
    obtain ⟨n, t₁, hcall, h⟩ := bind_ok.1 h
    obtain ⟨-, rfl⟩ := pure_ok.1 h
    obtain ⟨e, ha, rfl⟩ := callEngine_ok.1 hcall
    exact .archived object n e ha
  | unarchiveObject object =>
    obtain ⟨r, t₁, hcall, h⟩ := bind_ok.1 h
    obtain ⟨record, -, h⟩ := lift_bind_ok.1 h
    obtain ⟨-, rfl⟩ := pure_ok.1 h
    obtain ⟨e, hu, rfl⟩ := callEngine_ok.1 hcall
    exact .unarchived object r e hu
  | commitRegistrations commitment =>
    obtain ⟨c, t₁, hcall, h⟩ := bind_ok.1 h
    obtain ⟨-, rfl⟩ := pure_ok.1 h
    exact setNewCommitment_writes hcall
  | revealRegistration id proof =>
    obtain ⟨r, t₁, hcall, h⟩ := bind_ok.1 h
    obtain ⟨record, -, h⟩ := lift_bind_ok.1 h
    obtain ⟨-, rfl⟩ := pure_ok.1 h
    exact revealRegistration_writes hcall
  | flagHijackAttempt id =>
    obtain ⟨event, t₁, hcall, h⟩ := bind_ok.1 h
    obtain ⟨-, rfl⟩ := pure_ok.1 h
    exact flagHijackEvent_writes hcall

end Vera.Acp.Registration
