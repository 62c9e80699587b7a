import Vera.Acp.OlderClaim
import Vera.Acp.PolicyCmd

/-!
# Which policies a command reaches

A command is issued for one policy, and what it gives to the engine, and the commitment it stores, belong to that policy. Two
commands name a row of a table instead: a reveal takes the policy from the commitment it names, and a flag writes to the event it
names, of whatever policy. A command stays inside its policy exactly when these rows belong to it.
-/

namespace Vera.Acp.Policy

open Eff KVStore
open Bytes (str)
open Registration

variable {Γ : PolicyEnv} {txBytes : Bytes} {validity : Option Duration}

/-- The engine keeps what it knows of each policy, the owner records among it, and a call touches only the policy it is given. -/
structure ScopedLaws (Γ : PolicyEnv) extends EngineLaws Γ.toEnv where
  Data : Type
  data : Γ.σ → Bytes → Data
  recordOf : Data → Object → Option RelationshipRecord
  record_eq : ∀ e p o, record e p o = recordOf (data e p) o
  calls : EngineCalls Γ.toEnv fun p e e' => ∀ q, q ≠ p → data e' q = data e q
  setRelationship : ∀ {e e' principal p relationship blob res},
    (Γ.setRelationship principal p relationship blob).Succeeds e res e' → ∀ q, q ≠ p → data e' q = data e q
  deleteRelationship : ∀ {e e' principal p relationship found},
    (Γ.deleteRelationship principal p relationship).Succeeds e found e' → ∀ q, q ≠ p → data e' q = data e q

/-- What a policy has in the two states is the same: its relationships and registrations, its commitments and its events. -/
structure Untouched (L : ScopedLaws Γ) (q : Bytes) (s t : Registration.State Γ.toEnv) : Prop where
  data : L.data t.engine q = L.data s.engine q
  commitments : ∀ id, (t.commitments.get id).filter (fun c => c.policyId = q) =
    (s.commitments.get id).filter fun c => c.policyId = q
  amendments : ∀ id, (t.amendments.get id).filter (fun event => event.policyId = q) =
    (s.amendments.get id).filter fun event => event.policyId = q

/-- The rows a command names belong to its policy: the commitment of a reveal, and the event of a flag that is not yet set. -/
def InPolicy (p : Bytes) (s : Registration.State Γ.toEnv) : Cmd → Prop
  | .revealRegistration id _ => ∀ c ∈ s.commitments.get id, c.policyId = p
  | .flagHijackAttempt id => ∀ event ∈ s.amendments.get id, event.policyId = p ∨ event.hijackFlag = true
  | _ => True

/-- The same for every command of a policy; the others name no row. -/
def PolicyCmd.InPolicy (p : Bytes) (s : Registration.State Γ.toEnv) : Option (PolicyCmd Γ.Relationship) → Prop
  | some (.registration cmd) => Policy.InPolicy p s cmd
  | _ => True

/-- The next rows of the two tables are free, as the tables hand out ids that are not in use. -/
structure NextFree (s : Registration.State Γ.toEnv) : Prop where
  commitment : s.commitments.get (s.lastCommitmentId + 1) = none
  amendment : s.amendments.get (s.lastAmendmentId + 1) = none

section Rows

variable {V : Type} (policyOf : V → Bytes) {q : Bytes}

theorem filter_set_new {table : KVStore UInt64 V} {key : UInt64} {v : V} (hf : table.get key = none) (hv : policyOf v ≠ q)
    (id : UInt64) : ((table.set key v).get id).filter (fun v => policyOf v = q) =
      (table.get id).filter fun v => policyOf v = q := by
  rw [get_set]
  split
  · rename_i h
    rw [h, hf, Option.filter_some, if_neg (by simpa using hv), Option.filter_none]
  · rfl

theorem filter_set_changed {table : KVStore UInt64 V} {key : UInt64} {v v' : V} (hget : table.get key = some v)
    (hv : policyOf v ≠ q) (hv' : policyOf v' ≠ q) (id : UInt64) :
    ((table.set key v').get id).filter (fun v => policyOf v = q) = (table.get id).filter fun v => policyOf v = q := by
  rw [get_set]
  split
  · rename_i h
    rw [h, hget, Option.filter_some, Option.filter_some, if_neg (by simpa using hv'), if_neg (by simpa using hv)]
  · rfl

end Rows

section Scope

variable (L : ScopedLaws Γ) {ctx : CmdCtx} {s t : Registration.State Γ.toEnv} {cmd : Cmd}

theorem untouched_of_engine {q : Bytes} {e : Γ.σ} (h : L.data e q = L.data s.engine q) :
    Untouched L q s { s with engine := e } := ⟨h, fun _ => rfl, fun _ => rfl⟩

theorem claim_get {id : UInt64} {proof : Option Commitment.RegistrationProof} {c : RegistrationsCommitment} {o : Object}
    (h : (Cmd.revealRegistration id proof).claim s = some (c, o)) : s.commitments.get id = some c := by
  simp only [Cmd.claim, Option.bind_eq_bind, Option.bind_eq_some_iff, Option.pure_def, Option.some.injEq, Prod.mk.injEq] at h
  obtain ⟨c', hc, _, -, _, -, rfl, -⟩ := h
  exact hc

/-- What a command of one policy writes is not seen in another one, if the rows it names belong to the policy. -/
theorem untouched_of_writes (hf : NextFree s)
    (hw : Writes ctx s cmd t) (hin : InPolicy ctx.policyId s cmd) {q : Bytes} (hq : q ≠ ctx.policyId) : Untouched L q s t := by
  cases hw with
  | registered _ _ _ _ _ hcall => exact untouched_of_engine L (L.calls.register hcall q hq)
  | archived _ _ _ hcall => exact untouched_of_engine L (L.calls.archive hcall q hq)
  | unarchived _ _ _ hcall => exact untouched_of_engine L (L.calls.unarchive hcall q hq)
  | committed commitment c hid hpolicy hexpired =>
    refine ⟨rfl, fun id => ?_, fun _ => rfl⟩
    refine filter_set_new RegistrationsCommitment.policyId ?_ ?_ id
    · rw [hid]
      exact hf.commitment
    · rw [hpolicy]
      exact hq.symm
  | revealed id proof c o e registration made blob r hclaim hget hnew hmade hblob hreveal =>
    have he := L.calls.reveal hreveal
    rw [hin c (claim_get hclaim)] at he
    exact untouched_of_engine L (he q hq)
  | amended id proof c o e registration record metadata made made' blob r event hclaim _ _ _ _ _ _ _ _ hamend hid hpolicy =>
    have he := L.calls.amend hamend
    have hc : c.policyId = ctx.policyId := hin c (claim_get hclaim)
    rw [hc] at he hpolicy
    refine ⟨he q hq, fun _ => rfl, fun id => ?_⟩
    refine filter_set_new AmendmentEvent.policyId ?_ ?_ id
    · rw [hid]
      exact hf.amendment
    · rw [hpolicy]
      exact hq.symm
  | flagged id event hevent =>
    refine ⟨rfl, fun _ => rfl, fun id' => ?_⟩
    rcases hin event hevent with hpolicy | hflag
    · have hne : event.policyId ≠ q := hpolicy ▸ hq.symm
      have hne' : ({ event with hijackFlag := true } : AmendmentEvent).policyId ≠ q := hne
      exact filter_set_changed AmendmentEvent.policyId hevent hne hne' id'
    · -- the flag was set before
      have hsame : { event with hijackFlag := true } = event := by rw [← hflag]
      rw [get_set, hsame]
      split
      · rename_i h
        rw [h, hevent]
      · rfl

/-- If nothing is seen in other policies, the rows that a command names belong to its policy. -/
theorem inPolicy_of_untouched (hf : NextFree s)
    (hw : Writes ctx s cmd t) (h : ∀ q, q ≠ ctx.policyId → Untouched L q s t) : InPolicy ctx.policyId s cmd := by
  cases hw with
  | registered | archived | unarchived | committed => trivial
  | revealed id proof c o e registration made blob r hclaim hget hnew hmade hblob hreveal =>
    intro c' hc'
    obtain rfl := Option.some.inj ((claim_get hclaim).symm.trans hc')
    by_contra hne
    -- the object is registered now, and was not before
    have hb : L.record s.engine c.policyId o = none := by
      rw [← Option.not_isSome_iff_eq_none, ← (L.get hget).1, hnew]
      exact Bool.false_ne_true
    have ha := (L.reveal hreveal).2.2 c.policyId o
    rw [if_pos ⟨rfl, rfl⟩, L.record_eq, (h c.policyId hne).data, ← L.record_eq, hb] at ha
    cases ha
  | amended id proof c o e registration record metadata made made' blob r event hclaim _ _ _ _ _ _ _ _ hamend hid hpolicy =>
    intro c' hc'
    obtain rfl := Option.some.inj ((claim_get hclaim).symm.trans hc')
    by_contra hne
    -- the event is there now, and its row was free before
    have hevent := (h c.policyId hne).amendments event.id
    dsimp only at hevent
    rw [get_set_self, hid, hf.amendment] at hevent
    simp [hpolicy] at hevent
  | flagged id event hevent =>
    intro event' hevent'
    obtain rfl := Option.some.inj (hevent.symm.trans hevent')
    by_contra hne
    rw [not_or] at hne
    have hr := (h event.policyId hne.1).amendments id
    dsimp only at hr
    rw [get_set_self, hevent] at hr
    simp only [Option.filter_some, decide_true, if_true, Option.some.injEq] at hr
    exact hne.2 (congrArg AmendmentEvent.hijackFlag hr).symm

/-- A command that succeeds stays inside its policy exactly when the rows it names belong to the policy. -/
theorem dispatch_scope_iff {cmd : Option (PolicyCmd Γ.Relationship)} {r : PolicyCmdResult Γ.Relationship} (hf : NextFree s)
    (h : (dispatch ctx cmd).Succeeds s r t) :
    (∀ q, q ≠ ctx.policyId → Untouched L q s t) ↔ PolicyCmd.InPolicy ctx.policyId s cmd := by
  unfold dispatch at h
  rw [lift_bind_ok] at h
  obtain ⟨u, hp, h⟩ := h
  rw [lift_bind_ok] at h
  obtain ⟨c, hc, h⟩ := h
  obtain rfl := deref_eq_ok.1 hc
  cases c with
  | setRelationship relationship =>
    obtain ⟨metadata, -, h⟩ := lift_bind_ok.1 h
    obtain ⟨res, t₁, hcall, h⟩ := bind_ok.1 h
    obtain ⟨record, -, h⟩ := lift_bind_ok.1 h
    obtain ⟨-, rfl⟩ := pure_ok.1 h
    obtain ⟨e, hs, rfl⟩ := callEngine_ok.1 hcall
    exact ⟨fun _ => trivial, fun _ q hq => untouched_of_engine L (L.setRelationship hs q hq)⟩
  | deleteRelationship relationship =>
    obtain ⟨found, t₁, hcall, h⟩ := bind_ok.1 h
    obtain ⟨-, rfl⟩ := pure_ok.1 h
    obtain ⟨e, hde, rfl⟩ := callEngine_ok.1 hcall
    exact ⟨fun _ => trivial, fun _ q hq => untouched_of_engine L (L.deleteRelationship hde q hq)⟩
  | registration cmd =>
    obtain ⟨res, t₁, hh, h⟩ := bind_ok.1 h
    obtain ⟨-, rfl⟩ := pure_ok.1 h
    have hd : (Registration.dispatch ctx cmd).Succeeds s res t :=
      lift_bind_ok.2 ⟨u, hp, hh⟩
    have hw := dispatch_writes hd
    exact ⟨inPolicy_of_untouched L hf hw, fun hin q hq => untouched_of_writes L hf hw hin hq⟩
  | unset => exact absurd h fail_ok

end Scope

/-- For every way of issuing a command and every state: a command that succeeds leaves every policy but its own untouched exactly
when the commitment it reveals, or the event it flags, belongs to its policy. -/
theorem policy_cmd_scope_iff (L : ScopedLaws Γ) (i : Issue Γ) {s t : Keeper Γ txBytes validity}
    {r : PolicyCmdResult Γ.Relationship} {p : Bytes} {cmd : Option (PolicyCmd Γ.Relationship)}
    (htarget : i.target txBytes validity = some (p, cmd)) (hfree : NextFree s.handler) (h : i.call.Succeeds s r t) :
    (∀ q, q ≠ p → Untouched L q s.handler t.handler) ↔ PolicyCmd.InPolicy p s.handler cmd := by
  obtain ⟨ctx, rfl, hd⟩ := i.dispatched htarget h
  exact dispatch_scope_iff L hfree hd

/-! ## A local engine -/

namespace Local

open Registration.Local

/-- The local engine, whose policies define no relation but that of the owner; the bulletin module has claimed every capability. -/
def policyEnv : PolicyEnv := { engine with
  Relationship := Unit
  setRelationship := fun _ _ _ _ => Eff.fail (.kind .badInput)
  deleteRelationship := fun _ _ _ => Eff.fail (.kind .badInput)
  errUnknownVariant := .kind .unknown
  issueDIDFromAccountAddr := fun address => .ok (str "did:key:" ++ address)
  JWS := Unit
  PubKey := Unit
  Algorithm := Unit
  parseSigned := fun _ => .error (str "parse error")
  payloadOf := fun _ => []
  signatureOf := fun _ => []
  unmarshalPayload := fun _ => .error (str "unexpected end of JSON input")
  decodeDID := fun _ => .error (str "invalid did")
  bytesToPubKey := fun _ _ => .ok ()
  toECDSA := fun _ => none
  es256k := ()
  algorithmsForKey := fun _ => .ok [()]
  verifyJWS := fun _ _ _ => .error (str "could not verify message")
  tokens := {
    sdk := ⟨fun a => .ok a, fun a => a, fun a _ => .ok a, fun _ => .ok (), some⟩
    unmarshalMembers := fun _ => .ok []
    unmarshalBearerToken := fun _ => .error (str "unexpected end of JSON input")
    isValidDID := fun _ => .ok ()
    dateTime := fun _ => [] }
  Capability := Unit
  authenticateCapability := fun _ _ => true
  lookupModules := fun _ => .ok [str "acp", str "bulletin"]
  errorText := fun _ => str "error" }

theorem find_put_of_ne {r r' : RelationshipRecord} {e e' : List RelationshipRecord} (h : (put r).Succeeds e r' e') {q : Bytes}
    (hq : q ≠ r.policyId) : find e' q = find e q := by
  obtain ⟨-, rfl⟩ := put_ok h
  funext x
  rw [find_cons, if_neg fun h => hq h.1]

theorem find_flag_of_ne {archived : Bool} {principal : Principal} {p : Bytes} {o : Option Object} {r : RelationshipRecord}
    {e e' : List RelationshipRecord} (h : (flag archived principal p o).Succeeds e r e') {q : Bytes} (hq : q ≠ p) :
    find e' q = find e q := by
  unfold flag at h
  rw [lift_bind_ok] at h
  obtain ⟨o, -, h⟩ := h
  rw [query_bind_ok] at h
  obtain ⟨r₀, hr₀, h⟩ := h
  rw [require_bind_ok] at h
  refine find_put_of_ne h.2 ?_
  rw [(find_eq_some (Outcome.ofOption_eq_ok.1 hr₀)).1]
  exact hq

/-- What the local engine knows of a policy are its records. -/
def scopedLaws : ScopedLaws policyEnv := { laws with
  Data := Object → Option RelationshipRecord
  data := find
  recordOf := fun records o => records o
  record_eq := fun _ _ _ => rfl
  calls := {
    register := by
      intro e e' principal p o blob r h q hq
      obtain ⟨o', -, hrest⟩ := lift_bind_ok.1 h
      obtain ⟨-, hput⟩ := require_bind_ok.1 (read_bind_ok.1 hrest)
      exact find_put_of_ne hput hq
    reveal := by
      intro e e' principal p o blob ts r h q hq
      obtain ⟨o', -, hput⟩ := lift_bind_ok.1 h
      exact find_put_of_ne hput hq
    amend := by
      intro e e' principal p o actor ts blob r h q hq
      exact find_put_of_ne h hq
    archive := by
      intro e e' principal p o n h q hq
      obtain ⟨r, e₁, hflag, h⟩ := bind_ok.1 h
      obtain ⟨-, rfl⟩ := pure_ok.1 h
      exact find_flag_of_ne hflag hq
    unarchive := by
      intro e e' principal p o res h q hq
      obtain ⟨r, e₁, hflag, h⟩ := bind_ok.1 h
      obtain ⟨-, rfl⟩ := pure_ok.1 h
      exact find_flag_of_ne hflag hq }
  setRelationship := fun h => absurd h fail_ok
  deleteRelationship := fun h => absurd h fail_ok }

def ctxFor (policyId did : Bytes) (height : Nat) (h : height < 2 ^ 63) : CmdCtx := { ctx did height h with policyId := policyId }

/-- Bob's commitment to the object in a policy. -/
def commitIn (policyId : Bytes) : CmdCtx × Cmd :=
  (ctxFor policyId bob 4 (by decide), .commitRegistrations (Commitment.produceLeafHash policyId ⟨bob⟩ doc))

def keeperAfter (inputs : List (CmdCtx × Cmd)) : Keeper policyEnv [] none where
  seen := KVStore.empty
  maxExpirationDelta := 100
  handler := Run.run (Registration.step (Γ := policyEnv.toEnv)) (State.init (Γ := policyEnv.toEnv) ([] : List RelationshipRecord))
    inputs
  block := (ctx bob 7 (by decide)).block

def revealDoc : Cmd := .revealRegistration 1 (some ⟨some doc, [], 1, 0⟩)

/-- A command that a module issues for Bob in the policy whose capability it holds. -/
def moduleCmd (cmd : Cmd) : Issue policyEnv := .moduleForActorDID ⟨str "policy", ()⟩ (some (.registration cmd)) bob (str "signer")

end Local

/-- Bob has committed to an object in a policy, and reveals the commitment through a module that holds the capability of this
policy. -/
theorem policy_cmd_scope_iff_reveal :
    let s := Local.keeperAfter [Local.commitIn (str "policy")]
    let t := ((Local.moduleCmd Local.revealDoc).call s).2
    ((Local.moduleCmd Local.revealDoc).call s).1.isOk = true ∧
      ∀ q, q ≠ str "policy" → Untouched Local.scopedLaws q s.handler t.handler := by
  intro s t
  have hok : ((Local.moduleCmd Local.revealDoc).call s).1.isOk = true := by decide +kernel
  obtain ⟨r, h⟩ := succeeds_of_isOk hok
  have hin : ∀ c ∈ s.handler.commitments.get 1, c.policyId = str "policy" := by decide +kernel
  exact ⟨hok, (policy_cmd_scope_iff Local.scopedLaws (Local.moduleCmd Local.revealDoc) rfl
    ⟨by decide +kernel, by decide +kernel⟩ h).2 hin⟩

/-- A module that holds the capability of one policy registers an object in another one, where Bob has committed to it; and it flags
an event of another policy, in which Bob took the object over. -/
theorem policy_cmd_scope_false :
    let s := Local.keeperAfter [Local.commitIn (str "other")]
    let s' := Local.keeperAfter [Local.commitIn (str "other"),
      (Local.ctxFor (str "other") Registration.Local.alice 5 (by decide), .registerObject (some Registration.Local.doc)),
      (Local.ctxFor (str "other") Registration.Local.bob 6 (by decide), Local.revealDoc)]
    let t := ((Local.moduleCmd Local.revealDoc).call s).2
    let t' := ((Local.moduleCmd (.flagHijackAttempt 1)).call s').2
    (((Local.moduleCmd Local.revealDoc).call s).1.isOk = true ∧ ¬Untouched Local.scopedLaws (str "other") s.handler t.handler) ∧
      ((Local.moduleCmd (.flagHijackAttempt 1)).call s').1.isOk = true ∧
        ¬Untouched Local.scopedLaws (str "other") s'.handler t'.handler := by
  intro s s' t t'
  refine ⟨⟨by decide +kernel, fun h => ?_⟩, by decide +kernel, fun h => ?_⟩
  · have hd := congrFun h.data Registration.Local.doc
    have hb : (Registration.Local.find s.handler.engine (str "other") Registration.Local.doc).isSome = false := by
      decide +kernel
    have ha : (Registration.Local.find t.handler.engine (str "other") Registration.Local.doc).isSome = true := by
      decide +kernel
    have hsame : (Registration.Local.find s.handler.engine (str "other") Registration.Local.doc).isSome = true :=
      (congrArg Option.isSome hd).symm.trans ha
    exact Bool.false_ne_true (hb.symm.trans hsame)
  · have hr := congrArg (fun row => row.map fun event : AmendmentEvent => event.hijackFlag) (h.amendments 1)
    revert hr
    decide +kernel

end Vera.Acp.Policy
