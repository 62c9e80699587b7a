import Vera.Orbis.RingChanges

/-!
# What only reports write

The records of accepted reports and the demerits of nodes are written by submissions and by the ends of blocks, and by no other
message. The other messages change the state of the other modules only by registering a ring.
-/

namespace Vera.Orbis

variable {Γ : RingEnv} {β : Type}

/-- The records of reports, the demerits and what is seen of the other modules stay. -/
structure KeepsRecords (view : Γ.σ → β) (s t : State Γ.toEnv) : Prop where
  records : t.records = s.records
  demerits : t.demerits = s.demerits
  view : view t.env = view s.env

variable {view : Γ.σ → β}

theorem KeepsRecords.refl (s : State Γ.toEnv) : KeepsRecords view s s := ⟨rfl, rfl, rfl⟩

theorem KeepsRecords.trans ⦃s t u : State Γ.toEnv⦄ (h : KeepsRecords view s t) (h' : KeepsRecords view t u) :
    KeepsRecords view s u :=
  ⟨h'.records.trans h.records, h'.demerits.trans h.demerits, h'.view.trans h.view⟩

/-! ## Calls -/

section Calls

variable {α δ : Type} {x : M Γ.toEnv α} {f : α → M Γ.toEnv δ}

theorem keepsRecords_of_unchanged (h : ∀ s, (x s).2 = s) : x.Respects (KeepsRecords view) :=
  Eff.Respects.of_unchanged KeepsRecords.refl h

theorem keepsRecords_bind (hx : x.Respects (KeepsRecords view)) (hf : ∀ a, (f a).Respects (KeepsRecords view)) :
    (x >>= f).Respects (KeepsRecords view) :=
  Eff.Respects.bind KeepsRecords.trans hx hf

theorem keepsRecords_after (hx : ∀ s, (x s).2 = s) (hf : ∀ a, (f a).Respects (KeepsRecords view)) :
    (x >>= f).Respects (KeepsRecords view) :=
  keepsRecords_bind (keepsRecords_of_unchanged hx) hf

theorem keepsRecords_pure (a : α) : (pure a : M Γ.toEnv α).Respects (KeepsRecords view) :=
  keepsRecords_of_unchanged fun _ => rfl

end Calls

theorem keepsRecords_setRing (ring : Ring) : (setRing ring : M Γ.toEnv Unit).Respects (KeepsRecords view) :=
  fun _ => ⟨rfl, rfl, rfl⟩

theorem keepsRecords_deleteRing (id : Bytes) : (deleteRing id : M Γ.toEnv Unit).Respects (KeepsRecords view) :=
  fun _ => ⟨rfl, rfl, rfl⟩

theorem keepsRecords_setNodeInfo (key : Bytes) (nodeInfo : NodeInfo) :
    (setNodeInfo key nodeInfo : M Γ.toEnv Unit).Respects (KeepsRecords view) :=
  fun _ => ⟨rfl, rfl, rfl⟩

theorem keepsRecords_emit (e : Event) : (emit e : M Γ.toEnv Unit).Respects (KeepsRecords view) :=
  fun _ => ⟨rfl, rfl, rfl⟩

theorem keepsRecords_setRing_emit (ring : Ring) (e : Event) :
    (setRing ring >>= fun _ => emit e : M Γ.toEnv Unit).Respects (KeepsRecords view) :=
  keepsRecords_bind (keepsRecords_setRing ring) fun _ => keepsRecords_emit e

/-! ## Messages on rings -/

/-- Registering a ring changes nothing that is seen of the other modules. -/
def RegistersOnly (view : Γ.σ → β) : Prop :=
  ∀ env creator policyId ringId env', Γ.registerRing env creator policyId ringId = .ok env' → view env' = view env

theorem keepsRecords_registerRing (hv : RegistersOnly view) (creator policyID ringID : Bytes) :
    (registerRingACPObject creator policyID ringID : M Γ.toEnv Unit).Respects (KeepsRecords view) := by
  intro s
  cases hr : Γ.registerRing s.env creator policyID ringID with
  | error e =>
    have hen : registerRingACPObject creator policyID ringID s = (.err ⟨.other, e⟩, s) := by
      refine Eff.bind_of_err ?_
      show (Outcome.ofExcept _ (Γ.registerRing s.env creator policyID ringID), s) = _
      rw [hr]
      rfl
    rw [hen]
    exact .refl s
  | ok env =>
    have hen : (registerRingACPObject creator policyID ringID).Succeeds s () { s with env := env } :=
      Eff.query_bind_ok.2 ⟨env, Outcome.ofExcept_eq_ok.2 hr, rfl⟩
    rw [hen]
    exact ⟨rfl, rfl, hv _ _ _ _ _ hr⟩

theorem keepsRecords_createRing (hv : RegistersOnly view) (msg : MsgCreateRing) :
    (createRing msg : M Γ.toEnv Bytes).Respects (KeepsRecords view) := by
  repeat refine keepsRecords_after (fun _ => rfl) fun _ => ?_
  refine keepsRecords_bind (keepsRecords_registerRing hv _ _ _) fun _ => ?_
  refine keepsRecords_bind (keepsRecords_setRing _) fun _ => ?_
  exact keepsRecords_bind (keepsRecords_emit _) fun _ => keepsRecords_pure _

theorem keepsRecords_finalizeRing (msg : MsgFinalizeRing) :
    (finalizeRing msg : M Γ.toEnv FinalizeRingOutcome).Respects (KeepsRecords view) := by
  repeat refine keepsRecords_after (fun _ => rfl) fun _ => ?_
  dsimp only
  split
  · refine keepsRecords_bind (keepsRecords_deleteRing _) fun _ => ?_
    exact keepsRecords_bind (keepsRecords_emit _) fun _ => keepsRecords_pure _
  · split
    · exact keepsRecords_bind (keepsRecords_setRing _) fun _ => keepsRecords_pure _
    · refine keepsRecords_after (fun _ => rfl) fun finalizerDID => ?_
      refine keepsRecords_after (fun _ => rfl) fun _ => ?_
      refine keepsRecords_bind (keepsRecords_setRing _) fun _ => ?_
      exact keepsRecords_bind (keepsRecords_emit _) fun _ => keepsRecords_pure _

theorem keepsRecords_mayCancel (ring : Ring) (creator : Bytes) :
    (mayCancel ring creator : M Γ.toEnv Bool).Respects (KeepsRecords view) := by
  refine keepsRecords_after (fun _ => rfl) fun nodeKey => ?_
  split
  · exact keepsRecords_of_unchanged fun _ => rfl
  · exact keepsRecords_after (fun _ => rfl) fun _ => keepsRecords_pure _

theorem keepsRecords_cancelPendingRing (msg : MsgCancelPendingRing) :
    (cancelPendingRing msg : M Γ.toEnv Unit).Respects (KeepsRecords view) := by
  repeat refine keepsRecords_after (fun _ => rfl) fun _ => ?_
  refine keepsRecords_bind (keepsRecords_mayCancel _ _) fun _ => ?_
  refine keepsRecords_after (fun _ => rfl) fun _ => ?_
  exact keepsRecords_bind (keepsRecords_deleteRing _) fun _ => keepsRecords_emit _

theorem keepsRecords_updateFinalizedRing (creator ringId : Bytes)
    (change : State Γ.toEnv → Ring → Except Error (Ring × List Event)) :
    (updateFinalizedRing creator ringId change).Respects (KeepsRecords view) := by
  repeat refine keepsRecords_after (fun _ => rfl) fun _ => ?_
  refine keepsRecords_bind (keepsRecords_setRing _) fun _ => ?_
  refine keepsRecords_bind (keepsRecords_emit _) fun _ => ?_
  exact Eff.Respects.forEach KeepsRecords.refl KeepsRecords.trans keepsRecords_emit _

theorem keepsRecords_updateRelays (msg : MsgRingTrustedAuthRelayByAcp) (change : List Bytes → Except Error (List Bytes)) :
    (updateRelays msg change : M Γ.toEnv Unit).Respects (KeepsRecords view) := by
  repeat refine keepsRecords_after (fun _ => rfl) fun _ => ?_
  exact keepsRecords_setRing_emit _ _

theorem keepsRecords_startRingReshareByAcp (ctx : Ctx) (msg : MsgStartRingReshareByAcp) :
    (startRingReshareByAcp ctx msg : M Γ.toEnv Unit).Respects (KeepsRecords view) := by
  repeat refine keepsRecords_after (fun _ => rfl) fun _ => ?_
  refine keepsRecords_bind (keepsRecords_setRing _) fun _ => ?_
  refine keepsRecords_bind (keepsRecords_emit _) fun _ => ?_
  exact Eff.Respects.forEach KeepsRecords.refl KeepsRecords.trans keepsRecords_emit _

theorem keepsRecords_cancelRingReshareByAcp (msg : MsgCancelRingReshareByAcp) :
    (cancelRingReshareByAcp msg : M Γ.toEnv Unit).Respects (KeepsRecords view) := by
  repeat refine keepsRecords_after (fun _ => rfl) fun _ => ?_
  refine keepsRecords_bind (keepsRecords_setRing _) fun _ => ?_
  exact keepsRecords_bind (keepsRecords_emit _) fun _ => keepsRecords_emit _

theorem keepsRecords_finalizeRingReshareByThresholdSignature (ctx : Ctx) (msg : MsgFinalizeRingReshareByThresholdSignature) :
    (finalizeRingReshareByThresholdSignature ctx msg : M Γ.toEnv Unit).Respects (KeepsRecords view) := by
  repeat refine keepsRecords_after (fun _ => rfl) fun _ => ?_
  exact keepsRecords_setRing_emit _ _

/-! ## Messages on nodes -/

theorem keepsRecords_createNodeInfo (msg : MsgCreateNodeInfo) :
    (createNodeInfo msg : M Γ.toEnv Unit).Respects (KeepsRecords view) := by
  repeat refine keepsRecords_after (fun _ => rfl) fun _ => ?_
  exact keepsRecords_bind (keepsRecords_setNodeInfo _ _) fun _ => keepsRecords_emit _

theorem keepsRecords_authorizeNodeInfoUpdate (nodeKey creator : Bytes) :
    (authorizeNodeInfoUpdate nodeKey creator : M Γ.toEnv NodeInfo).Respects (KeepsRecords view) := by
  repeat refine keepsRecords_after (fun _ => rfl) fun _ => ?_
  exact keepsRecords_pure _

theorem keepsRecords_updateNodeInfo (nodeKey creator : Bytes) (change : NodeInfo → Except Error NodeInfo) :
    (updateNodeInfo nodeKey creator change : M Γ.toEnv Unit).Respects (KeepsRecords view) := by
  refine keepsRecords_bind (keepsRecords_authorizeNodeInfoUpdate nodeKey creator) fun nodeInfo => ?_
  refine keepsRecords_after (fun _ => rfl) fun next => ?_
  exact keepsRecords_bind (keepsRecords_setNodeInfo _ _) fun _ => keepsRecords_emit _

/-! ## All messages -/

def Message.submits : Message → Bool
  | .submitReport _ _ => true
  | _ => false

theorem Message.keepsRecords (hv : RegistersOnly view) {msg : Message} (h : msg.submits = false) (ctx : Ctx) :
    (msg.deliver ctx : M Γ.toEnv Unit).Respects (KeepsRecords view) := by
  refine keepsRecords_after (fun _ => rfl) fun _ => ?_
  cases msg <;> dsimp only [Message.handle]
  case createRing msg =>
    exact keepsRecords_bind (keepsRecords_createRing hv msg) fun _ => keepsRecords_pure _
  case finalizeRing msg => exact keepsRecords_bind (keepsRecords_finalizeRing msg) fun _ => keepsRecords_pure _
  case cancelPendingRing msg => exact keepsRecords_cancelPendingRing msg
  case startRingReshareByAcp msg => exact keepsRecords_startRingReshareByAcp ctx msg
  case cancelRingReshareByAcp msg => exact keepsRecords_cancelRingReshareByAcp msg
  case finalizeRingReshareByThresholdSignature msg => exact keepsRecords_finalizeRingReshareByThresholdSignature ctx msg
  case setRingPssIntervalByAcp msg => exact keepsRecords_updateFinalizedRing _ _ _
  case scheduleRingUpgradeByAcp msg => exact keepsRecords_updateFinalizedRing _ _ _
  case cancelRingUpgradeByAcp msg => exact keepsRecords_updateFinalizedRing _ _ _
  case setRingReportingByAcp msg => exact keepsRecords_updateFinalizedRing _ _ _
  case addRingTrustedAuthRelayByAcp msg => exact keepsRecords_updateRelays _ _
  case removeRingTrustedAuthRelayByAcp msg => exact keepsRecords_updateRelays _ _
  case submitReport creator msg => nomatch h
  case createNodeInfo msg => exact keepsRecords_createNodeInfo msg
  case updateNodePeerId msg => exact keepsRecords_updateNodeInfo _ _ _
  case transferNodeController msg => exact keepsRecords_updateNodeInfo _ _ _
  case addNodeToWhitelist msg => exact keepsRecords_updateNodeInfo _ _ _
  case removeNodeFromWhitelist msg => exact keepsRecords_updateNodeInfo _ _ _

end Vera.Orbis
