import Vera.Orbis.Demerits
import Vera.Orbis.Genesis

/-!
# Every state can be exported

What the export relies on holds in every state that messages and the ends of blocks reach, so the genesis of the module goes round
(`x/orbis/module/genesis.go`), with one exception: the points of a node are summed up as 64-bit numbers, without a bound on what a
ring charges for a report. A sum that comes out as zero stays in the store, and `GenesisState.Validate` refuses it.
-/

namespace Vera.Orbis

open Eff KVStore
open Bytes (str)

variable {Λ : ModuleEnv} {s t : ModuleState Λ}

/-- What the archive holds for the module itself. -/
def Archive.own {σ : Type} (archive : Archive σ) : Option Params × KVStore Bytes Document × KVStore Bytes KeyDerivation :=
  (archive.params, archive.documents, archive.keyDerivations)

theorem registersOnly_own : RegistersOnly (Γ := Λ.ringEnv) Archive.own := by
  intro archive creator policyId ringId archive' h
  have hm : (Λ.registerRing archive.modules creator policyId ringId).map
      (fun modules => { archive with modules := modules }) = .ok archive' := h
  cases hr : Λ.registerRing archive.modules creator policyId ringId with
  | error e =>
    rw [hr] at hm
    cases hm
  | ok modules =>
    rw [hr] at hm
    obtain rfl := Except.ok.inj hm
    rfl

/-! ## What a message keeps -/

variable {msg : Message} {key id : Bytes} {ctx : Ctx} {amount points : UInt64} {u : Unit} {ledger : Ledger Λ.ringEnv}

theorem DemeritKey.kept {Γ : RingEnv} {s t : State Γ.toEnv} (hs : s.Keyed) (h : RingEffect s t msg)
    (hke : DemeritKey s.rings key) : DemeritKey t.rings key := by
  obtain ⟨ringID, nodeKey, ring, hna, hno, hget, hf⟩ := hke
  obtain ⟨next, hne, hr, _⟩ := h.keys_kept hs hget hf
  refine ⟨ringID, nodeKey, next, hna, hno, hne, ?_⟩
  rw [hr]
  exact hf

theorem archive_eq_of_own {σ : Type} {a b : Archive σ} (h : a.own = b.own) :
    a.getParams = b.getParams ∧ a.documents = b.documents ∧ a.keyDerivations = b.keyDerivations := by
  obtain ⟨hp, hrest⟩ := Prod.mk.inj h
  obtain ⟨hd, hke⟩ := Prod.mk.inj hrest
  refine ⟨?_, hd, hke⟩
  unfold Archive.getParams
  rw [hp]

theorem State.Exportable.of_kept (hs : s.Exportable) (hef : RingEffect s t msg)
    (hkep : KeepsRecords (Γ := Λ.ringEnv) Archive.own s t) : t.Exportable := by
  obtain ⟨hp, hd, hke⟩ := archive_eq_of_own hkep.view
  refine {
    sound := hs.sound.effect hef
    indexed := hs.indexed.of_records hkep.records
    params := ?_
    documents := ?_
    keyDerivations := ?_
    ringIds := hef.ids_short hs.sound.keyed hs.ringIds
    pairs := ?_
    demerits := ?_ }
  · rw [hp]
    exact hs.params
  · rw [hd]
    exact hs.documents
  · rw [hke]
    exact hs.keyDerivations
  · rw [expiry_eq_of_records hkep.records]
    exact hs.pairs
  · rw [hkep.demerits]
    exact fun key state hget => (hs.demerits key state hget).kept hs.sound.keyed hef

theorem State.Exportable.of_submitted (hs : s.Exportable) (hef : RingEffect s t msg)
    {report : MsgSubmitReport} {v : ValidatedSubmittedReport} (h : Submitted ctx report s t v amount) :
    t.Exportable := by
  have hv := h.validated
  obtain ⟨payload, _, hse⟩ := hv.session
  have hses : v.sessionDedupeID ≠ [] := by
    obtain ⟨message, _, hse⟩ := Outcome.bind_eq_ok.1 hse
    rw [← Outcome.pure_eq_ok.1 hse]
    exact sha256Hex_ne_nil _
  have hexp : v.blockUnixTime + reportTTLSeconds ≠ 0 := by
    intro hz
    have hsu := congrArg UInt64.toNat hz
    have hti := hv.time
    have hb := ctx.int64_time.2
    have ht : reportTTLSeconds.toNat = 120 := rfl
    rw [UInt64.toNat_add, ht] at hsu
    have hnone : (0 : UInt64).toNat = 0 := rfl
    rw [hnone] at hsu
    omega
  have hp : PairEntry (acceptedExpiryKey (v.blockUnixTime + reportTTLSeconds) v.reportID) v.sessionDedupeID := by
    refine ⟨_, _, rfl, hexp, ?_, hses⟩
    rw [hv.reportID]
    exact sha256Hex_ne_nil _
  refine {
    sound := hs.sound.effect hef
    indexed := (hs.indexed.addPair fun i how => hv.new _ i how).of_records h.records
    params := ?_
    documents := ?_
    keyDerivations := ?_
    ringIds := hef.ids_short hs.sound.keyed hs.ringIds
    pairs := ?_
    demerits := ?_ }
  · rw [h.env]
    exact hs.params
  · rw [h.env]
    exact hs.documents
  · rw [h.env]
    exact hs.keyDerivations
  · rw [expiry_eq_of_records h.records]
    exact hs.pairs.set hp
  · have hkey : DemeritKey s.rings (nodeDemeritStoreKey report.report.ringId report.report.accusedNodeKey) :=
      ⟨_, _, v.ring, rfl, h.accused, hv.ring, hv.finalized⟩
    have hke := KVStore.All.set (v := v.charged s report.report amount) hs.demerits hkey
    rw [h.demerits]
    exact fun key state hget => (hke key state hget).kept hs.sound.keyed hef

/-! ### Messages on documents and parameters -/

/-- An archive with valid parameters, whose documents and derivations are under their identifiers. -/
structure Archive.InOrder {σ : Type} (archive : Archive σ) : Prop where
  params : archive.getParams.validate = .ok ()
  documents : archive.documents.All fun id document => document.id = id
  keyDerivations : archive.keyDerivations.All fun id keyDerivation => keyDerivation.id = id

/-- Only the archive changes, and it stays in order. -/
def KeepsStores (s t : ModuleState Λ) : Prop := ∃ archive events, t = { s with env := archive, events := events } ∧
  (Archive.InOrder s.env → archive.InOrder)

theorem storeDocument_keepsStores {msg : MsgStoreDocument} (h : (storeDocument msg).Succeeds s id t) : KeepsStores s t := by
  obtain ⟨ring, _, h⟩ := requireRing_bind_ok.1 h
  obtain ⟨_, _, h⟩ := pass_bind_ok.1 h
  obtain ⟨creatorDID, _, h⟩ := query_bind_ok.1 h
  obtain ⟨_, _, h⟩ := pass_bind_ok.1 h
  obtain ⟨_, _, h⟩ := pass_bind_ok.1 h
  obtain ⟨documentID, _, h⟩ := pass_bind_ok.1 h
  rw [read_bind_ok] at h
  obtain ⟨_, _, h⟩ := pass_bind_ok.1 h
  obtain ⟨_, _, h⟩ := pass_bind_ok.1 h
  obtain ⟨_, s₁, hse, h⟩ := bind_ok.1 h
  obtain ⟨_, s₂, hem, h⟩ := bind_ok.1 h
  have ht := (pure_ok.1 h).2
  rw [modify_ok.1 hem, modify_ok.1 hse] at ht
  exact ⟨_, _, ht, fun hs => ⟨hs.params, hs.documents.set rfl, hs.keyDerivations⟩⟩

theorem storeKeyDerivation_keepsStores {msg : MsgStoreKeyDerivation}
    (h : (storeKeyDerivation msg).Succeeds s id t) : KeepsStores s t := by
  obtain ⟨ring, _, h⟩ := requireRing_bind_ok.1 h
  obtain ⟨_, _, h⟩ := pass_bind_ok.1 h
  obtain ⟨creatorDID, _, h⟩ := query_bind_ok.1 h
  rw [read_bind_ok] at h
  obtain ⟨_, _, h⟩ := pass_bind_ok.1 h
  obtain ⟨_, _, h⟩ := pass_bind_ok.1 h
  obtain ⟨_, s₁, hse, h⟩ := bind_ok.1 h
  obtain ⟨_, s₂, hem, h⟩ := bind_ok.1 h
  have ht := (pure_ok.1 h).2
  rw [modify_ok.1 hem, modify_ok.1 hse] at ht
  exact ⟨_, _, ht, fun hs => ⟨hs.params, hs.documents, hs.keyDerivations.set rfl⟩⟩

theorem drainNodeKey_keepsStores {msg : MsgDrainNodeKey} {balance : List (Bytes × Nat)}
    (h : (drainNodeKey msg).Succeeds s balance t) : KeepsStores s t := by
  obtain ⟨_, s₀, ha, hrest⟩ := bind_ok.1 h
  obtain ⟨rfl, _⟩ := authorizeNodeInfoUpdate_ok ha
  obtain ⟨_, _, h⟩ := pass_bind_ok.1 hrest
  obtain ⟨_, _, h⟩ := pass_bind_ok.1 h
  rw [read_bind_ok] at h
  obtain ⟨_, _, h⟩ := pass_bind_ok.1 h
  obtain ⟨modules, _, h⟩ := pass_bind_ok.1 h
  obtain ⟨_, s₁, hse, h⟩ := bind_ok.1 h
  obtain ⟨_, s₂, hem, h⟩ := bind_ok.1 h
  have ht := (pure_ok.1 h).2
  rw [modify_ok.1 hem, modify_ok.1 hse] at ht
  exact ⟨_, _, ht, fun hs => ⟨hs.params, hs.documents, hs.keyDerivations⟩⟩

theorem updateParams_keepsStores {req : MsgUpdateParams} (h : (updateParams req).Succeeds s u t) : KeepsStores s t := by
  obtain ⟨_, _, h⟩ := pass_bind_ok.1 h
  obtain ⟨_, hv, h⟩ := pass_bind_ok.1 h
  exact ⟨_, s.events, modify_ok.1 h, fun hs => ⟨hv, hs.documents, hs.keyDerivations⟩⟩

theorem State.Exportable.of_keepsStores (hs : s.Exportable) (h : KeepsStores s t) : t.Exportable := by
  obtain ⟨archive, events, rfl, hke⟩ := h
  have hor := hke ⟨hs.params, hs.documents, hs.keyDerivations⟩
  exact {
    sound := hs.sound.of_same rfl rfl
    indexed := hs.indexed.of_records rfl
    params := hor.params
    documents := hor.documents
    keyDerivations := hor.keyDerivations
    ringIds := hs.ringIds
    pairs := hs.pairs
    demerits := hs.demerits }

/-! ## Moves -/

theorem Request.deliver_cases (hs : s.Exportable) {req : Request} (h : (req.deliver ctx).Succeeds s u t) :
    t.Exportable ∧ ((∃ creator msg v amount, req = .onRings (.submitReport creator msg) ∧ Submitted ctx msg s t v amount) ∨
      (∀ creator msg, req ≠ .onRings (.submitReport creator msg)) ∧ t.demerits = s.demerits) := by
  have hst : (∀ creator msg, req ≠ .onRings (.submitReport creator msg)) → KeepsStores s t →
      t.Exportable ∧ ((∃ creator msg v amount, req = .onRings (.submitReport creator msg) ∧ Submitted ctx msg s t v amount) ∨
        (∀ creator msg, req ≠ .onRings (.submitReport creator msg)) ∧ t.demerits = s.demerits) := by
    intro hot hke
    refine ⟨hs.of_keepsStores hke, .inr ⟨hot, ?_⟩⟩
    obtain ⟨_, _, rfl, _⟩ := hke
    rfl
  cases req with
  | onRings msg =>
    have hd : (msg.deliver ctx : M Λ.ringEnv.toEnv Unit).Succeeds s u t := h
    have hef := Message.deliver_effect hd
    cases hsu : msg.submits with
    | false =>
      have hke := Message.keepsRecords registersOnly_own hsu ctx s
      rw [hd] at hke
      refine ⟨hs.of_kept hef hke, .inr ⟨?_, hke.demerits⟩⟩
      rintro creator report ⟨⟩
      cases hsu
    | true =>
      cases msg with
      | submitReport creator report =>
        obtain ⟨_, _, hh⟩ := pass_bind_ok.1 hd
        obtain ⟨id, s₁, hsubm, hen⟩ := bind_ok.1 hh
        obtain ⟨_, rfl⟩ := pure_ok.1 hen
        obtain ⟨v, amount, hsub⟩ := submitReport_submitted hsubm
        exact ⟨hs.of_submitted hef hsub, .inl ⟨creator, report, v, amount, rfl, hsub⟩⟩
      | _ => cases hsu
  | storeDocument msg =>
    obtain ⟨_, _, hh⟩ := pass_bind_ok.1 h
    obtain ⟨_, _, hcall, hen⟩ := bind_ok.1 hh
    obtain ⟨_, rfl⟩ := pure_ok.1 hen
    exact hst (fun _ _ => nofun) (storeDocument_keepsStores hcall)
  | storeKeyDerivation msg =>
    obtain ⟨_, _, hh⟩ := pass_bind_ok.1 h
    obtain ⟨_, _, hcall, hen⟩ := bind_ok.1 hh
    obtain ⟨_, rfl⟩ := pure_ok.1 hen
    exact hst (fun _ _ => nofun) (storeKeyDerivation_keepsStores hcall)
  | drainNodeKey msg =>
    obtain ⟨_, _, hh⟩ := pass_bind_ok.1 h
    obtain ⟨_, _, hcall, hen⟩ := bind_ok.1 hh
    obtain ⟨_, rfl⟩ := pure_ok.1 hen
    exact hst (fun _ _ => nofun) (drainNodeKey_keepsStores hcall)
  | updateParams req =>
    obtain ⟨_, _, hh⟩ := pass_bind_ok.1 h
    exact hst (fun _ _ => nofun) (updateParams_keepsStores hh)

/-- Whether a message of the module is accepted. -/
def Ledger.takes (ledger : Ledger Λ.ringEnv) (req : Request) : Bool := (req.deliver ledger.ctx ledger.state).1.isOk

/-- The points of the accused node of an accepted report do not add up to the first number that does not fit, which is stored
as zero. -/
def Ledger.NoWrap (ledger : Ledger Λ.ringEnv) : Move Λ → Prop
  | .message (.onRings (.submitReport creator msg)) =>
    ledger.takes (.onRings (.submitReport creator msg)) = true → ledger.sumWith msg.report ≠ some (2 ^ 64)
  | _ => True

theorem Ledger.advance_message (ledger : Ledger Λ.ringEnv) (req : Request) :
    (ledger.takes req = false ∧ (ledger.advance (.message req)).state = ledger.state) ∨
      (ledger.takes req = true ∧ (req.deliver ledger.ctx).Succeeds ledger.state () (ledger.advance (.message req)).state) := by
  cases ht : ledger.takes req with
  | true =>
    have hs := ok_unit_of_isOk ht
    have hst : (ledger.advance (.message req)).state = (req.deliver ledger.ctx ledger.state).2 := hs.commit_eq
    rw [hst]
    exact .inr ⟨rfl, hs⟩
  | false =>
    rcases commit_cases (req.deliver ledger.ctx) ledger.state with hsame | ⟨_, hs⟩
    · exact .inl ⟨rfl, hsame⟩
    · unfold Ledger.takes at ht
      rw [hs] at ht
      cases ht

theorem State.Exportable.endBlock (hs : ledger.state.Exportable) : (ledger.advance .endBlock).state.Exportable := by
  obtain ⟨hr, hno, hd, hen⟩ := deletePairs_keeps
    (expiredPairs (UInt64.ofInt ledger.ctx.unixTime) ledger.state.acceptedExpiry.entries) ledger.state
  have hst : (ledger.advance .endBlock).state = (expiredPairs (UInt64.ofInt ledger.ctx.unixTime)
    ledger.state.acceptedExpiry.entries).foldl State.deletePair ledger.state := rfl
  rw [hst]
  refine {
    sound := hs.sound.of_same hr hno
    indexed := hs.indexed.deletePairs fun _ he => (mem_of_mem_expiredPairs he).1
    params := ?_
    documents := ?_
    keyDerivations := ?_
    ringIds := ?_
    pairs := ?_
    demerits := ?_ }
  · rw [hen]
    exact hs.params
  · rw [hen]
    exact hs.documents
  · rw [hen]
    exact hs.keyDerivations
  · rw [hr]
    exact hs.ringIds
  · intro key sessionID hget
    have hmem := ((mem_expiry_deletePairs _ _ _).1 (mem_entries _ |>.2 hget)).1
    exact hs.pairs key sessionID ((mem_entries _).1 hmem)
  · rw [hr, hd]
    exact hs.demerits

theorem Ledger.exportable_advance (hs : ledger.state.Exportable) (move : Move Λ) :
    (ledger.advance move).state.Exportable := by
  cases move with
  | message req =>
    rcases ledger.advance_message req with ⟨_, hsame⟩ | ⟨_, hsu⟩
    · rwa [hsame]
    · exact (Request.deliver_cases hs hsu).1
  | endBlock => exact hs.endBlock
  | newBlock ctx => exact hs
  | other modules =>
    exact hs.of_keepsStores ⟨_, ledger.state.events, rfl, fun hor => ⟨hor.params, hor.documents, hor.keyDerivations⟩⟩

/-- A sum of points, at least one of which is new, comes out as zero only where it is the first number that does not fit. -/
theorem points_add_ne_zero_iff (h : amount ≠ 0) : points + amount ≠ 0 ↔ points.toNat + amount.toNat ≠ 2 ^ 64 := by
  have ha : amount.toNat ≠ 0 := fun hz => h (UInt64.toNat_inj.1 hz)
  have hp := points.toNat_lt
  have hlt := amount.toNat_lt
  rw [ne_eq, ← UInt64.toNat_inj, UInt64.toNat_add, show (0 : UInt64).toNat = 0 from rfl]
  omega

theorem State.charged_set_iff {state : NodeDemeritState} (hs : s.Charged)
    (ht : t.demerits = s.demerits.set key state) : t.Charged ↔ state.points ≠ 0 := by
  unfold State.Charged
  rw [ht]
  constructor
  · intro hch
    exact hch key state (by rw [get_set, if_pos rfl])
  · intro hp
    exact KVStore.All.set hs hp

/-- A move that keeps to the condition leaves no demerits of no points, and one that does not leaves some. -/
theorem Ledger.charged_advance_iff (hs : ledger.state.Exportable) (hch : ledger.state.Charged)
    (move : Move Λ) : (ledger.advance move).state.Charged ↔ ledger.NoWrap move := by
  have hsame : (ledger.advance move).state.demerits = ledger.state.demerits → (ledger.advance move).state.Charged := by
    intro heq
    unfold State.Charged
    rwa [heq]
  cases move with
  | message req =>
    rcases ledger.advance_message req with ⟨ht, hst⟩ | ⟨ht, hsuc⟩
    · refine iff_of_true (hsame (by rw [hst])) ?_
      unfold Ledger.NoWrap
      split
      · rename_i heq
        obtain rfl := Move.message.inj heq
        rw [ht]
        nofun
      · trivial
    · obtain ⟨_, ⟨creator, msg, v, amount, rfl, hsu⟩ | ⟨hot, hd⟩⟩ := Request.deliver_cases hs hsuc
      · have hv := (hs.sound.rings _ _ hsu.validated.ring).valid
        rw [State.charged_set_iff hch hsu.demerits, v.points_charged,
          points_add_ne_zero_iff (demeritAmountForReportType_ne_zero hv hsu.charges)]
        dsimp only [Ledger.NoWrap]
        rw [hsu.sumWith_eq]
        exact ⟨fun hne _ heq => hne (Option.some.inj heq), fun hne heq => hne ht (congrArg some heq)⟩
      · refine iff_of_true (hsame hd) ?_
        unfold Ledger.NoWrap
        split
        · rename_i creator msg heq
          exact absurd (Move.message.inj heq) (hot creator msg)
        · trivial
  | endBlock => exact iff_of_true (hsame (deletePairs_keeps _ _).2.2.1) trivial
  | newBlock ctx => exact iff_of_true hch trivial
  | other modules => exact iff_of_true hch trivial

/-! ## The round trip -/

/-- A store without anything but parameters, which are the defaults or valid, can be exported. -/
theorem exportable_filled {params : Option Params} (hp : ∀ p, params = some p → p.validate = .ok ()) (modules : Λ.σ)
    (events : List Event) :
    State.Exportable (filled params .empty .empty .empty .empty .empty modules events : ModuleState Λ) where
  sound := ⟨fun _ _ h => (nomatch h), fun _ h => (nomatch h), fun _ _ h => (nomatch h)⟩
  indexed := ⟨fun _ h => (nomatch h), fun _ h => (nomatch h)⟩
  params := by
    cases params with
    | none => rfl
    | some p => exact hp p rfl
  documents := .empty
  keyDerivations := .empty
  ringIds := .empty
  pairs := .empty
  demerits := .empty

/-- The genesis of every state that a run reaches goes round exactly when no sum of points is stored as zero. The run starts
with a store without anything but parameters. -/
theorem orbis_genesis_round_trip_iff (Λ : ModuleEnv) (params : Option Params) (hparams : ∀ p, params = some p → p.validate = .ok ())
    (modules : Λ.σ) (events : List Event) (ctx : Ctx) (moves : List (Move Λ)) :
    let ledger : Ledger Λ.ringEnv := ⟨filled params .empty .empty .empty .empty .empty modules events, ctx⟩
    (∀ n, RoundTrips (Run.run Ledger.advance ledger (moves.take n)).state) ↔
      Run.AllSteps Ledger.advance Ledger.NoWrap ledger moves := by
  intro ledger
  have hled : ledger.state.Exportable := exportable_filled hparams modules events
  refine Run.forall_take_iff_allSteps Ledger.advance (I := fun l => l.state.Exportable) (A := fun l => RoundTrips l.state)
    (C := fun l => l.state.Charged) ?_ ?_ ?_ ?_ hled KVStore.All.empty moves
  · exact fun l move hl => Ledger.exportable_advance hl move
  · exact fun l hl hch => hl.roundTrips_iff.2 hch
  · exact fun l move hl hch hno => (Ledger.charged_advance_iff hl hch move).2 hno
  · intro l move hl hch hr
    exact (Ledger.charged_advance_iff hl hch move).1 ((Ledger.exportable_advance hl move).roundTrips_iff.1 hr)

def onRings (messages : List Message) : List (Move localModule) := messages.map fun msg => .message (.onRings msg)

theorem run_onRings (ledger : Ledger localModule.ringEnv) (messages : List Message) :
    Run.run Ledger.advance ledger (onRings messages) = Run.run Ledger.step ledger (messages.map .message) := by
  induction messages generalizing ledger with
  | nil => rfl
  | cons msg rest ih => exact ih _

theorem validate_offlineParams (h : points ≠ 0) : ∀ p, some (offlineParams points) = some p → p.validate = .ok () := by
  rintro _ ⟨⟩
  have hnu : validateDemeritConfig ⟨points, 86400, 1, 1⟩ = .ok () := check_bind_eq_ok.2 ⟨check_eq_ok.2 h, rfl⟩
  exact check_bind_eq_ok.2 ⟨hnu, rfl⟩

/-- After one report, the genesis goes round. -/
theorem orbis_genesis_round_trip_once :
    (Run.run Ledger.advance (chargingLedger halfOfAll) (onRings (offlineMessages halfOfAll ["first"]))).state.demerits.get
      (nodeDemeritStoreKey trioMsg.ringID (nodeKey 2)) = some ⟨halfOfAll, 1700000000⟩ ∧
    ∀ n, RoundTrips (Run.run Ledger.advance (chargingLedger halfOfAll)
      ((onRings (offlineMessages halfOfAll ["first"])).take n)).state := by
  refine ⟨?_, ?_⟩
  · rw [run_onRings]
    exact offline_demerits.1
  · -- only the report has to meet the condition
    have hno : Run.AllSteps Ledger.advance Ledger.NoWrap (chargingLedger halfOfAll)
        (onRings (offlineMessages halfOfAll ["first"])) :=
      ⟨trivial, trivial, trivial, trivial, trivial, trivial, trivial, fun _ => by decide +kernel, trivial⟩
    exact (orbis_genesis_round_trip_iff localModule (some (offlineParams halfOfAll)) (validate_offlineParams (by decide)) () []
      (blockAt 1 0) (onRings (offlineMessages halfOfAll ["first"]))).2 hno

/-- In a ring that charges half of the points that fit, which the checks of the parameters allow, two reports against a node in
one window leave it with demerits of no points, and what is exported then does not pass `Validate`. -/
theorem orbis_genesis_round_trip_false : (offlineParams halfOfAll).validate = .ok () ∧
    (Run.run Ledger.advance (chargingLedger halfOfAll) (onRings (offlineMessages halfOfAll ["first", "second"]))).state.demerits.get
      (nodeDemeritStoreKey trioMsg.ringID (nodeKey 2)) = some ⟨0, 1700000000⟩ ∧
    ¬RoundTrips (Run.run Ledger.advance (chargingLedger halfOfAll)
      (onRings (offlineMessages halfOfAll ["first", "second"]))).state := by
  have hpa : ∀ p, some (offlineParams halfOfAll) = some p → p.validate = .ok () := validate_offlineParams (by decide)
  have hf : (chargingLedger halfOfAll).state.Exportable := exportable_filled (Λ := localModule) hpa () []
  have hexp := Run.run_invariant Ledger.advance (I := fun l : Ledger localModule.ringEnv => l.state.Exportable)
    (fun l move hl => Ledger.exportable_advance hl move) hf (onRings (offlineMessages halfOfAll ["first", "second"]))
  have hp := offline_demerits.2
  unfold offlineTurns at hp
  rw [← run_onRings] at hp
  refine ⟨hpa _ rfl, hp, ?_⟩
  rw [hexp.roundTrips_iff]
  exact fun hch => hch _ _ hp rfl

/-! ## The end of a block -/

/-- The keys of the expiry index start with a big-endian time, so they are in the order of their times. -/
theorem PairEntry.expiryOf_le {a b u v : Bytes} (ha : PairEntry a u) (hb : PairEntry b v) (h : compare a b = .lt) :
    expiryOf a ≤ expiryOf b := by
  obtain ⟨x, _, rfl, -⟩ := ha
  obtain ⟨y, _, rfl, -⟩ := hb
  have hkey (z : UInt64) (id : Bytes) : expiryOf (acceptedExpiryKey z id) = z.toNat := by
    rw [expiryOf, acceptedExpiryKey, List.take_left' (Bytes.length_bigEndian _ _), Bytes.ofBigEndian_bigEndian]
    exact Nat.mod_eq_of_lt z.toNat_lt
  rw [acceptedExpiryKey, acceptedExpiryKey, Bytes.compare_append (by simp), Bytes.compare_bigEndian x.toNat_lt y.toNat_lt] at h
  rw [hkey, hkey]
  by_contra hgt
  simp [Nat.compare_eq_gt.2 (Nat.not_le.1 hgt)] at h

/-- The pruning, which stops at the first entry that has not expired, misses none. -/
theorem mem_expiredPairs {l : List (Bytes × Bytes)} {now : UInt64} {e : Bytes × Bytes} (hl : ∀ e ∈ l, PairEntry e.1 e.2)
    (hs : l.Pairwise fun a b => compare a.1 b.1 = .lt) : e ∈ expiredPairs now l ↔ e ∈ l ∧ expiryOf e.1 ≤ now.toNat := by
  refine ⟨mem_of_mem_expiredPairs, ?_⟩
  rintro ⟨he, hn⟩
  induction l with
  | nil => cases he
  | cons first rest ih =>
    obtain ⟨hf, hrest⟩ := List.pairwise_cons.1 hs
    obtain ⟨hfirst, hl'⟩ := List.forall_mem_cons.1 hl
    have hlen : ¬first.1.length < 8 := by
      obtain ⟨x, id, hke, -⟩ := hfirst
      simp [hke, acceptedExpiryKey]
    rcases List.mem_cons.1 he with rfl | hmem
    · simp [expiredPairs, hlen, Nat.not_lt.2 hn]
    · have hle := hfirst.expiryOf_le (hl e he) (hf e hmem)
      simp [expiredPairs, hlen, Nat.not_lt.2 (hle.trans hn), ih hl' hrest hmem]

/-- In every state that a run reaches, the expiry index fits the record, and the end of the block drops from the index what is due,
the reports and the sessions of these entries from the record, and nothing else. -/
theorem endBlock_exact (modules : Λ.σ) (events : List Event) (ctx : Ctx) (moves : List (Move Λ)) :
    let ledger : Ledger Λ.ringEnv :=
      Run.run Ledger.advance ⟨filled none .empty .empty .empty .empty .empty modules events, ctx⟩ moves
    let Due (e : Bytes × Bytes) := e ∈ ledger.state.acceptedExpiry.entries ∧
      expiryOf e.1 ≤ (UInt64.ofInt ledger.ctx.unixTime).toNat
    ledger.state.Indexed ∧
    (∀ e, e ∈ (ledger.advance .endBlock).state.acceptedExpiry.entries ↔ e ∈ ledger.state.acceptedExpiry.entries ∧ ¬Due e) ∧
      ∀ i, (ledger.advance .endBlock).state.has i = true ↔ ledger.state.has i = true ∧ ∀ e, Due e → ¬i.owns e := by
  intro ledger Due
  have hexp : ledger.state.Exportable := Run.run_invariant Ledger.advance (I := fun l : Ledger Λ.ringEnv => l.state.Exportable)
    (fun l move hl => Ledger.exportable_advance hl move) (exportable_filled (fun _ h => by cases h) modules events) moves
  have hdue (e) : e ∈ expiredPairs (UInt64.ofInt ledger.ctx.unixTime) ledger.state.acceptedExpiry.entries ↔ Due e :=
    mem_expiredPairs (fun e he => hexp.pairs _ _ ((mem_entries _).1 he)) ledger.state.acceptedExpiry.sorted
  refine ⟨hexp.indexed, ?_, ?_⟩
  · intro e
    refine (mem_expiry_deletePairs _ _ e).trans (and_congr_right fun he => ⟨fun h hd => h e ((hdue e).2 hd) rfl, ?_⟩)
    rintro h d hd heq
    exact h ⟨he, heq ▸ ((hdue d).1 hd).2⟩
  · intro i
    refine (has_deletePairs _ _ i).trans (and_congr_right fun _ => forall_congr' fun e => ?_)
    rw [hdue]

end Vera.Orbis
