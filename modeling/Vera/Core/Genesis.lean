import Vera.Core.TokenIndex

/-!
# The genesis of `x/core`

`InitGenesis` and `ExportGenesis` (`x/core/module/genesis.go`) with the parts of the store that the bearer tokens do not use:
the connections of interchain accounts (`ica_connection.go`), the chain configuration (`chain_config.go`) and the parameters
(`params.go`).

The token records are imported before the chain configuration. At that point the store gives the default configuration, which
asks every record for an authorized account; a chain that ignores bearer authorization has records without one.
-/

namespace Vera.Core

open Eff KVStore List
open Bytes (str)

/-! ## The store and its other parts -/

/-- The connection behind an interchain account. -/
structure ICAConnection where
  icaAddress : Bytes
  controllerAddress : Bytes
  controllerChainId : Bytes
  connectionId : Bytes
  deriving Repr, DecidableEq

/-- The whole store of `x/core`. The getter of the chain configuration gives the default until one has been set. -/
structure Store where
  core : State
  icaConnections : KVStore Bytes ICAConnection
  configSet : Bool

/-- What the keeper was made with, and how an error quotes a string. -/
structure Keeper where
  authority : Bytes
  quote : Bytes → Bytes

def defaultChainConfig : ChainConfig := ⟨false, false, false⟩

def defaultParams : Params := ⟨[]⟩

def Store.empty : Store := ⟨⟨.empty, .empty, .empty, defaultChainConfig, defaultParams⟩, .empty, false⟩

/-- A call on the part of the store that the bearer tokens use. -/
def onCore {α : Type} (x : Eff State Error α) : Eff Store Error α := fun s => ((x s.core).1, { s with core := (x s.core).2 })

variable (Γ : Sdk) (K : Keeper)

/-- The loop of `Params.Validate`, with the addresses seen so far. -/
def validateTrustedRelayFeeGranters (seen : List Bytes) : List Bytes → Outcome Error Unit
  | [] => .ok ()
  | address :: rest => do
    Outcome.ofExcept (fun e => plainError "invalid trusted relay fee granter " (K.quote address ++ str ": " ++ e))
      (isValidVeraAddr Γ address)
    Outcome.require (address ∉ seen) (plainError "duplicate trusted relay fee granter " (K.quote address))
    validateTrustedRelayFeeGranters (address :: seen) rest

def Params.validate (p : Params) : Outcome Error Unit := validateTrustedRelayFeeGranters Γ K [] p.trustedRelayFeeGranters

def setParams (params : Params) : Eff Store Error Unit := do
  Eff.lift (params.validate Γ K)
  Eff.modify fun s => { s with core := { s.core with params := params } }

/-- The message that updates the parameters. -/
structure MsgUpdateParams where
  authority : Bytes
  params : Params
  deriving Repr, DecidableEq

def updateParams (req : MsgUpdateParams) : Eff Store Error Unit := do
  Eff.require (K.authority = req.authority)
    ⟨.invalidSigner, str "invalid authority; expected " ++ K.authority ++ str ", got " ++ req.authority⟩
  setParams Γ K req.params

/-- Store the connection of an interchain account. -/
def setICAConnection (icaAddress controllerAddress controllerChainID connectionID : Bytes) : Eff Store Error Unit := do
  Eff.require (icaAddress ≠ []) ⟨.invalidInput, str "ICA address cannot be empty"⟩
  Eff.modify fun s =>
    { s with icaConnections := s.icaConnections.set icaAddress ⟨icaAddress, controllerAddress, controllerChainID, connectionID⟩ }

/-- The state of a light client: Tendermint's, with the id of its chain, or another type. -/
inductive ClientState where
  | tendermint (chainID : Bytes)
  | other (typeName : Bytes)
  deriving Repr, DecidableEq

/-- The IBC keepers, as they answer while a channel opens. -/
structure IbcKeepers where
  /-- The interchain account of a connection and a controller port. -/
  getInterchainAccountAddress : Bytes → Bytes → Option Bytes
  /-- The client of a connection. -/
  getConnection : Bytes → Option Bytes
  getClientState : Bytes → Option ClientState

def controllerPort : Bytes := str "icacontroller-"

def controllerChainID (I : IbcKeepers) (connectionID : Bytes) : Outcome Error Bytes := do
  let clientId ← Outcome.ofOption ⟨.invalidInput, str "connection not found: " ++ connectionID⟩ (I.getConnection connectionID)
  let clientState ← Outcome.ofOption ⟨.invalidInput, str "client state not found: " ++ clientId⟩ (I.getClientState clientId)
  match clientState with
  | .other typeName =>
    .err ⟨.invalidInput, str "client state is not Tendermint type for client_id " ++ clientId ++ str ", got type " ++ typeName⟩
  | .tendermint chainID => do
    Outcome.require (chainID ≠ []) ⟨.invalidInput, str "controller chain ID is empty for client_id " ++ clientId⟩
    pure chainID

/-- Store the connection of an interchain account whose channel opens. -/
def handleICAChannelOpen (I : IbcKeepers) (connectionID controllerPortID : Bytes) : Eff Store Error Unit := do
  let icaAddr ← Eff.lift (Outcome.ofOption ⟨.invalidInput, str "ICA address not found for connection_id " ++ connectionID ++
    str " and controller_port_id " ++ controllerPortID⟩ (I.getInterchainAccountAddress connectionID controllerPortID))
  let s ← Eff.read
  Eff.require ((s.icaConnections.get icaAddr).isNone = true)
    ⟨.invalidInput, str "ICA connection already exists for ica_address " ++ icaAddr⟩
  Eff.require (Bytes.startsWith controllerPort controllerPortID = true)
    ⟨.invalidInput, str "invalid controller port ID prefix: " ++ controllerPortID ++ str ", expected prefix: " ++ controllerPort⟩
  let chainID ← Eff.lift (controllerChainID I connectionID)
  (setICAConnection icaAddr (controllerPortID.drop controllerPort.length) chainID connectionID).mapErr fun e =>
    ⟨e.sentinel, str "failed to store ICA connection for ica_address " ++ icaAddr ++ str ": " ++ e.msg⟩

def setChainConfig (cfg : ChainConfig) : Eff Store Error Unit := do
  let s ← Eff.read
  Eff.require (s.configSet = false) ⟨.configSet, []⟩
  Eff.modify fun s => { s with core := { s.core with chainConfig := cfg }, configSet := true }

/-! ## Genesis -/

/-- The exported state. -/
structure GenesisState where
  params : Params
  icaConnections : List ICAConnection
  jwsTokens : List JWSTokenRecord
  chainConfig : ChainConfig
  deriving Repr, DecidableEq

def defaultGenesis (cfg : ChainConfig) : GenesisState := ⟨defaultParams, [], [], cfg⟩

/-- Initialise the store. Every error is a panic. -/
def initGenesis (genState : GenesisState) : Eff Store Error Unit := do
  (setParams Γ K genState.params).must
  Eff.forEach genState.icaConnections fun c =>
    (setICAConnection c.icaAddress c.controllerAddress c.controllerChainId c.connectionId).must
  Eff.forEach genState.jwsTokens fun record => (onCore (setJWSToken Γ record)).must
  (setChainConfig genState.chainConfig).must

def Store.exportGenesis (s : Store) : GenesisState where
  params := s.core.params
  icaConnections := s.icaConnections.entries.map Prod.snd
  jwsTokens := s.core.tokens.entries.map Prod.snd
  chainConfig := s.core.chainConfig

/-- One input of `x/core`: one that works on the bearer tokens, new parameters, or the opening of a channel. -/
inductive StoreInput where
  | tokens (i : Input)
  | updateParams (req : MsgUpdateParams)
  | icaChannelOpen (I : IbcKeepers) (connectionID controllerPortID : Bytes)

def storeStep (Λ : Jws) (eod : ExtensionOptionsDecorator) (s : Store) : StoreInput → Store
  | .tokens i => { s with core := step Γ Λ eod s.core i }
  | .updateParams req => (updateParams Γ K req).commit s
  | .icaChannelOpen I connectionID controllerPortID => (handleICAChannelOpen I connectionID controllerPortID).commit s

/-- A chain with a configuration, before its first block. -/
def Store.fresh (cfg : ChainConfig) : Store := (initGenesis Γ K (defaultGenesis cfg)).commit Store.empty

/-! ## What every input keeps of the records -/

variable {Γ} {K}

theorem setJWSToken_err {r : JWSTokenRecord} {s t : State} {e : Error} (h : setJWSToken Γ r s = (.err e, t)) : t = s := by
  have hl : ∀ {x : Outcome Error Bytes} {f : Bytes → Eff State Error Unit} {s : State}, (∀ e, x ≠ .err e) →
      (∀ b s e t, f b s ≠ (.err e, t)) → ∀ e t, (Eff.lift x >>= f) s ≠ (.err e, t) := by
    intro x f s hx hf e t her
    rcases bind_eq_err her with hfi | ⟨b, s', -, hse⟩
    · exact hx e (congrArg Prod.fst hfi)
    · exact hf b s' e t hse
  have hke : ∀ (owner hash : Bytes) (e : Error), jwsTokenIndexKey Γ owner hash ≠ .err e := by
    intro owner hash e
    unfold jwsTokenIndexKey mustLengthPrefixed
    cases Γ.lengthPrefixed owner with
    | none => exact fun h => nomatch h
    | some o =>
      cases Γ.lengthPrefixed hash with
      | none => exact fun h => nomatch h
      | some k => exact fun h => nomatch h
  have hin : Eff.NoError (indexByDID Γ r >>= fun _ => indexByAccount Γ r) := by
    refine Eff.NoError.bind (fun s e t => hl (hke _ _) (fun _ _ _ _ => Eff.NoError.modify _ _ _ _) e t) fun _ => ?_
    unfold indexByAccount
    split
    · exact fun s e t => hl (hke _ _) (fun _ _ _ _ => Eff.NoError.modify _ _ _ _) e t
    · exact Eff.NoError.pure ()
  unfold setJWSToken at h
  rw [require_bind_apply] at h
  split at h
  · rw [require_bind_apply] at h
    split at h
    · rcases bind_eq_err h with hcheck | ⟨_, s₁, hcheck, hrest⟩
      · have hs := RevocationAux.checkAuthorizedAccount_state Γ r.authorizedAccount s
        rw [hcheck] at hs
        exact hs
      · obtain ⟨-, rfl⟩ := checkAuthorizedAccount_ok.1 hcheck
        rw [require_bind_apply] at hrest
        split at hrest
        · rw [modify_bind] at hrest
          exact absurd hrest (hin _ _ _)
        · exact (Prod.mk.inj hrest).2.symm
    · exact (Prod.mk.inj h).2.symm
  · exact (Prod.mk.inj h).2.symm

theorem foundJWSToken_state (tokenHash : Bytes) (s : State) : (foundJWSToken tokenHash s).2 = s := by
  unfold foundJWSToken
  split <;> rfl

theorem update_err {f : JWSTokenRecord → JWSTokenRecord} {tokenHash : Bytes} {e₀ e : Error} {s t : State} (h : (do
      Eff.require (tokenHash ≠ []) e₀
      let record ← foundJWSToken tokenHash
      setJWSToken Γ (f record) : Eff State Error Unit) s = (.err e, t)) : t = s := by
  rw [require_bind_apply] at h
  split at h
  · rcases bind_eq_err h with hf | ⟨r, s₁, hf, hse⟩
    · have hs := foundJWSToken_state tokenHash s
      rw [hf] at hs
      exact hs
    · obtain ⟨-, rfl⟩ := foundJWSToken_ok.1 hf
      exact setJWSToken_err hse
  · exact (Prod.mk.inj h).2.symm

theorem storeOrUpdateJWSToken_err {ctx : Ctx} {bearerToken issuerDid authorizedAccount : Bytes} {issuedAt expiresAt : Time}
    {s t : State} {e : Error}
    (h : storeOrUpdateJWSToken Γ ctx bearerToken issuerDid authorizedAccount issuedAt expiresAt s = (.err e, t)) : t = s := by
  unfold storeOrUpdateJWSToken at h
  split at h
  · split at h
    · exact (Prod.mk.inj h).2.symm
    · exact update_err h
  · split at h
    · exact (Prod.mk.inj h).2.symm
    · exact setJWSToken_err h

section Keeps

variable {s s₀ t u : State} {ctx : Ctx}

theorem Rewrites.refl (hs : s.Indexed Γ) : Rewrites Γ s s := ⟨hs, rfl, rfl⟩

theorem Rewrites.trans (h : Rewrites Γ s t) (h' : Rewrites Γ t u) : Rewrites Γ s u :=
  ⟨h'.indexed, h'.params.trans h.params, h'.chainConfig.trans h.chainConfig⟩

theorem keeps_storeOrUpdateJWSToken {bearerToken issuerDid authorizedAccount : Bytes} {issuedAt expiresAt : Time} :
    Eff.Keeps (Rewrites Γ s₀) (storeOrUpdateJWSToken Γ ctx bearerToken issuerDid authorizedAccount issuedAt expiresAt) :=
  .of_ok (fun _ _ _ hs h => hs.trans (storeOrUpdateJWSToken_rewrites hs.indexed h)) fun _ _ _ h =>
    storeOrUpdateJWSToken_err h

theorem keeps_updateJWSTokenStatus {tokenHash invalidatedBy : Bytes} {status : JWSTokenStatus} :
    Eff.Keeps (Rewrites Γ s₀) (updateJWSTokenStatus Γ ctx tokenHash status invalidatedBy) :=
  .of_ok (fun _ _ _ hs h => hs.trans (updateJWSTokenStatus_rewrites hs.indexed h)) fun _ _ _ h =>
    update_err (f := (·.withStatus status ctx.blockTime invalidatedBy)) h

theorem keeps_anteHandle {Λ : Jws} {eod : ExtensionOptionsDecorator} {tx : Tx} {rest : Ctx → Outcome Error Unit} :
    Eff.Keeps (Rewrites Γ s₀) (anteHandle Γ Λ eod ctx tx false fun c => Eff.lift (rest c)) := by
  unfold anteHandle
  split
  · exact .lift _
  · refine .bind .read fun _ => .bind (.lift _) fun auth => .bind ?_ fun _ => .bind (.lift _) fun _ => .lift _
    unfold storeToken
    split
    · exact keeps_storeOrUpdateJWSToken.mapErr
    · exact .pure ()
  · exact .fail _
  · exact .fail _

theorem keeps_invalidateJWS {req : MsgInvalidateJWS} : Eff.Keeps (Rewrites Γ s₀) (invalidateJWS Γ ctx req) := by
  intro s hs hp
  unfold invalidateJWS at hp ⊢
  split at hp
  · exact hs
  split at hp
  · rename_i hin
    rw [if_pos hin]
    exact hs
  rename_i hin
  rw [if_neg hin]
  split at hp
  · rename_i hm
    rw [if_pos hm]
    exact hs
  rename_i hm
  rw [if_neg hm]
  exact keeps_updateJWSTokenStatus.mapErr s hs hp

theorem keeps_endBlocker : Eff.Keeps (Rewrites Γ s₀) (endBlocker Γ ctx) := by
  have ht : ∀ r, Eff.Keeps (Rewrites Γ s₀) (expireToken Γ ctx r) := by
    intro r
    unfold expireToken
    refine .ite (fun _ => .pure ()) fun _ => .ite (fun _ => .pure ()) fun _ => .ite (fun _ => .pure ()) fun _ => ?_
    exact .bind keeps_updateJWSTokenStatus.attempt fun _ => .pure ()
  have hl : Eff.Keeps (Rewrites Γ s₀) (checkAndUpdateExpiredTokens Γ ctx) :=
    .bind .read fun s => .forEach (fun e => ht e.2) s.tokens.entries
  exact .bind hl.attempt fun _ => .pure ()

/-- What an input does to the bearer tokens keeps their indices, the parameters and the chain configuration. -/
theorem step_rewrites (Λ : Jws) (eod : ExtensionOptionsDecorator) (hs : s.Indexed Γ) (i : Input) :
    Rewrites Γ s (step Γ Λ eod s i) := by
  cases i with
  | tx ctx tx rest => exact keeps_anteHandle.commit (.refl hs)
  | invalidate ctx req => exact keeps_invalidateJWS.commit (.refl hs)
  | endBlock ctx => exact keeps_endBlocker.commit (.refl hs)

end Keeps

/-! ## What every input keeps of the store -/

/-- The records are sound with exact indices, the parameters are valid, every connection is stored under its address, and the
chain configuration has been set. -/
structure Store.Sound (Γ : Sdk) (K : Keeper) (s : Store) : Prop where
  indexed : s.core.Indexed Γ
  params : s.core.params.validate Γ K = .ok ()
  icaConnections : ∀ k c, s.icaConnections.get k = some c → c.icaAddress = k ∧ k ≠ []
  configSet : s.configSet = true

section Store

variable {s t : Store} {u : Unit}

@[simp] theorem onCore_ok {α : Type} {x : Eff State Error α} {a : α} :
    (onCore x).Succeeds s a t ↔ x.Succeeds s.core a t.core ∧ t.icaConnections = s.icaConnections ∧ t.configSet = s.configSet := by
  obtain ⟨core, icaConnections, configSet⟩ := t
  unfold Eff.Succeeds onCore
  rw [Prod.mk.injEq, Prod.ext_iff, Store.mk.injEq]
  constructor
  · rintro ⟨ha, hco, hic, hcf⟩
    exact ⟨⟨ha, hco⟩, hic.symm, hcf.symm⟩
  · rintro ⟨⟨ha, hco⟩, hic, hcf⟩
    exact ⟨ha, hco, hic.symm, hcf.symm⟩

theorem setParams_ok {params : Params} : (setParams Γ K params).Succeeds s u t ↔
      params.validate Γ K = .ok () ∧ t = { s with core := { s.core with params := params } } := by
  unfold setParams
  rw [lift_bind_ok]
  simp only [modify_ok]
  constructor
  · rintro ⟨_, hv, ht⟩
    exact ⟨hv, ht⟩
  · rintro ⟨hv, ht⟩
    exact ⟨(), hv, ht⟩

theorem setICAConnection_ok {icaAddress controllerAddress controllerChainID connectionID : Bytes} :
    (setICAConnection icaAddress controllerAddress controllerChainID connectionID).Succeeds s u t ↔ icaAddress ≠ [] ∧
      t = { s with icaConnections :=
        s.icaConnections.set icaAddress ⟨icaAddress, controllerAddress, controllerChainID, connectionID⟩ } := by
  unfold setICAConnection
  rw [require_bind_ok, modify_ok]

theorem setChainConfig_ok {cfg : ChainConfig} : (setChainConfig cfg).Succeeds s u t ↔ s.configSet = false ∧
      t = { s with core := { s.core with chainConfig := cfg }, configSet := true } := by
  unfold setChainConfig
  rw [read_bind_ok, require_bind_ok, modify_ok]

theorem handleICAChannelOpen_ok {I : IbcKeepers} {connectionID controllerPortID : Bytes}
    (h : (handleICAChannelOpen I connectionID controllerPortID).Succeeds s u t) :
    ∃ c : ICAConnection, c.icaAddress ≠ [] ∧ t = { s with icaConnections := s.icaConnections.set c.icaAddress c } := by
  unfold handleICAChannelOpen at h
  rw [lift_bind_ok] at h
  obtain ⟨icaAddr, -, hrest⟩ := h
  rw [read_bind_ok, require_bind_ok, require_bind_ok, lift_bind_ok] at hrest
  obtain ⟨-, -, chainID, -, hs⟩ := hrest
  obtain ⟨hne, ht⟩ := setICAConnection_ok.1 (mapErr_ok.1 hs)
  exact ⟨⟨icaAddr, controllerPortID.drop controllerPort.length, chainID, connectionID⟩, hne, ht⟩

theorem storeStep_sound {Λ : Jws} {eod : ExtensionOptionsDecorator} (s : Store) (i : StoreInput) (hs : s.Sound Γ K) :
    (storeStep Γ K Λ eod s i).Sound Γ K := by
  cases i with
  | tokens i =>
    have hco := step_rewrites Λ eod hs.indexed i
    refine ⟨hco.indexed, ?_, hs.icaConnections, hs.configSet⟩
    show (step Γ Λ eod s.core i).params.validate Γ K = .ok ()
    rw [hco.params]
    exact hs.params
  | updateParams req =>
    refine commit_of_ok hs fun _ t h => ?_
    unfold updateParams at h
    rw [require_bind_ok, setParams_ok] at h
    obtain ⟨-, hv, rfl⟩ := h
    exact ⟨⟨hs.indexed.sound, hs.indexed.byDID, hs.indexed.byAccount⟩, hv, hs.icaConnections, hs.configSet⟩
  | icaChannelOpen I connectionID controllerPortID =>
    refine commit_of_ok hs fun _ t h => ?_
    obtain ⟨c, hne, rfl⟩ := handleICAChannelOpen_ok h
    exact ⟨hs.indexed, hs.params, All.set hs.icaConnections ⟨rfl, hne⟩, hs.configSet⟩

theorem Store.fresh_eq (cfg : ChainConfig) :
    Store.fresh Γ K cfg = ⟨⟨.empty, .empty, .empty, cfg, defaultParams⟩, .empty, true⟩ := rfl

theorem Store.fresh_sound (cfg : ChainConfig) : (Store.fresh Γ K cfg).Sound Γ K := by
  rw [Store.fresh_eq]
  exact ⟨State.NoTokens.indexed ⟨rfl, rfl, rfl⟩, rfl, fun _ _ h => (nomatch h), rfl⟩

/-! ## The loops of `InitGenesis` -/

theorem forEach_setICAConnection {l : List (Bytes × ICAConnection)} (h : ∀ e ∈ l, e.2.icaAddress = e.1 ∧ e.1 ≠ []) :
    (Eff.forEach (l.map Prod.snd) fun c =>
      (setICAConnection c.icaAddress c.controllerAddress c.controllerChainId c.connectionId).must).Succeeds s () t ↔
      t = { s with icaConnections := s.icaConnections.setAll l } := by
  induction l generalizing s with
  | nil => exact pure_ok.trans ⟨fun h => h.2, fun h => ⟨rfl, h⟩⟩
  | cons e rest ih =>
    obtain ⟨k, c⟩ := e
    have hke : c.icaAddress = k ∧ k ≠ [] := h (k, c) mem_cons_self
    obtain ⟨rfl, hne⟩ := hke
    have hrest := fun e' he' => h e' (mem_cons_of_mem _ he')
    rw [map_cons, Eff.forEach, bind_ok]
    constructor
    · rintro ⟨_, s₁, hon, hl⟩
      obtain ⟨-, rfl⟩ := setICAConnection_ok.1 (must_ok.1 hon)
      exact (ih hrest).1 hl
    · rintro rfl
      exact ⟨(), _, must_ok.2 (setICAConnection_ok.2 ⟨hne, rfl⟩), (ih hrest).2 rfl⟩

theorem forEach_onCore {α : Type} {xs : List α} {f : α → Eff State Error Unit} :
    (Eff.forEach xs fun x => (onCore (f x)).must).Succeeds s () t ↔
      (Eff.forEach xs f).Succeeds s.core () t.core ∧ t.icaConnections = s.icaConnections ∧ t.configSet = s.configSet := by
  induction xs generalizing s with
  | nil =>
    rw [Eff.forEach, Eff.forEach, pure_ok, pure_ok]
    constructor
    · rintro ⟨-, rfl⟩
      exact ⟨⟨rfl, rfl⟩, rfl, rfl⟩
    · rintro ⟨⟨-, hco⟩, hic, hcf⟩
      obtain ⟨core, icaConnections, configSet⟩ := t
      obtain ⟨core', icaConnections', configSet'⟩ := s
      cases hco
      cases hic
      cases hcf
      exact ⟨rfl, rfl⟩
  | cons x rest ih =>
    rw [Eff.forEach, Eff.forEach, bind_ok, bind_ok]
    constructor
    · rintro ⟨v, s₁, hon, hl⟩
      obtain ⟨hx, hic, hcf⟩ := onCore_ok.1 (must_ok.1 hon)
      obtain ⟨hrest, hic', hcf'⟩ := ih.1 hl
      exact ⟨⟨v, s₁.core, hx, hrest⟩, hic'.trans hic, hcf'.trans hcf⟩
    · rintro ⟨⟨v, core, hx, hrest⟩, hic, hcf⟩
      exact ⟨v, { s with core := core }, must_ok.2 (onCore_ok.2 ⟨hx, rfl, rfl⟩), ih.2 ⟨hrest, hic, hcf⟩⟩

/-- Every record that the loop stores passed the checks under the chain configuration before the loop. -/
theorem storable_of_forEach {records : List JWSTokenRecord} {s t : State}
    (h : (Eff.forEach records (setJWSToken Γ)).Succeeds s () t) : ∀ r ∈ records, Storable Γ s.chainConfig r := by
  intro r hr
  obtain ⟨before, after, s₁, s₂, -, hb, ht, -⟩ := forEach_ok_split h hr
  have hcf : s₁.chainConfig = s.chainConfig :=
    forEach_induction (P := fun s' => s'.chainConfig = s.chainConfig) hb
      (fun _ _ s' t' hs' h' => (setJWSToken_ok h').2.2.trans hs') rfl
  exact hcf ▸ (setJWSToken_ok ht).1

/-- Records that can be stored, none of them stored before, are stored one after the other. -/
theorem forEach_setJWSToken {l : List (Bytes × JWSTokenRecord)} {s : State} (hs : s.Indexed Γ)
    (hl : ∀ e ∈ l, e.2.tokenHash = e.1 ∧ Storable Γ s.chainConfig e.2) (hno : (l.map Prod.fst).Nodup)
    (hf : ∀ e ∈ l, s.tokens.get e.1 = none) :
    ∃ t, (Eff.forEach (l.map Prod.snd) (setJWSToken Γ)).Succeeds s () t ∧ Rewrites Γ s t ∧ t.tokens = s.tokens.setAll l := by
  induction l generalizing s with
  | nil => exact ⟨s, rfl, .refl hs, rfl⟩
  | cons e rest ih =>
    obtain ⟨hnew, hrest⟩ := nodup_cons.1 hno
    obtain ⟨hke, hst⟩ := hl e mem_cons_self
    obtain ⟨s₁, hon, hto, hcf⟩ := setJWSToken_of_storable hst
    rw [hke] at hto
    have hr : Rewrites Γ s s₁ := by
      refine hs.set hon fun old hold => ?_
      rw [hke, hf e mem_cons_self] at hold
      cases hold
    have hf₁ : ∀ e' ∈ rest, s₁.tokens.get e'.1 = none := by
      intro e' he'
      have hne : e'.1 ≠ e.1 := fun heq => hnew (heq ▸ mem_map_of_mem he')
      rw [hto, get_set_of_ne _ _ hne]
      exact hf e' (mem_cons_of_mem _ he')
    have hl₁ : ∀ e' ∈ rest, e'.2.tokenHash = e'.1 ∧ Storable Γ s₁.chainConfig e'.2 := by
      intro e' he'
      rw [hcf]
      exact hl e' (mem_cons_of_mem _ he')
    obtain ⟨t, hlo, hr', ht⟩ := ih hr.indexed hl₁ hrest hf₁
    refine ⟨t, bind_ok.2 ⟨(), s₁, hon, hlo⟩, hr.trans hr', ?_⟩
    rw [ht, hto]
    rfl

/-! ## The round trip -/

/-- The state in which the records are imported. -/
def Store.beforeTokens (s : Store) : Store :=
  { Store.empty with
    core := { Store.empty.core with params := s.core.params }
    icaConnections := s.icaConnections }

/-- Importing an exported store is importing its records under the default configuration, then setting the configuration. -/
theorem initGenesis_exportGenesis (hs : s.Sound Γ K) : (initGenesis Γ K s.exportGenesis).Succeeds Store.empty () t ↔
      ∃ core, (Eff.forEach (s.core.tokens.entries.map Prod.snd) (setJWSToken Γ)).Succeeds s.beforeTokens.core () core ∧
        t = ⟨{ core with chainConfig := s.core.chainConfig }, s.icaConnections, true⟩ := by
  have hic : ∀ e ∈ s.icaConnections.entries, e.2.icaAddress = e.1 ∧ e.1 ≠ [] :=
    fun e he => hs.icaConnections e.1 e.2 (s.icaConnections.mem_entries.1 he)
  have hr : (KVStore.empty : KVStore Bytes ICAConnection).setAll s.icaConnections.entries = s.icaConnections :=
    s.icaConnections.setAll_entries
  unfold initGenesis
  rw [bind_ok]
  constructor
  · rintro ⟨_, s₁, hp, hrest⟩
    obtain ⟨-, rfl⟩ := setParams_ok.1 (must_ok.1 hp)
    obtain ⟨_, s₂, hco, hrest⟩ := bind_ok.1 hrest
    obtain rfl := (forEach_setICAConnection hic).1 hco
    obtain ⟨_, s₃, ht, hcf⟩ := bind_ok.1 hrest
    obtain ⟨hl, hcon, -⟩ := forEach_onCore.1 ht
    obtain ⟨-, rfl⟩ := setChainConfig_ok.1 (must_ok.1 hcf)
    refine ⟨s₃.core, hl, ?_⟩
    rw [hcon]
    exact congrArg (fun ica => Store.mk _ ica true) hr
  · rintro ⟨core, hl, rfl⟩
    refine ⟨(), _, must_ok.2 (setParams_ok.2 ⟨hs.params, rfl⟩), bind_ok.2 ⟨(), s.beforeTokens, ?_, ?_⟩⟩
    · refine (forEach_setICAConnection hic).2 ?_
      exact congrArg (fun ica => Store.mk _ ica false) hr.symm
    · refine bind_ok.2 ⟨(), { s.beforeTokens with core := core }, forEach_onCore.2 ⟨hl, rfl, rfl⟩, ?_⟩
      exact must_ok.2 (setChainConfig_ok.2 ⟨rfl, rfl⟩)

theorem Store.ext_of_sound (hs : s.Sound Γ K) {core : State} (hco : Rewrites Γ s.beforeTokens.core core)
    (ht : core.tokens = s.core.tokens) :
    (⟨{ core with chainConfig := s.core.chainConfig }, s.icaConnections, true⟩ : Store) = s := by
  have hd : core.byDID = s.core.byDID := by
    have hin := hco.indexed.byDID
    rw [ht] at hin
    exact hin.unique hs.indexed.byDID
  have ha : core.byAccount = s.core.byAccount := by
    have hin := hco.indexed.byAccount
    rw [ht] at hin
    exact hin.unique hs.indexed.byAccount
  have hp : core.params = s.core.params := hco.params
  have hse := hs.configSet
  obtain ⟨⟨tokens, byDID, byAccount, chainConfig, params⟩, icaConnections, configSet⟩ := s
  simp only at ht hd ha hp hse
  rw [ht, hd, ha, hp, hse]

theorem Storable.of_account {cfg cfg' : ChainConfig} {r : JWSTokenRecord} (h : Storable Γ cfg r)
    (ha : r.authorizedAccount ≠ []) : Storable Γ cfg' r :=
  ⟨h.tokenHash, h.issuerDid, .inl (h.account.resolve_right fun hnone => ha hnone.1), h.marshalable, h.didKey, h.accountKey⟩

end Store

/-- In every run of a chain, whatever its configuration: importing the exported state into an empty store succeeds and gives
back the same state, with its parameters, connections, configuration, records and indices, exactly if every stored record has
an authorized account. -/
theorem genesis_round_trip_iff (Γ : Sdk) (K : Keeper) (Λ : Jws) (eod : ExtensionOptionsDecorator) (cfg : ChainConfig)
    (inputs : List StoreInput) :
    let s := Run.run (storeStep Γ K Λ eod) (Store.fresh Γ K cfg) inputs
    (initGenesis Γ K s.exportGenesis).Succeeds Store.empty () s ↔
      ∀ e ∈ s.core.tokens.entries, e.2.authorizedAccount ≠ [] := by
  intro s
  have hs : s.Sound Γ K :=
    Run.run_invariant (storeStep Γ K Λ eod) (I := Store.Sound Γ K) storeStep_sound (Store.fresh_sound cfg) inputs
  rw [initGenesis_exportGenesis hs]
  constructor
  · rintro ⟨core, hl, -⟩ e he
    have hst := storable_of_forEach hl e.2 (mem_map_of_mem he)
    rcases hst.account with ⟨hg, -⟩ | ⟨-, hig⟩
    · exact hg
    · cases hig
  · intro ha
    have hstored : ∀ e ∈ s.core.tokens.entries, e.2.tokenHash = e.1 ∧ Storable Γ s.beforeTokens.core.chainConfig e.2 := by
      intro e he
      obtain ⟨hke, hst⟩ := hs.indexed.sound e.1 e.2 (s.core.tokens.mem_entries.1 he)
      exact ⟨hke, hst.of_account (ha e he)⟩
    obtain ⟨core, hl, hr, ht⟩ := forEach_setJWSToken (s := s.beforeTokens.core)
      (State.NoTokens.indexed ⟨rfl, rfl, rfl⟩) hstored s.core.tokens.nodup_keys fun _ _ => rfl
    refine ⟨core, hl, (Store.ext_of_sound hs hr (ht.trans ?_)).symm⟩
    exact s.core.tokens.setAll_entries

/-! ## A token without an account -/

namespace Relayed

open Respelled

/-- The claims of a token that authorizes no account. -/
def claims : BearerToken := ⟨did, [], [], 1000, 2000⟩

def jws : Jws := { Respelled.jws with unmarshalBearerToken := fun _ => .ok claims }

/-- A chain behind relays, of which any will do. -/
def relayConfig : ChainConfig := ⟨false, true, true⟩

def keeper : Keeper := ⟨account, fun b => b⟩

def tx : Tx := ⟨some [.jws token], [some account], some ([1], [2])⟩

def sent : List StoreInput := [.tokens (.tx ctx tx fun _ => .ok ())]

end Relayed

open Respelled Relayed in
/-- The token record of a relayed transaction names no account; importing the exported state panics. -/
theorem genesis_round_trip_false : ((initGenesis sdk keeper
      (Run.run (storeStep sdk keeper Relayed.jws ⟨true⟩) (Store.fresh sdk keeper relayConfig) sent).exportGenesis)
        Store.empty).1 = .panic "unexpected error" := by
  decide +kernel

open Respelled Relayed in
/-- A chain that asks for bearer authorization, with the token of an account, is restored. -/
theorem genesis_round_trip_account :
    let s := Run.run (storeStep sdk keeper Respelled.jws ⟨true⟩) (Store.fresh sdk keeper defaultChainConfig)
      [.tokens (.tx ctx (Respelled.tx token) fun _ => .ok ())]
    (initGenesis sdk keeper s.exportGenesis).Succeeds Store.empty () s ∧ s.core.tokens.entries ≠ [] := by
  refine ⟨(genesis_round_trip_iff sdk keeper Respelled.jws ⟨true⟩ defaultChainConfig _).2 ?_, ?_⟩
  · decide +kernel
  · decide +kernel

end Vera.Core
