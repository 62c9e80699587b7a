import Vera.App.DeductFee
import Vera.Core.Revocation
import Vera.Feegrant.Pruning

/-!
# Who acts as a DID

A transaction with a bearer token that passes both decorators acts as a DID. Either the token is signed by that DID and
authorizes the account that signs the messages, or a relay that the chain trusts pays for the account that does.
-/

namespace Vera.Core

open Eff

variable {Γ : Sdk} {Λ : Jws}

/-! ## What the first decorator checks -/

variable {u : Unit} {eod : ExtensionOptionsDecorator} {s : State} {tx : Tx} {token : BearerToken}
  {trustedRelay : Bool} {bearerToken : Bytes} {ctx : Ctx}

theorem checkCreators_eq_ok {expected : Bytes} {mismatch : Bytes → Bytes} {i : Nat} {creators : List (Option Bytes)}
    (h : checkCreators expected mismatch i creators = .ok u) : ∀ creator ∈ creators, creator = some expected := by
  induction creators generalizing i with
  | nil => simp
  | cons creator rest ih =>
    simp only [checkCreators] at h
    split at h
    · cases h
    rename_i hno
    split at h
    · cases h
    rename_i hexp
    intro c hc
    rcases List.mem_cons.1 hc with rfl | hrest
    · cases c with
      | none => exact absurd rfl hno
      | some signer => exact congrArg some (not_not.1 hexp)
    · exact ih h c hrest

/-- The chain leaves the check of the signers to relays. -/
def ExtensionOptionsDecorator.relayMode (eod : ExtensionOptionsDecorator) (s : State) : Bool :=
  eod.hasCoreKeeper && s.chainConfig.ignoreBearerAuth

/-- The fee granter of a transaction may be its relay. -/
def State.trusts (s : State) (feeGranterAddress : Bytes) : Prop :=
  s.chainConfig.allowAnyRelay = true ∨ feeGranterAddress ∈ s.params.trustedRelayFeeGranters

theorem validateRelay_of_bearer (h : eod.relayMode s = false) : validateRelay Γ eod s tx = .ok [] := by
  have hof : (!eod.hasCoreKeeper || !s.chainConfig.ignoreBearerAuth) = true := by
    rw [← Bool.not_and]
    exact congrArg not h
  simp [validateRelay, hof]

theorem validateRelay_of_relay {relay : Bytes} (hm : eod.relayMode s = true) (h : validateRelay Γ eod s tx = .ok relay) :
    ∃ feeGranter feePayer, tx.fees = some (feeGranter, feePayer) ∧ feeGranter ≠ [] ∧ relay = Γ.accAddressString feeGranter ∧
      s.trusts relay ∧ ∀ creator ∈ tx.creators, creator = some (Γ.accAddressString feePayer) := by
  have hon : (!eod.hasCoreKeeper || !s.chainConfig.ignoreBearerAuth) = false := by
    rw [← Bool.not_and]
    exact congrArg not hm
  unfold validateRelay at h
  rw [hon, if_neg Bool.false_ne_true] at h
  split at h
  · cases h
  rename_i feeGranter feePayer hf
  split at h
  · cases h
  rename_i hg
  dsimp only at h
  split at h
  · cases h
  rename_i ht
  obtain ⟨u, hcr, hr⟩ := Outcome.bind_eq_ok.1 h
  obtain rfl := Outcome.pure_eq_ok.1 hr
  refine ⟨feeGranter, feePayer, hf, hg, rfl, ?_, checkCreators_eq_ok hcr⟩
  by_cases ha : s.chainConfig.allowAnyRelay = true
  · exact .inl ha
  · refine .inr ?_
    simpa [ha] using ht

/-- A token is verified: it is the payload of the string, and the key of its issuer verifies the signature. -/
def Verified (Λ : Jws) (bearerToken : Bytes) (token : BearerToken) : Prop :=
  ∃ payload key, Λ.parseSigned (normalise bearerToken) = .ok payload ∧ unmarshalJWSPayload Λ payload = .ok token ∧
    issuerKey Λ token.issuerID = .ok key ∧ Λ.verify (normalise bearerToken) key.1 key.2 = .ok ()

theorem validateBearerTokenValues_eq_ok
    (h : validateBearerTokenValues Γ Λ token trustedRelay = .ok u) : token.providerToken = [] ∨ trustedRelay = true := by
  unfold validateBearerTokenValues at h
  obtain ⟨_, _, hrest⟩ := Outcome.bind_eq_ok.1 h
  obtain ⟨_, hp, _⟩ := Outcome.bind_eq_ok.1 hrest
  exact Outcome.require_eq_ok.1 hp

theorem parseValidateJWS_eq_ok (h : parseValidateJWS Γ Λ bearerToken trustedRelay = .ok token) :
    Verified Λ bearerToken token ∧ (token.providerToken = [] ∨ trustedRelay = true) := by
  unfold parseValidateJWS at h
  simp only [parseValidateJWS, Outcome.bind_eq_ok, Outcome.pure_eq_ok] at h
  obtain ⟨_, _, payload, hp, bearer, hb, _, hv, key, hke, _, hve, rfl⟩ := h
  have hs := Outcome.ofExcept_eq_ok.1 hve
  exact ⟨⟨payload, key, Outcome.ofExcept_eq_ok.1 hp, hb, hke, hs⟩, validateBearerTokenValues_eq_ok hv⟩

theorem validateJWSExtension_of_bearer {did account : Bytes} {currentTime : Time}
    (h : validateJWSExtension Γ Λ bearerToken currentTime false = .ok (did, account)) :
    ∃ token, Verified Λ bearerToken token ∧ token.providerToken = [] ∧ did = token.issuerID ∧
      account = token.authorizedAccount := by
  unfold validateJWSExtension at h
  simp only [validateJWSExtension, Outcome.bind_eq_ok] at h
  obtain ⟨token, hpa, _, _, actor, ha, h⟩ := h
  obtain ⟨hv, hp | hr⟩ := parseValidateJWS_eq_ok hpa
  · unfold actorDID at ha
    rw [if_neg (not_not.2 hp)] at ha
    obtain rfl := Outcome.pure_eq_ok.1 ha
    obtain ⟨hd, hac⟩ := Prod.mk.inj (Outcome.pure_eq_ok.1 h)
    exact ⟨token, hv, hp, hd.symm, hac.symm⟩
  · cases hr

/-- A transaction with a bearer token that passes the decorator has only this extension, was authorized, and its signers were
checked. -/
theorem anteHandle_ok {values : Ctx} {simulate : Bool} {t : State} (hext : .jws bearerToken ∈ tx.extensionOptions.getD [])
    (h : (anteHandle Γ Λ eod ctx tx simulate pure).Succeeds s values t) :
    ∃ auth, authorize Γ Λ eod ctx s tx bearerToken = .ok auth ∧ checkSigners tx auth = .ok () ∧
      values = authorizedCtx ctx auth := by
  unfold anteHandle at h
  split at h
  · rename_i hnone
    rw [hnone] at hext
    cases hext
  · rename_i token hon
    rw [hon] at hext
    cases List.mem_singleton.1 hext
    rw [read_bind_ok, lift_bind_ok] at h
    obtain ⟨auth, ha, h⟩ := h
    obtain ⟨_, s₁, _, h⟩ := bind_ok.1 h
    rw [lift_bind_ok] at h
    obtain ⟨_, hs, h⟩ := h
    exact ⟨auth, ha, hs, (pure_ok.1 h).1⟩
  · exact absurd h fail_ok
  · exact absurd h fail_ok

theorem authorize_eq_ok {auth : Authorization} (h : authorize Γ Λ eod ctx s tx bearerToken = .ok auth) :
    validateRelay Γ eod s tx = .ok auth.relayFeeGranter ∧
      validateJWSExtension Γ Λ bearerToken ctx.blockTime (auth.relayFeeGranter ≠ []) = .ok (auth.did, auth.authorizedAccount) := by
  unfold authorize at h
  simp only [authorize, Outcome.bind_eq_ok, Outcome.pure_eq_ok] at h
  obtain ⟨relay, hr, validated, hv, token, _, rfl⟩ := h
  exact ⟨hr, Outcome.mapErr_eq_ok.1 hv⟩

end Vera.Core

namespace Vera.Feegrant

open Eff

variable {Γ : Env}

theorem useGrantedFees_accepted {ctx : Ctx} {granter grantee : KeyPart} {fee : Γ.Coins} {msgs : List Bytes} {s t : State Γ}
    {u : Unit} (h : (useGrantedFees ctx granter grantee fee msgs).Succeeds s u t) :
    ∃ grant, s.grant granter grantee = some grant ∧ (grant.allowance.accept ctx.blockTime fee msgs).err = none := by
  unfold useGrantedFees at h
  obtain ⟨allowance, s₁, hget, hrest⟩ := bind_ok.1 h
  obtain ⟨rfl, grant, hg, rfl⟩ := getAllowance_ok hget
  refine ⟨grant, hg, ?_⟩
  generalize grant.allowance.accept ctx.blockTime fee msgs = v at hrest
  obtain ⟨remove, err, allowance⟩ := v
  cases err with
  | none => rfl
  | some e =>
    cases remove with
    | true =>
      obtain ⟨_, s₂, _, hf⟩ := bind_ok.1 hrest
      exact absurd hf fail_ok
    | false => exact absurd hrest fail_ok

end Vera.Feegrant

namespace Vera.App

open Eff
open Bytes (str)

variable {E : Env}

/-! ## What the second decorator does for a relay -/

variable {α : Type} {s t : State E} {a : α} {wrap : Feegrant.Error → Error} {ctx : Ctx}
  {payer feeGranter feePayer : Bytes} {fees : E.grants.Coins} {msgs : List Bytes} {u : Unit}
  {cdfd : CustomDeductFeeDecorator E} {tx : Tx E}

theorem onCore_ok {call : Eff Core.State Core.Error α}
    (h : (onCore call).Succeeds s a t) : ∃ c, call.Succeeds s.core a c ∧ t = { s with core := c } := by
  obtain ⟨hv, hs⟩ := Prod.mk.inj h
  exact ⟨(call s.core).2, succeeds_of_fst_eq (Outcome.mapErr_eq_ok.1 hv), hs.symm⟩

theorem onGrants_ok {call : Feegrant.M E.grants α}
    (h : (onGrants wrap call).Succeeds s a t) : ∃ g, call.Succeeds s.grants a g ∧ t = { s with grants := g } := by
  obtain ⟨hv, hs⟩ := Prod.mk.inj h
  exact ⟨(call s.grants).2, succeeds_of_fst_eq (Outcome.mapErr_eq_ok.1 hv), hs.symm⟩

theorem keyPart_eq_ok {b : Bytes} {part : Feegrant.KeyPart} (h : keyPart b = .ok part) : part.bytes = b := by
  unfold keyPart at h
  split at h
  · rename_i found hf
    obtain rfl := Outcome.ok.inj h
    exact Feegrant.KeyPart.ofBytes_eq_some hf
  · cases h

theorem useGrantedFees_ok {granter : Bytes} (h : (useGrantedFees ctx granter payer fees msgs wrap).Succeeds s u t) :
    ∃ granterPart payerPart g, granterPart.bytes = granter ∧ payerPart.bytes = payer ∧
      (Feegrant.useGrantedFees ctx.block granterPart payerPart fees msgs).Succeeds s.grants () g ∧
      t = { s with grants := g } := by
  unfold useGrantedFees at h
  rw [lift_bind_ok] at h
  obtain ⟨granterPart, hg, h⟩ := h
  rw [lift_bind_ok] at h
  obtain ⟨payerPart, hp, h⟩ := h
  obtain ⟨g, hu, rfl⟩ := onGrants_ok h
  exact ⟨granterPart, payerPart, g, keyPart_eq_ok hg, keyPart_eq_ok hp, hu, rfl⟩

theorem handleRelay_ok {trusted : Bytes}
    (h : (handleRelay cdfd ctx trusted feeGranter feePayer fees msgs).Succeeds s payer t) :
    payer = feeGranter ∧ feeGranter ≠ feePayer ∧ ∃ granterPart payerPart g, granterPart.bytes = feeGranter ∧
      payerPart.bytes = feePayer ∧
      (Feegrant.useGrantedFees ctx.block granterPart payerPart fees msgs).Succeeds s.grants () g ∧
      t = { s with grants := g } := by
  unfold handleRelay at h
  rw [require_bind_ok, require_bind_ok, require_bind_ok, require_bind_ok] at h
  obtain ⟨_, _, hd, _, h⟩ := h
  obtain ⟨_, s₁, hu, hp⟩ := bind_ok.1 h
  obtain ⟨rfl, rfl⟩ := pure_ok.1 hp
  exact ⟨rfl, hd, useGrantedFees_ok hu⟩

/-- Fees are charged through a grant: the granter has a grant to the payer that accepts them, it is used, and the account of
the granter pays. -/
structure ChargedThroughGrant (block : Feegrant.Ctx) (granter payer : Feegrant.KeyPart) (fees : E.grants.Coins)
    (msgs : List Bytes) (s t : State E) : Prop where
  granted : ∃ grant, s.grants.grant granter payer = some grant ∧
    (grant.allowance.accept block.blockTime fees msgs).err = none
  used : (Feegrant.useGrantedFees block granter payer fees msgs).Succeeds s.grants () t.grants
  paid : ∃ account, E.getAccount t.grants.accounts granter.bytes = some account ∧
    if E.grants.isZero fees then t.bank = s.bank else E.sendCoinsFromAccountToModule s.bank account fees = .ok t.bank

theorem deductFees_ok {address : Bytes} (h : (deductFees address fees).Succeeds s u t) :
    ∃ bank, E.sendCoinsFromAccountToModule s.bank address fees = .ok bank ∧ t = { s with bank := bank } := by
  unfold deductFees at h
  rw [require_bind_ok] at h
  obtain ⟨_, h⟩ := h
  rw [query_bind_ok] at h
  obtain ⟨bank, hs, h⟩ := h
  exact ⟨bank, Outcome.ofExcept_eq_ok.1 hs, modify_ok.1 h⟩

/-- The fees of a transaction in whose context a relay stands are charged through its grant. -/
theorem checkDeductFee_of_relay {relay : Bytes} (hfe : tx.fees = some (feeGranter, feePayer))
    (hr : ctx.trustedRelayFeeGranter = some relay) (hno : relay ≠ [])
    (h : (checkDeductFee cdfd ctx tx fees).Succeeds s u t) :
    feeGranter ≠ feePayer ∧ ∃ granter payer, granter.bytes = feeGranter ∧ payer.bytes = feePayer ∧
      ChargedThroughGrant ctx.block granter payer fees tx.msgs s t := by
  unfold checkDeductFee at h
  rw [hfe] at h
  dsimp only at h
  rw [require_bind_ok] at h
  obtain ⟨_, h⟩ := h
  obtain ⟨deductFeesFrom, s₁, hh, h⟩ := bind_ok.1 h
  simp only [handleFeegrant, hr, Option.getD_some] at hh
  rw [if_pos hno] at hh
  obtain ⟨rfl, hdi, granter, payer, g, hg, hp, hu, rfl⟩ := handleRelay_ok hh
  rw [query_bind_ok] at h
  obtain ⟨account, ha, h⟩ := h
  have hf := Outcome.ofOption_eq_ok.1 ha
  rw [← hg] at hf
  refine ⟨hdi, granter, payer, hg, hp, ?_⟩
  split at h
  · rename_i hz
    obtain ⟨_, s₂, hd, hevent⟩ := bind_ok.1 h
    obtain ⟨bank, hs, rfl⟩ := deductFees_ok hd
    obtain rfl := modify_ok.1 hevent
    refine ⟨Feegrant.useGrantedFees_accepted hu, hu, account, hf, ?_⟩
    rw [hz]
    exact hs
  · rename_i hz
    obtain rfl := modify_ok.1 h
    refine ⟨Feegrant.useGrantedFees_accepted hu, hu, account, hf, ?_⟩
    rw [Bool.not_eq_false] at hz
    rw [hz]
    rfl

theorem CustomDeductFeeDecorator.anteHandle_ok {last : Ctx}
    (hheight : 0 < ctx.height) (h : (cdfd.anteHandle ctx tx false pure).Succeeds s last t) :
    last = ctx ∧ ∃ fees priority, cdfd.txFeeChecker ctx tx = .ok (fees, priority) ∧
      (checkDeductFee cdfd ctx tx fees).Succeeds s () t := by
  unfold CustomDeductFeeDecorator.anteHandle at h
  rw [require_bind_ok, if_neg (Int.ne_of_gt hheight)] at h
  obtain ⟨_, h⟩ := h
  rw [require_bind_ok] at h
  obtain ⟨_, h⟩ := h
  rw [lift_bind_ok] at h
  obtain ⟨fees, hf, h⟩ := h
  obtain ⟨checked, hch, hp⟩ := Outcome.bind_eq_ok.1 hf
  obtain rfl := Outcome.pure_eq_ok.1 hp
  obtain ⟨_, s₂, hd, hl⟩ := bind_ok.1 h
  obtain ⟨rfl, rfl⟩ := pure_ok.1 hl
  exact ⟨rfl, checked.1, checked.2, hch, hd⟩

/-! ## Who acts -/

/-- The token backs the DID: bearer authentication is on, the DID in the context is the verified issuer of the token, no
provider token is used, and the account that the token authorizes is the creator of every message. -/
structure BackedByToken (eod : Core.ExtensionOptionsDecorator) (bearerToken : Bytes) (tx : Tx E) (s : State E) (ctx : Ctx) :
    Prop where
  mode : eod.relayMode s.core = false
  issued : ∃ token, Core.Verified E.jws bearerToken token ∧ token.providerToken = [] ∧
    ctx.extractedDID = some token.issuerID ∧ ∀ creator ∈ tx.creators, creator = some token.authorizedAccount

/-- A relay backs the DID: relay mode is on, the fee payer is the creator of every message, and the fees were charged through
a grant to the payer from a trusted relay that is not the payer. -/
structure BackedByRelay (eod : Core.ExtensionOptionsDecorator) (cdfd : CustomDeductFeeDecorator E) (tx : Tx E) (s t : State E)
    (ctx : Ctx) : Prop where
  mode : eod.relayMode s.core = true
  charged : ∃ granter payer fees priority, tx.fees = some (granter.bytes, payer.bytes) ∧ granter ≠ payer ∧
    s.core.trusts (E.sdk.accAddressString granter.bytes) ∧
    (∀ creator ∈ tx.creators, creator = some (E.sdk.accAddressString payer.bytes)) ∧
    cdfd.txFeeChecker ctx tx = .ok (fees, priority) ∧ ChargedThroughGrant ctx.block granter payer fees tx.msgs s t

/-- An acting DID is always backed by an authorised signer. -/
theorem acting_did_backed (E : Env) (hstring : ∀ address, address ≠ [] → E.sdk.accAddressString address ≠ [])
    (eod : Core.ExtensionOptionsDecorator) (cdfd : CustomDeductFeeDecorator E) (between : Ctx → Outcome Error Unit) (ctx last : Ctx)
    (hheight : 0 < ctx.height) (tx : Tx E) (bearerToken : Bytes) (hext : .jws bearerToken ∈ tx.extensionOptions.getD [])
    (s t : State E) (h : (anteHandler eod cdfd between ctx tx false).Succeeds s last t) :
    tx.creators ≠ [] ∧ (BackedByToken eod bearerToken tx s last ∨ BackedByRelay eod cdfd tx s t last) := by
  unfold anteHandler at h
  obtain ⟨values, s₁, hfi, h⟩ := bind_ok.1 h
  obtain ⟨c, hco, rfl⟩ := onCore_ok hfi
  obtain ⟨auth, hau, hs, rfl⟩ := Core.anteHandle_ok hext hco
  obtain ⟨hr, hva⟩ := Core.authorize_eq_ok hau
  rw [lift_bind_ok] at h
  obtain ⟨_, _, h⟩ := h
  have hl : 0 < (ctx.withValues (Core.authorizedCtx ctx.core auth)).height := hheight
  obtain ⟨rfl, fees, priority, hche, hd⟩ := CustomDeductFeeDecorator.anteHandle_ok hl h
  unfold Core.checkSigners at hs
  split at hs
  · cases hs
  rename_i hms
  refine ⟨hms, ?_⟩
  cases hm : eod.relayMode s.core with
  | false =>
    have hnone : auth.relayFeeGranter = [] := by
      rw [Core.validateRelay_of_bearer hm] at hr
      exact (Outcome.ok.inj hr).symm
    rw [hnone] at hva hs
    obtain ⟨token, hv, hp, hdid, hac⟩ := Core.validateJWSExtension_of_bearer hva
    rw [if_neg (not_not.2 rfl)] at hs
    refine .inl ⟨hm, token, hv, hp, congrArg some hdid, ?_⟩
    rw [← hac]
    exact Core.checkCreators_eq_ok hs
  | true =>
    obtain ⟨feeGranter, feePayer, hf, hg, ha, ht, hcr⟩ := Core.validateRelay_of_relay hm hr
    have hno : auth.relayFeeGranter ≠ [] := ha ▸ hstring feeGranter hg
    have hval : (ctx.withValues (Core.authorizedCtx ctx.core auth)).trustedRelayFeeGranter = some auth.relayFeeGranter :=
      if_pos hno
    obtain ⟨hdi, granter, payer, rfl, rfl, hch⟩ := checkDeductFee_of_relay hf hval hno hd
    refine .inr ⟨hm, granter, payer, fees, priority, hf, ?_, ha ▸ ht, hcr, hche, ?_⟩
    · intro heq
      exact hdi (congrArg Feegrant.KeyPart.bytes heq)
    · exact ⟨hch.granted, hch.used, hch.paid⟩

/-! ## A relay that pays for its worker -/

section LocalChain

open Feegrant (alice bob localFees)

/-- Addresses are their own texts, and one balance pays all fees. -/
def localChain : Env where
  sdk :=
    { accAddressFromBech32 := fun text => .ok text
      accAddressString := fun address => address
      getFromBech32 := fun text _ => .ok text
      verifyAddressFormat := fun _ => .ok ()
      lengthPrefixed := Core.Respelled.sdk.lengthPrefixed }
  jws := Core.Respelled.jws
  grants := localFees
  Bank := Int
  feeCollector := some (str "fee_collector")
  getAccount accounts address := if accounts.contains address then some address else none
  isValid := fun (fees : Int) => decide (0 < fees)
  coinsString := fun _ => []
  sendCoinsFromAccountToModule := fun (balance : Int) _ (fees : Int) =>
    if fees ≤ balance then .ok (balance - fees) else .error (str "insufficient funds")

/-- The fees of a transaction are what it offers. -/
def localDecorator : CustomDeductFeeDecorator localChain := ⟨true, fun _ tx => .ok (tx.fee, 0)⟩

/-- Alice is a trusted relay and has granted the worker Bob an allowance. -/
def relayState : State localChain where
  core := ⟨.empty, .empty, .empty, ⟨false, true, false⟩, ⟨[alice.bytes]⟩⟩
  grants :=
    { Feegrant.State.init (Γ := localFees) [alice.bytes, bob.bytes] with
      book := ⟨KVStore.empty.set (Feegrant.feeAllowanceKey alice bob) ⟨alice.bytes, bob.bytes, .basic ⟨(5 : Int), none⟩⟩, .empty⟩ }
  bank := (9 : Int)
  events := []

/-- Bob sends the token of somebody else in a message of their own. -/
def relayTx : Tx localChain where
  extensionOptions := some [.jws Core.Respelled.token]
  creators := [some bob.bytes]
  fees := some (alice.bytes, bob.bytes)
  msgs := [str "/vera.acp.MsgDirectPolicyCmd"]
  gas := 100
  fee := (2 : Int)

def firstBlock : Ctx where
  block := Feegrant.blockAt 1500 (by decide)
  height := 1

/-- The relay pays, and its worker acts as the issuer of the token. -/
theorem acting_did_backed_relay : ∃ last t,
    (anteHandler ⟨true⟩ localDecorator (fun _ => .ok ()) firstBlock relayTx false).Succeeds relayState last t ∧
      BackedByRelay ⟨true⟩ localDecorator relayTx relayState t last := by
  obtain ⟨last, hru⟩ : ∃ last, (anteHandler ⟨true⟩ localDecorator (fun _ => .ok ()) firstBlock relayTx false).Succeeds relayState
      last (anteHandler ⟨true⟩ localDecorator (fun _ => .ok ()) firstBlock relayTx false relayState).2 :=
    succeeds_of_isOk (by decide +kernel)
  refine ⟨last, _, hru, ?_⟩
  rcases (acting_did_backed localChain (fun _ h => h) ⟨true⟩ localDecorator (fun _ => .ok ()) firstBlock last (by decide) relayTx
    Core.Respelled.token (by decide +kernel) relayState _ hru).2 with ⟨hm, _⟩ | hr
  · exact absurd hm (by decide)
  · exact hr

end LocalChain

end Vera.App
