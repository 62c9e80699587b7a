import Vera.Lib.Run
import Vera.Core.Ante

/-!
# Invalidation of bearer tokens

What every transaction, invalidation and end of block keeps of the stored tokens, and from it that an invalidated token
stays invalidated. The store knows a token by the hash of the string that carried it, while the parser looks at the string
without its leading whitespace: the same token in another spelling has a record of its own.
-/

namespace Vera.Core

open Eff KVStore
open Bytes (str)

/-- One input of the chain: a transaction (with what the rest of its ante chain answers), a message that invalidates a
token, or the end of a block. -/
inductive Input where
  | tx (ctx : Ctx) (tx : Tx) (rest : Ctx → Outcome Error Unit)
  | invalidate (ctx : Ctx) (req : MsgInvalidateJWS)
  | endBlock (ctx : Ctx)

variable (Γ : Sdk) (Λ : Jws) (eod : ExtensionOptionsDecorator)

def step (s : State) : Input → State
  | .tx ctx tx rest => (anteHandle Γ Λ eod ctx tx false fun c => Eff.lift (rest c)).commit s
  | .invalidate ctx req => (invalidateJWS Γ ctx req).commit s
  | .endBlock ctx => (endBlocker Γ ctx).commit s

/-- Every record is stored under its own hash. -/
def State.WellFormed (s : State) : Prop := ∀ k r, s.tokens.get k = some r → r.tokenHash = k

def State.Invalidated (s : State) (t : Bytes) : Prop :=
  ∃ r, s.tokens.get (hashJWSToken t) = some r ∧ r.bearerToken = t ∧ r.status = .invalid

def Tx.bearerToken (tx : Tx) : Option Bytes :=
  match tx.extensionOptions with
  | some [.jws t] => some t
  | _ => none

/-- A transaction with a bearer token gets to `StoreOrUpdateJWSToken`, which accepts it. -/
def Passes (ctx : Ctx) (tx : Tx) (bearerToken : Bytes) (s : State) : Prop :=
  ∃ auth s', authorize Γ Λ eod ctx s tx bearerToken = .ok auth ∧
    (storeOrUpdateJWSToken Γ ctx bearerToken auth.did auth.authorizedAccount (Time.ofUnix auth.token.issuedTime)
      (Time.ofUnix auth.token.expirationTime)).Succeeds s () s'

/-- In a run, once a token has been marked invalid no later transaction passes with a string that the parser takes for the
same token. -/
def InvalidationPermanent (s₀ : State) (inputs : List Input) : Prop :=
  ∀ pre mid post ctx tx rest, inputs = pre ++ mid ++ .tx ctx tx rest :: post →
    ∀ t u, (Run.run (step Γ Λ eod) s₀ pre).Invalidated t → tx.bearerToken = some u → normalise u = normalise t →
      ¬Passes Γ Λ eod ctx tx u (Run.run (step Γ Λ eod) s₀ (pre ++ mid))

/-- A transaction spells its token as the records of the same token do. -/
def SpelledAsStored (s : State) : Input → Prop
  | .tx _ tx _ => ∀ u ∈ tx.bearerToken, ∀ e ∈ s.tokens.entries, normalise e.2.bearerToken = normalise u → e.2.bearerToken = u
  | _ => True

instance (s : State) : (i : Input) → Decidable (SpelledAsStored s i)
  | .tx _ tx _ => inferInstanceAs (Decidable (∀ u ∈ tx.bearerToken, ∀ e ∈ s.tokens.entries,
      normalise e.2.bearerToken = normalise u → e.2.bearerToken = u))
  | .invalidate _ _ => .isTrue trivial
  | .endBlock _ => .isTrue trivial

namespace RevocationAux

/-- What a step does to the stored tokens: every record stays under its key, with its token, and an invalid one stays
invalid. -/
def Keeps (s s' : State) : Prop :=
  s.WellFormed → s'.WellFormed ∧ ∀ k r, s.tokens.get k = some r →
    ∃ r', s'.tokens.get k = some r' ∧ r'.bearerToken = r.bearerToken ∧ (r.status = .invalid → r'.status = .invalid)

theorem keeps_of_tokens_eq {s s' : State} (h : s'.tokens = s.tokens) : Keeps s s' := by
  intro hwf
  refine ⟨fun k r hr => hwf k r (h ▸ hr), fun k r hr => ⟨r, h ▸ hr, rfl, id⟩⟩

theorem keeps_refl (s : State) : Keeps s s := keeps_of_tokens_eq rfl

theorem keeps_trans ⦃s t u : State⦄ (h1 : Keeps s t) (h2 : Keeps t u) : Keeps s u := by
  intro hwf
  obtain ⟨hw, k1⟩ := h1 hwf
  obtain ⟨hwf2, k2⟩ := h2 hw
  refine ⟨hwf2, fun k r hr => ?_⟩
  obtain ⟨r', hr', hb', hs'⟩ := k1 k r hr
  obtain ⟨r'', hr'', hb'', hs''⟩ := k2 k r' hr'
  exact ⟨r'', hr'', hb''.trans hb', fun h => hs'' (hs' h)⟩

/-! ### The indices leave the records alone -/

abbrev SameTokens (s t : State) : Prop := t.tokens = s.tokens

theorem sameTokens_refl (s : State) : SameTokens s s := rfl

theorem sameTokens_trans ⦃s t u : State⦄ (h1 : SameTokens s t) (h2 : SameTokens t u) : SameTokens s u := h2.trans h1

theorem sameTokens_index (record : JWSTokenRecord) :
    Eff.Respects SameTokens (indexByDID Γ record >>= fun _ => indexByAccount Γ record) := by
  refine Eff.Respects.bind sameTokens_trans ?_ fun _ => ?_
  · exact Eff.Respects.bind sameTokens_trans sameTokens_refl fun _ _ => rfl
  · unfold indexByAccount
    split
    · exact Eff.Respects.bind sameTokens_trans sameTokens_refl fun _ _ => rfl
    · exact sameTokens_refl

theorem checkAuthorizedAccount_state (account : Bytes) (s : State) : (checkAuthorizedAccount Γ account s).2 = s := by
  unfold checkAuthorizedAccount
  split
  · split <;> rfl
  · split <;> rfl

theorem setJWSToken_cases (record : JWSTokenRecord) (s : State) : (setJWSToken Γ record s).2.tokens = s.tokens ∨
      (setJWSToken Γ record s).2.tokens = s.tokens.set record.tokenHash record := by
  let P : State → Prop := fun t => t.tokens = s.tokens ∨ t.tokens = s.tokens.set record.tokenHash record
  show P (setJWSToken Γ record s).2
  have hs : P s := .inl rfl
  -- the four checks before the write leave the state alone
  refine bind_of_unchanged (require_unchanged _ _ s) hs fun _ => ?_
  refine bind_of_unchanged (require_unchanged _ _ s) hs fun _ => ?_
  refine bind_of_unchanged (checkAuthorizedAccount_state Γ record.authorizedAccount s) hs fun _ => ?_
  refine bind_of_unchanged (require_unchanged _ _ s) hs fun _ => ?_
  rw [modify_bind]
  exact .inr (sameTokens_index Γ record _)

/-- Storing a record keeps the tokens when it has the token of the record it replaces and does not revive it. -/
theorem keeps_setJWSToken {record : JWSTokenRecord} {s : State} (h : ∀ r, s.tokens.get record.tokenHash = some r →
      record.bearerToken = r.bearerToken ∧ (r.status = .invalid → record.status = .invalid)) :
    Keeps s (setJWSToken Γ record s).2 := by
  rcases setJWSToken_cases Γ record s with heq | heq
  · exact keeps_of_tokens_eq heq
  intro hwf
  refine ⟨?_, fun k r hr => ?_⟩
  · unfold State.WellFormed
    rw [heq]
    exact All.set hwf rfl
  · rw [heq, get_set]
    split
    · rename_i hk
      obtain ⟨hb, hs⟩ := h r (hk ▸ hr)
      exact ⟨record, rfl, hb, hs⟩
    · exact ⟨r, hr, rfl, id⟩

/-- A call that looks a record up and stores it again, changed, keeps the tokens when the change does. -/
theorem keeps_update {f : JWSTokenRecord → JWSTokenRecord} (hh : ∀ r, (f r).tokenHash = r.tokenHash)
    (hb : ∀ r, (f r).bearerToken = r.bearerToken) (hs : ∀ r, r.status = .invalid → (f r).status = .invalid)
    (tokenHash : Bytes) : Eff.Respects Keeps (foundJWSToken tokenHash >>= fun r => setJWSToken Γ (f r)) := by
  intro s
  cases hget : s.tokens.get tokenHash with
  | none =>
    have : (foundJWSToken tokenHash >>= fun r => setJWSToken Γ (f r)) s = (.err ⟨.jwsTokenNotFound, tokenHash⟩, s) := by
      simp [bind, Eff.andThen, foundJWSToken, hget]
    rw [this]
    exact keeps_refl s
  | some r =>
    have : (foundJWSToken tokenHash >>= fun r => setJWSToken Γ (f r)) s = setJWSToken Γ (f r) s := by
      simp [bind, Eff.andThen, foundJWSToken, hget]
    rw [this]
    intro hwf
    refine keeps_setJWSToken Γ (fun r' hr' => ?_) hwf
    rw [hh, hwf _ _ hget, hget] at hr'
    obtain rfl := Option.some.inj hr'
    exact ⟨hb r, hs r⟩

theorem keeps_recordJWSTokenUsage (ctx : Ctx) (tokenHash : Bytes) :
    Eff.Respects Keeps (recordJWSTokenUsage Γ ctx tokenHash) := by
  refine Eff.Respects.bind keeps_trans (Eff.Respects.of_unchanged keeps_refl (require_unchanged _ _)) fun _ => ?_
  exact keeps_update Γ (f := (·.used ctx.blockTime)) (fun _ => rfl) (fun _ => rfl) (fun _ h => h) tokenHash

theorem keeps_invalidating (ctx : Ctx) (tokenHash invalidatedBy : Bytes) :
    Eff.Respects Keeps (updateJWSTokenStatus Γ ctx tokenHash .invalid invalidatedBy) := by
  refine Eff.Respects.bind keeps_trans (Eff.Respects.of_unchanged keeps_refl (require_unchanged _ _)) fun _ => ?_
  exact keeps_update Γ (f := (·.withStatus .invalid ctx.blockTime invalidatedBy)) (fun _ => rfl) (fun _ => rfl)
    (fun _ _ => rfl) tokenHash

/-! ### The three kinds of step -/

theorem keeps_storeOrUpdateJWSToken (ctx : Ctx) (bearerToken did account : Bytes) (issuedAt expiresAt : Time) :
    Eff.Respects Keeps (storeOrUpdateJWSToken Γ ctx bearerToken did account issuedAt expiresAt) := by
  intro s
  unfold storeOrUpdateJWSToken
  split
  · split
    · exact keeps_refl s
    · exact keeps_recordJWSTokenUsage Γ ctx _ s
  · rename_i hget
    split
    · exact keeps_refl s
    · refine keeps_setJWSToken Γ fun r hr => ?_
      rw [newRecord, hget] at hr
      cases hr

theorem keeps_storeToken (ctx : Ctx) (bearerToken : Bytes) (auth : Authorization) :
    Eff.Respects Keeps (storeToken Γ eod ctx false bearerToken auth) := by
  unfold storeToken
  split
  · exact fun s => keeps_storeOrUpdateJWSToken Γ ctx bearerToken auth.did auth.authorizedAccount _ _ s
  · exact keeps_refl

theorem keeps_anteHandle (ctx : Ctx) (tx : Tx) (rest : Ctx → Outcome Error Unit) :
    Eff.Respects Keeps (anteHandle Γ Λ eod ctx tx false fun c => Eff.lift (rest c)) := by
  unfold anteHandle
  split
  · exact keeps_refl
  · refine Eff.Respects.bind keeps_trans keeps_refl fun s => ?_
    refine Eff.Respects.bind keeps_trans keeps_refl fun auth => ?_
    refine Eff.Respects.bind keeps_trans (keeps_storeToken Γ eod ctx _ auth) fun _ => ?_
    exact Eff.Respects.bind keeps_trans keeps_refl fun _ => keeps_refl
  · exact keeps_refl
  · exact keeps_refl

theorem keeps_invalidateJWS (ctx : Ctx) (req : MsgInvalidateJWS) : Eff.Respects Keeps (invalidateJWS Γ ctx req) := by
  intro s
  unfold invalidateJWS
  split
  · exact keeps_refl s
  split
  · exact keeps_refl s
  split
  · exact keeps_refl s
  exact keeps_invalidating Γ ctx req.tokenHash req.creator s

theorem keeps_expireToken (ctx : Ctx) (record : JWSTokenRecord) : Eff.Respects Keeps (expireToken Γ ctx record) := by
  unfold expireToken
  split
  · exact keeps_refl
  split
  · exact keeps_refl
  split
  · exact keeps_refl
  exact Eff.Respects.bind keeps_trans (keeps_invalidating Γ ctx _ _).attempt fun _ => keeps_refl

theorem keeps_endBlocker (ctx : Ctx) : Eff.Respects Keeps (endBlocker Γ ctx) := by
  have hl : Eff.Respects Keeps (checkAndUpdateExpiredTokens Γ ctx) :=
    Eff.Respects.bind keeps_trans keeps_refl fun s =>
      Eff.Respects.forEach keeps_refl keeps_trans (fun e => keeps_expireToken Γ ctx e.2) s.tokens.entries
  exact Eff.Respects.bind keeps_trans hl.attempt fun _ => keeps_refl

theorem keeps_step (s : State) (i : Input) : Keeps s (step Γ Λ eod s i) := by
  cases i with
  | tx ctx tx rest => exact (keeps_anteHandle Γ Λ eod ctx tx rest).commit keeps_refl s
  | invalidate ctx req => exact (keeps_invalidateJWS Γ ctx req).commit keeps_refl s
  | endBlock ctx => exact (keeps_endBlocker Γ ctx).commit keeps_refl s

theorem keeps_run (s : State) (inputs : List Input) : Keeps s (Run.run (step Γ Λ eod) s inputs) := by
  induction inputs generalizing s with
  | nil => exact keeps_refl s
  | cons i rest ih => exact keeps_trans (keeps_step Γ Λ eod s i) (ih _)

theorem not_ok_of_invalidated {s : State} {t : Bytes} (h : s.Invalidated t) (ctx : Ctx) (did account : Bytes)
    (issuedAt expiresAt : Time) (s' : State) :
    ¬(storeOrUpdateJWSToken Γ ctx t did account issuedAt expiresAt).Succeeds s () s' := by
  obtain ⟨r, hr, -, hs⟩ := h
  intro hok
  simp only [Eff.Succeeds, storeOrUpdateJWSToken, hr] at hok
  rw [if_pos (by rw [hs]; decide)] at hok
  cases hok

end RevocationAux

open RevocationAux

theorem run_wellFormed {s₀ : State} (h : s₀.WellFormed) (inputs : List Input) :
    (Run.run (step Γ Λ eod) s₀ inputs).WellFormed :=
  (keeps_run Γ Λ eod s₀ inputs h).1

theorem run_invalidated {s₀ : State} (hwf : s₀.WellFormed) {t : Bytes} (h : s₀.Invalidated t) (inputs : List Input) :
    (Run.run (step Γ Λ eod) s₀ inputs).Invalidated t := by
  obtain ⟨r, hr, hb, hs⟩ := h
  obtain ⟨r', hr', hb', hs'⟩ := (keeps_run Γ Λ eod s₀ inputs hwf).2 _ r hr
  exact ⟨r', hr', hb'.trans hb, hs' hs⟩

/-- In every run whose transactions spell their tokens as the records of the same token do, an invalidated token is
never accepted again, in whatever spelling. -/
theorem invalidation_permanent {s₀ : State} (hwf : s₀.WellFormed) {inputs : List Input}
    (h : Run.AllSteps (step Γ Λ eod) SpelledAsStored s₀ inputs) : InvalidationPermanent Γ Λ eod s₀ inputs := by
  rintro pre mid post ctx tx rest rfl t u hin htx hsame ⟨auth, s', -, hok⟩
  have hsp : SpelledAsStored (Run.run (step Γ Λ eod) s₀ (pre ++ mid)) (.tx ctx tx rest) :=
    ((Run.allSteps_append _).1 h).2.1
  have hin' : (Run.run (step Γ Λ eod) s₀ (pre ++ mid)).Invalidated t := by
    rw [Run.run_append]
    exact run_invalidated Γ Λ eod (run_wellFormed Γ Λ eod hwf pre) hin mid
  obtain ⟨r, hr, hb, hs⟩ := hin'
  have hu : r.bearerToken = u :=
    hsp u (Option.mem_def.2 htx) (_, r) ((mem_entries _).2 hr) (by rw [hb, hsame])
  subst hu
  exact not_ok_of_invalidated Γ ⟨r, hb ▸ hr, rfl, hs⟩ ctx _ _ _ _ s' hok

/-! ### A token in two spellings -/

namespace Respelled

def token : Bytes := str "eyJhbGciOiJFUzI1NksifQ.eyJpc3MiOiJkaWQ6a2V5OnoifQ.c2ln"

def spacedToken : Bytes := str " " ++ token

def account : Bytes := str "vera1worker"

def did : Bytes := str "did:key:z"

def sdk : Sdk where
  accAddressFromBech32 a := if a = account then .ok [1] else .error (str "decoding bech32 failed")
  accAddressString _ := account
  getFromBech32 a _ := if a = account then .ok [1] else .error (str "decoding bech32 failed")
  verifyAddressFormat _ := .ok ()
  lengthPrefixed bz := if bz.length ≤ 255 then some (UInt8.ofNat bz.length :: bz) else none

def claims : BearerToken := ⟨did, [], account, 1000, 2000⟩

def jws : Jws where
  KeyType := Unit
  PubKey := Unit
  Algorithm := Unit
  parseSigned t := if t = token then .ok (str "payload") else .error (str "compact JWS format must have three parts")
  unmarshalMembers _ := .ok [str "iss", str "iat", str "exp"]
  unmarshalBearerToken _ := .ok claims
  unmarshalProviderToken _ := .error (str "invalid character")
  isValidDID _ := .ok ()
  decodeDIDKey _ := .ok ([2], ())
  bytesToPubKey _ _ := .ok ()
  secpToECDSA _ := some ()
  es256k := ()
  algorithmsForKey _ := .ok [()]
  verify t _ _ := if t = token then .ok () else .error (str "could not verify message")

def genesis : State := ⟨.empty, .empty, .empty, ⟨false, false, false⟩, ⟨[]⟩⟩

def ctx : Ctx := { blockTime := Time.ofUnix 1500 }

/-- A transaction of the account with a bearer token. -/
def tx (bearerToken : Bytes) : Tx := ⟨some [.jws bearerToken], [some account], none⟩

/-- The token is used and then invalidated by its account. -/
def usedThenInvalidated : List Input :=
  [.tx ctx (tx token) fun _ => .ok (), .invalidate ctx ⟨account, hashJWSToken token⟩]

theorem genesis_wellFormed : genesis.WellFormed := by
  intro k r h
  cases h

def invalidatedRecord : JWSTokenRecord :=
  (newRecord ctx token did account (Time.ofUnix 1000) (Time.ofUnix 2000)).withStatus .invalid ctx.blockTime account

theorem invalidated : (Run.run (step sdk jws ⟨true⟩) genesis usedThenInvalidated).Invalidated token :=
  ⟨invalidatedRecord, by decide +kernel, by decide +kernel, by decide +kernel⟩

end Respelled

open Respelled in
/-- The invalidated token passes when a space stands before it. -/
theorem invalidation_permanent_false :
    ∃ (Γ : Sdk) (Λ : Jws) (eod : ExtensionOptionsDecorator) (s₀ : State) (inputs : List Input),
      s₀.WellFormed ∧ ¬InvalidationPermanent Γ Λ eod s₀ inputs := by
  refine ⟨sdk, jws, ⟨true⟩, genesis, usedThenInvalidated ++ [.tx ctx (tx spacedToken) fun _ => .ok ()],
    genesis_wellFormed, fun h => ?_⟩
  refine h usedThenInvalidated [] [] ctx (tx spacedToken) _ rfl token spacedToken invalidated rfl (by decide +kernel) ?_
  exact ⟨⟨[], did, account, claims⟩, _, by decide +kernel, ok_unit_of_isOk (by decide +kernel)⟩

open Respelled in
/-- The token used, invalidated and used again, always in one spelling: the last use is refused. -/
theorem invalidation_permanent_one_spelling :
    InvalidationPermanent sdk jws ⟨true⟩ genesis (usedThenInvalidated ++ [.tx ctx (tx token) fun _ => .ok ()]) :=
  invalidation_permanent sdk jws ⟨true⟩ genesis_wellFormed (by decide +kernel)

end Vera.Core
