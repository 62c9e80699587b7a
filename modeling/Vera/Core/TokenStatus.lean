import Vera.Core.Revocation

/-!
# The status of bearer tokens

A stored token starts as valid and can only become invalid: by a message of its account or under its issuer's DID, or by the
sweep at the end of a block once it has expired. The sweep ignores the errors of its updates; it still reaches every expired
token, since a record that could be stored once can be stored again with another status.
-/

namespace Vera.Core

open Eff KVStore List
open Bytes (str)

/-- A call on the stored tokens. A call that fails is undone. -/
inductive TokenCall where
  | storeOrUpdateJWSToken (ctx : Ctx) (bearerToken issuerDid authorizedAccount : Bytes) (issuedAt expiresAt : Time)
  | invalidateJWS (ctx : Ctx) (req : MsgInvalidateJWS)
  | checkAndUpdateExpiredTokens (ctx : Ctx)

namespace TokenCall

def ctx : TokenCall → Ctx
  | storeOrUpdateJWSToken ctx .. | invalidateJWS ctx _ | checkAndUpdateExpiredTokens ctx => ctx

def call (Γ : Sdk) : TokenCall → Eff State Error Unit
  | storeOrUpdateJWSToken ctx bearerToken issuerDid authorizedAccount issuedAt expiresAt =>
    Core.storeOrUpdateJWSToken Γ ctx bearerToken issuerDid authorizedAccount issuedAt expiresAt
  | invalidateJWS ctx req => Core.invalidateJWS Γ ctx req
  | checkAndUpdateExpiredTokens ctx => Core.checkAndUpdateExpiredTokens Γ ctx

end TokenCall

variable (Γ : Sdk)

def tokenStep (s : State) (c : TokenCall) : State := (c.call Γ).commit s

/-! ## What is claimed of a step -/

/-- A token whose expiry is set and not after a time. -/
def JWSTokenRecord.expiredBy (r : JWSTokenRecord) (blockTime : Time) : Bool :=
  !r.expiresAt.isZero && !r.expiresAt.after blockTime

/-- A record that took the place of another is of the same token, for the same issuer and account and with the same expiry, and
is invalid if the other is. -/
structure JWSTokenRecord.Follows (r' r : JWSTokenRecord) : Prop where
  bearerToken : r'.bearerToken = r.bearerToken
  issuerDid : r'.issuerDid = r.issuerDid
  authorizedAccount : r'.authorizedAccount = r.authorizedAccount
  expiresAt : r'.expiresAt = r.expiresAt
  status : r.status = .invalid → r'.status = .invalid

/-- The sweep invalidates the tokens that have expired and leaves the status of the others. -/
def Sweeps (s : State) : TokenCall → Prop
  | .checkAndUpdateExpiredTokens ctx =>
    (∀ k r', (tokenStep Γ s (.checkAndUpdateExpiredTokens ctx)).tokens.get k = some r' →
      (r'.expiredBy ctx.blockTime = true → r'.status = .invalid) ∧
      (r'.expiredBy ctx.blockTime = false → ∃ r, s.tokens.get k = some r ∧ r'.status = r.status)) ∧
    ∀ k r, s.tokens.get k = some r → ((tokenStep Γ s (.checkAndUpdateExpiredTokens ctx)).tokens.get k).isSome = true
  | _ => True

/-- A token is invalidated by its account or under the DID of its issuer. -/
def InvalidatesOwn (s : State) : TokenCall → Prop
  | .invalidateJWS ctx req => ((invalidateJWS Γ ctx req) s).1.isOk = true →
    ∃ r, s.tokens.get req.tokenHash = some r ∧ (req.creator = r.authorizedAccount ∨ ctx.extractedDID = some r.issuerDid)
  | _ => True

/-! ## Records that can be stored -/

/-- Whether a record can be stored: it passes the checks of `SetJWSToken`, and its index keys can be formed. -/
structure Storable (cfg : ChainConfig) (r : JWSTokenRecord) : Prop where
  tokenHash : r.tokenHash ≠ []
  issuerDid : r.issuerDid ≠ []
  account : (r.authorizedAccount ≠ [] ∧ ∃ a, Γ.accAddressFromBech32 r.authorizedAccount = .ok a) ∨
    r.authorizedAccount = [] ∧ cfg.ignoreBearerAuth = true
  marshalable : r.marshalable = true
  didKey : ∃ k, jwsTokenIndexKey Γ r.issuerDid r.tokenHash = .ok k
  accountKey : r.authorizedAccount ≠ [] → ∃ k, jwsTokenIndexKey Γ r.authorizedAccount r.tokenHash = .ok k

variable {Γ}

variable {s t : State} {u : Unit} {r : JWSTokenRecord} {cfg : ChainConfig} {blockTime : Time}

theorem checkAuthorizedAccount_ok {account : Bytes} : (checkAuthorizedAccount Γ account).Succeeds s u t ↔
      ((account ≠ [] ∧ ∃ a, Γ.accAddressFromBech32 account = .ok a) ∨ account = [] ∧ s.chainConfig.ignoreBearerAuth = true) ∧
        t = s := by
  unfold Eff.Succeeds checkAuthorizedAccount
  by_cases ha : account = []
  · by_cases hig : s.chainConfig.ignoreBearerAuth = true
    · simp [ha, hig, eq_comm (a := s)]
    · simp [ha, hig]
  · cases hr : Γ.accAddressFromBech32 account with
    | ok a => simp [ha, eq_comm (a := s)]
    | error e => simp [ha]

/-- A record that is stored: it can be stored, and it gets an entry for its issuer and one for its account, if it has one. -/
theorem setJWSToken_inv (h : (setJWSToken Γ r).Succeeds s u t) :
    (Storable Γ s.chainConfig r ∧ t.tokens = s.tokens.set r.tokenHash r ∧ t.chainConfig = s.chainConfig) ∧
      (∃ didKey, jwsTokenIndexKey Γ r.issuerDid r.tokenHash = .ok didKey ∧ t.byDID = s.byDID.set didKey [0x01]) ∧
      ((r.authorizedAccount = [] ∧ t.byAccount = s.byAccount) ∨ r.authorizedAccount ≠ [] ∧ ∃ accountKey,
        jwsTokenIndexKey Γ r.authorizedAccount r.tokenHash = .ok accountKey ∧
          t.byAccount = s.byAccount.set accountKey [0x01]) ∧ t.params = s.params := by
  unfold setJWSToken at h
  rw [require_bind_ok, require_bind_ok] at h
  obtain ⟨hh, hdi, hch⟩ := h
  obtain ⟨_, s₁, hcheck, hw⟩ := bind_ok.1 hch
  obtain ⟨hac, rfl⟩ := checkAuthorizedAccount_ok.1 hcheck
  rw [require_bind_ok, modify_bind_ok] at hw
  obtain ⟨hm, hind⟩ := hw
  obtain ⟨_, s₂, hin, hl⟩ := bind_ok.1 hind
  unfold indexByDID at hin
  rw [lift_bind_ok] at hin
  obtain ⟨didKey, hd, hs⟩ := hin
  rw [modify_ok] at hs
  subst hs
  unfold indexByAccount at hl
  split at hl
  · rename_i hg
    rw [lift_bind_ok] at hl
    obtain ⟨accountKey, ha, hs⟩ := hl
    rw [modify_ok] at hs
    subst hs
    exact ⟨⟨⟨hh, hdi, hac, hm, ⟨didKey, hd⟩, fun _ => ⟨accountKey, ha⟩⟩, rfl, rfl⟩,
      ⟨didKey, hd, rfl⟩, .inr ⟨hg, accountKey, ha, rfl⟩, rfl⟩
  · rename_i hg
    obtain ⟨-, rfl⟩ := pure_ok.1 hl
    exact ⟨⟨⟨hh, hdi, hac, hm, ⟨didKey, hd⟩, fun hne => absurd hne hg⟩, rfl, rfl⟩,
      ⟨didKey, hd, rfl⟩, .inl ⟨not_not.1 hg, rfl⟩, rfl⟩

theorem setJWSToken_ok (h : (setJWSToken Γ r).Succeeds s u t) :
    Storable Γ s.chainConfig r ∧ t.tokens = s.tokens.set r.tokenHash r ∧ t.chainConfig = s.chainConfig :=
  (setJWSToken_inv h).1

theorem setJWSToken_of_storable (h : Storable Γ s.chainConfig r) :
    ∃ t, (setJWSToken Γ r).Succeeds s () t ∧ t.tokens = s.tokens.set r.tokenHash r ∧ t.chainConfig = s.chainConfig := by
  suffices hs : ∃ t, (setJWSToken Γ r).Succeeds s () t by
    obtain ⟨t, ht⟩ := hs
    exact ⟨t, ht, (setJWSToken_ok ht).2⟩
  obtain ⟨didKey, hd⟩ := h.didKey
  have hcheck : (checkAuthorizedAccount Γ r.authorizedAccount).Succeeds s () s :=
    checkAuthorizedAccount_ok.2 ⟨h.account, rfl⟩
  unfold setJWSToken Eff.Succeeds
  rw [((require_ok (u := ())).2 ⟨h.tokenHash, rfl⟩).bind_eq, ((require_ok (u := ())).2 ⟨h.issuerDid, rfl⟩).bind_eq,
    hcheck.bind_eq, ((require_ok (u := ())).2 ⟨h.marshalable, rfl⟩).bind_eq, modify_bind]
  unfold indexByDID indexByAccount
  rw [hd]
  split
  · rename_i hg
    obtain ⟨accountKey, ha⟩ := h.accountKey hg
    rw [ha]
    exact ⟨_, rfl⟩
  · exact ⟨_, rfl⟩

theorem Storable.invalidated (h : Storable Γ cfg r) (hno : blockTime.marshalable = true) (invalidatedBy : Bytes) :
    Storable Γ cfg (r.withStatus .invalid blockTime invalidatedBy) := by
  refine ⟨h.tokenHash, h.issuerDid, h.account, ?_, h.didKey, h.accountKey⟩
  have hm := h.marshalable
  unfold JWSTokenRecord.marshalable at hm ⊢
  simp only [Bool.and_eq_true] at hm ⊢
  exact ⟨hm.1, hno⟩

theorem JWSTokenRecord.Follows.refl (r : JWSTokenRecord) : r.Follows r := ⟨rfl, rfl, rfl, rfl, id⟩

theorem JWSTokenRecord.Follows.trans {r' r'' : JWSTokenRecord} (h' : r''.Follows r') (h : r'.Follows r) : r''.Follows r :=
  ⟨h'.bearerToken.trans h.bearerToken, h'.issuerDid.trans h.issuerDid, h'.authorizedAccount.trans h.authorizedAccount,
    h'.expiresAt.trans h.expiresAt, fun hs => h'.status (h.status hs)⟩

theorem JWSTokenRecord.used_follows (r : JWSTokenRecord) (blockTime : Time) : (r.used blockTime).Follows r :=
  ⟨rfl, rfl, rfl, rfl, id⟩

theorem JWSTokenRecord.invalidated_follows (r : JWSTokenRecord) (blockTime : Time) (invalidatedBy : Bytes) :
    (r.withStatus .invalid blockTime invalidatedBy).Follows r :=
  ⟨rfl, rfl, rfl, rfl, fun _ => rfl⟩

/-! ## What a call does to the records -/

variable (Γ)

/-- Every record is stored under its own hash and can be stored again. -/
def State.Sound (s : State) : Prop := ∀ k r, s.tokens.get k = some r → r.tokenHash = k ∧ Storable Γ s.chainConfig r

/-- The records stay sound, and each is followed by the one in its place. -/
structure Moves (s t : State) : Prop where
  sound : t.Sound Γ
  follows : ∀ k r, s.tokens.get k = some r → ∃ r', t.tokens.get k = some r' ∧ r'.Follows r

section Calls

variable {Γ} {s t : State} {ctx : Ctx}

theorem Moves.refl (h : s.Sound Γ) : Moves Γ s s := ⟨h, fun _ r hr => ⟨r, hr, .refl r⟩⟩

variable {r' r : JWSTokenRecord} {tokenHash : Bytes} {f : JWSTokenRecord → JWSTokenRecord} {u : Unit}
  {req : MsgInvalidateJWS}

theorem Moves.set (h : s.Sound Γ) (hs : Storable Γ s.chainConfig r')
    (hf : ∀ r, s.tokens.get r'.tokenHash = some r → r'.Follows r) (ht : t.tokens = s.tokens.set r'.tokenHash r')
    (hcf : t.chainConfig = s.chainConfig) : Moves Γ s t := by
  refine ⟨?_, fun k r hr => ?_⟩
  · unfold State.Sound
    rw [ht, hcf]
    exact All.set h ⟨rfl, hs⟩
  · rw [ht, get_set]
    split
    · rename_i hk
      exact ⟨r', rfl, hf r (hk ▸ hr)⟩
    · exact ⟨r, hr, .refl r⟩

theorem foundJWSToken_ok : (foundJWSToken tokenHash).Succeeds s r t ↔ s.tokens.get tokenHash = some r ∧ t = s := by
  unfold Eff.Succeeds foundJWSToken
  cases hget : s.tokens.get tokenHash with
  | none => simp
  | some r' => simp [eq_comm (a := s)]

theorem update_sets {e : Error} (h : (do
      Eff.require (tokenHash ≠ []) e
      let record ← foundJWSToken tokenHash
      setJWSToken Γ (f record)).Succeeds s u t) :
    ∃ r, s.tokens.get tokenHash = some r ∧ (setJWSToken Γ (f r)).Succeeds s u t := by
  rw [require_bind_ok] at h
  obtain ⟨-, hrest⟩ := h
  obtain ⟨r, s₁, hf, hs⟩ := bind_ok.1 hrest
  obtain ⟨hget, rfl⟩ := foundJWSToken_ok.1 hf
  exact ⟨r, hget, hs⟩

theorem update_ok {e : Error} (h : (do
      Eff.require (tokenHash ≠ []) e
      let record ← foundJWSToken tokenHash
      setJWSToken Γ (f record)).Succeeds s u t) :
    ∃ r, s.tokens.get tokenHash = some r ∧ Storable Γ s.chainConfig (f r) ∧
      t.tokens = s.tokens.set (f r).tokenHash (f r) ∧ t.chainConfig = s.chainConfig := by
  obtain ⟨r, hget, hs⟩ := update_sets h
  exact ⟨r, hget, setJWSToken_ok hs⟩

theorem Moves.update (h : s.Sound Γ) (hget : s.tokens.get tokenHash = some r)
    (hs : Storable Γ s.chainConfig r') (hh : r'.tokenHash = r.tokenHash) (hf : r'.Follows r)
    (ht : t.tokens = s.tokens.set r'.tokenHash r') (hcf : t.chainConfig = s.chainConfig) : Moves Γ s t := by
  refine Moves.set h hs (fun r₁ hr₁ => ?_) ht hcf
  rw [hh, (h _ _ hget).1, hget] at hr₁
  obtain rfl := Option.some.inj hr₁
  exact hf

theorem storeOrUpdateJWSToken_moves (h : s.Sound Γ) {bearerToken issuerDid authorizedAccount : Bytes} {issuedAt expiresAt : Time}
    (hcall : (storeOrUpdateJWSToken Γ ctx bearerToken issuerDid authorizedAccount issuedAt expiresAt).Succeeds s u t) :
    Moves Γ s t := by
  unfold Eff.Succeeds storeOrUpdateJWSToken at hcall
  split at hcall
  · split at hcall
    · cases hcall
    · obtain ⟨r, hget, hs, ht, hcf⟩ := update_ok (f := (·.used ctx.blockTime)) hcall
      exact Moves.update h hget hs rfl (r.used_follows ctx.blockTime) ht hcf
  · rename_i hnone
    split at hcall
    · cases hcall
    · obtain ⟨hs, ht, hcf⟩ := setJWSToken_ok hcall
      refine Moves.set h hs (fun r hr => ?_) ht hcf
      cases hnone.symm.trans hr

theorem invalidateJWS_ok (hcall : (invalidateJWS Γ ctx req).Succeeds s u t) :
    ∃ r, s.tokens.get req.tokenHash = some r ∧ mayInvalidate ctx req r = true ∧
      Storable Γ s.chainConfig (r.withStatus .invalid ctx.blockTime req.creator) ∧
      t.tokens = s.tokens.set r.tokenHash (r.withStatus .invalid ctx.blockTime req.creator) ∧ t.chainConfig = s.chainConfig := by
  unfold Eff.Succeeds invalidateJWS at hcall
  split at hcall
  · cases hcall
  · rename_i r hget
    split at hcall
    · cases hcall
    · split at hcall
      · cases hcall
      · rename_i hm
        obtain ⟨r', hget', hs⟩ := update_ok (f := (·.withStatus .invalid ctx.blockTime req.creator)) (mapErr_ok.1 hcall)
        obtain rfl : r = r' := Option.some.inj (hget.symm.trans hget')
        exact ⟨r, hget, by simpa using hm, hs⟩

theorem invalidateJWS_moves (h : s.Sound Γ) (hcall : (invalidateJWS Γ ctx req).Succeeds s u t) : Moves Γ s t := by
  obtain ⟨r, hget, -, hs, ht, hcf⟩ := invalidateJWS_ok hcall
  exact Moves.update h hget hs rfl (r.invalidated_follows ctx.blockTime req.creator) ht hcf

/-! ## The sweep -/

def JWSTokenRecord.swept (r : JWSTokenRecord) (blockTime : Time) : JWSTokenRecord :=
  if r.status ≠ .invalid ∧ r.expiredBy blockTime = true then r.withStatus .invalid blockTime [] else r

theorem JWSTokenRecord.swept_follows (r : JWSTokenRecord) (blockTime : Time) : (r.swept blockTime).Follows r := by
  unfold JWSTokenRecord.swept
  split
  · exact r.invalidated_follows blockTime []
  · exact .refl r

theorem updateJWSTokenStatus_of_sound (h : s.Sound Γ) (hno : ctx.blockTime.marshalable = true) {k : Bytes}
    (hget : s.tokens.get k = some r) (invalidatedBy : Bytes) :
    ∃ t, (updateJWSTokenStatus Γ ctx k .invalid invalidatedBy).Succeeds s () t ∧
      t.tokens = s.tokens.set k (r.withStatus .invalid ctx.blockTime invalidatedBy) ∧ t.chainConfig = s.chainConfig := by
  obtain ⟨hke, hs⟩ := h k r hget
  obtain ⟨t, hse, ht, hcf⟩ := setJWSToken_of_storable (hs.invalidated hno invalidatedBy)
  refine ⟨t, ?_, hke ▸ ht, hcf⟩
  unfold updateJWSTokenStatus Eff.Succeeds
  rw [((require_ok (u := ())).2 ⟨hke ▸ hs.tokenHash, rfl⟩).bind_eq, (foundJWSToken_ok.2 ⟨hget, rfl⟩).bind_eq]
  exact hse

/-- One turn of the sweep: the record it is given is stored as it is to be after the sweep. -/
theorem expireToken_of_sound (h : s.Sound Γ) (hno : ctx.blockTime.marshalable = true) {k : Bytes}
    (hget : s.tokens.get k = some r) :
    ∃ t, (expireToken Γ ctx r).Succeeds s () t ∧ t.Sound Γ ∧
      ∀ k', t.tokens.get k' = if k' = k then some (r.swept ctx.blockTime) else s.tokens.get k' := by
  have hke : r.swept ctx.blockTime = r →
      ∀ k', s.tokens.get k' = if k' = k then some (r.swept ctx.blockTime) else s.tokens.get k' := by
    intro hsame k'
    split
    · rename_i hk
      rw [hk, hget, hsame]
    · rfl
  unfold expireToken
  split
  · rename_i hin
    exact ⟨s, rfl, h, hke (if_neg fun hdue => hdue.1 hin)⟩
  split
  · rename_i hz
    exact ⟨s, rfl, h, hke (if_neg fun hdue => by simp [JWSTokenRecord.expiredBy, hz] at hdue)⟩
  split
  · rename_i ha
    exact ⟨s, rfl, h, hke (if_neg fun hdue => by simp [JWSTokenRecord.expiredBy, ha] at hdue)⟩
  · rename_i hv hz ha
    have hkey := (h k r hget).1
    obtain ⟨t, hu, ht, hcf⟩ := updateJWSTokenStatus_of_sound h hno hget []
    have hs : r.swept ctx.blockTime = r.withStatus .invalid ctx.blockTime [] :=
      if_pos ⟨hv, by simp [JWSTokenRecord.expiredBy, hz, ha]⟩
    refine ⟨t, ?_, ?_, fun k' => ?_⟩
    · rw [hkey]
      exact bind_ok.2 ⟨_, t, hu.attempt, rfl⟩
    · refine (Moves.update h hget ((h k r hget).2.invalidated hno []) rfl
        (r.invalidated_follows ctx.blockTime []) ?_ hcf).sound
      rw [ht]
      exact congrArg (fun k => s.tokens.set k _) hkey.symm
    · rw [ht, get_set, hs]

theorem forEach_expireToken {entries : List (Bytes × JWSTokenRecord)} (h : s.Sound Γ) (hnow : ctx.blockTime.marshalable = true)
    (hno : (entries.map Prod.fst).Nodup) (hstored : ∀ e ∈ entries, s.tokens.get e.1 = some e.2) :
    ∃ t, (Eff.forEach entries fun e => expireToken Γ ctx e.2).Succeeds s () t ∧ t.Sound Γ ∧
      (∀ e ∈ entries, t.tokens.get e.1 = some (e.2.swept ctx.blockTime)) ∧
      ∀ k, k ∉ entries.map Prod.fst → t.tokens.get k = s.tokens.get k := by
  induction entries generalizing s with
  | nil => exact ⟨s, rfl, h, fun e he => (nomatch he), fun _ _ => rfl⟩
  | cons e rest ih =>
    obtain ⟨hf, hrest⟩ := nodup_cons.1 hno
    obtain ⟨s₁, htu, hs, hget⟩ := expireToken_of_sound h hnow (hstored e mem_cons_self)
    have hst : ∀ e' ∈ rest, s₁.tokens.get e'.1 = some e'.2 := by
      intro e' he'
      have hne : e'.1 ≠ e.1 := fun heq => hf (heq ▸ mem_map_of_mem he')
      rw [hget, if_neg hne]
      exact hstored e' (mem_cons_of_mem _ he')
    obtain ⟨t, hl, ht, hsw, hot⟩ := ih hs hrest hst
    refine ⟨t, bind_ok.2 ⟨(), s₁, htu, hl⟩, ht, fun e' he' => ?_, fun k hk => ?_⟩
    · rcases mem_cons.1 he' with rfl | hmem
      · rw [hot e'.1 hf, hget, if_pos rfl]
      · exact hsw e' hmem
    · have hne : k ≠ e.1 := by
        rintro rfl
        exact hk mem_cons_self
      rw [hot k fun hmem => hk (mem_cons_of_mem _ hmem), hget, if_neg hne]

theorem checkAndUpdateExpiredTokens_of_sound (h : s.Sound Γ) (hno : ctx.blockTime.marshalable = true) :
    ∃ t, (checkAndUpdateExpiredTokens Γ ctx).Succeeds s () t ∧ t.Sound Γ ∧
      ∀ k, t.tokens.get k = (s.tokens.get k).map fun r => r.swept ctx.blockTime := by
  obtain ⟨t, hl, ht, hs, hot⟩ := forEach_expireToken h hno s.tokens.nodup_keys (fun e he => (mem_entries s.tokens).1 he)
  refine ⟨t, read_bind_ok.2 hl, ht, fun k => ?_⟩
  cases hget : s.tokens.get k with
  | some r => exact hs (k, r) ((mem_entries s.tokens).2 hget)
  | none =>
    rw [hot k fun hmem => ?_, hget]
    · rfl
    · obtain ⟨⟨k', r⟩, he, rfl⟩ := mem_map.1 hmem
      cases hget.symm.trans ((mem_entries s.tokens).1 he)

/-! ## Runs -/

theorem tokenStep_moves (h : s.Sound Γ) {c : TokenCall} (hno : c.ctx.blockTime.marshalable = true) :
    Moves Γ s (tokenStep Γ s c) ∧ Sweeps Γ s c ∧ InvalidatesOwn Γ s c := by
  cases c with
  | storeOrUpdateJWSToken ctx bearerToken issuerDid authorizedAccount issuedAt expiresAt =>
    refine ⟨?_, trivial, trivial⟩
    exact commit_of_ok (P := Moves Γ s) (.refl h) fun u t hcall => storeOrUpdateJWSToken_moves h hcall
  | invalidateJWS ctx req =>
    refine ⟨commit_of_ok (P := Moves Γ s) (.refl h) fun u t hcall => invalidateJWS_moves h hcall, trivial, ?_⟩
    intro hok
    obtain ⟨r, hget, hma, -⟩ := invalidateJWS_ok (ok_unit_of_isOk hok)
    refine ⟨r, hget, ?_⟩
    unfold mayInvalidate at hma
    rcases Bool.or_eq_true_iff.1 hma with hd | hcr
    · cases hext : ctx.extractedDID with
      | none => simp [hext] at hd
      | some did =>
        simp only [hext, Option.getD_some, Bool.and_eq_true, beq_iff_eq] at hd
        exact .inr (congrArg some hd.2)
    · exact .inl (beq_iff_eq.1 hcr)
  | checkAndUpdateExpiredTokens ctx =>
    obtain ⟨t, hcall, hso, hget⟩ :=
      checkAndUpdateExpiredTokens_of_sound h (show ctx.blockTime.marshalable = true from hno)
    have hs : tokenStep Γ s (.checkAndUpdateExpiredTokens ctx) = t := hcall.commit_eq
    have hm : Moves Γ s t := by
      refine ⟨hso, fun k r hr => ⟨r.swept ctx.blockTime, ?_, r.swept_follows ctx.blockTime⟩⟩
      rw [hget, hr]
      rfl
    refine ⟨hs ▸ hm, ⟨fun k r' hr' => ?_, fun k r hr => ?_⟩, trivial⟩
    · rw [hs, hget] at hr'
      obtain ⟨r, hr, rfl⟩ := Option.map_eq_some_iff.1 hr'
      have hexpired : (r.swept ctx.blockTime).expiredBy ctx.blockTime = r.expiredBy ctx.blockTime := by
        unfold JWSTokenRecord.expiredBy
        rw [(r.swept_follows ctx.blockTime).expiresAt]
      rw [hexpired]
      unfold JWSTokenRecord.swept
      refine ⟨fun hdue => ?_, fun hnot => ⟨r, hr, ?_⟩⟩
      · by_cases hin : r.status = .invalid
        · rw [if_neg fun hb => hb.1 hin]
          exact hin
        · rw [if_pos ⟨hin, hdue⟩]
          rfl
      · rw [if_neg fun hb => by rw [hnot] at hb; exact absurd hb.2 Bool.false_ne_true]
    · obtain ⟨r', hr', -⟩ := hm.follows k r hr
      rw [hs, hr']
      rfl

theorem tokenRun_moves (h : s.Sound Γ) {calls : List TokenCall} (hno : ∀ c ∈ calls, c.ctx.blockTime.marshalable = true) :
    Moves Γ s (Run.run (tokenStep Γ) s calls) := by
  induction calls generalizing s with
  | nil => exact .refl h
  | cons c rest ih =>
    have hs := (tokenStep_moves h (hno c mem_cons_self)).1
    have hrest := ih hs.sound fun c' hc' => hno c' (mem_cons_of_mem _ hc')
    refine ⟨hrest.sound, fun k r hr => ?_⟩
    obtain ⟨r', hr', hf⟩ := hs.follows k r hr
    obtain ⟨r'', hr'', hf'⟩ := hrest.follows k r' hr'
    exact ⟨r'', hr'', hf'.trans hf⟩

end Calls

/-- In every run from a store without tokens, with block times that can be stored: a record once invalid stays so, with its
issuer, account and expiry; every sweep invalidates the expired tokens and leaves the status of the others; and every token
is invalidated by its account or under the DID of its issuer. -/
theorem token_status_monotone (Γ : Sdk) (s₀ : State) (h₀ : s₀.tokens = KVStore.empty) (calls : List TokenCall)
    (hnow : ∀ c ∈ calls, c.ctx.blockTime.marshalable = true) :
    (∀ pre post, calls = pre ++ post → ∀ k r, (Run.run (tokenStep Γ) s₀ pre).tokens.get k = some r → r.status = .invalid →
      ∃ r', (Run.run (tokenStep Γ) s₀ calls).tokens.get k = some r' ∧ r'.status = .invalid ∧ r'.issuerDid = r.issuerDid ∧
        r'.authorizedAccount = r.authorizedAccount ∧ r'.expiresAt = r.expiresAt) ∧
    Run.AllSteps (tokenStep Γ) (Sweeps Γ) s₀ calls ∧ Run.AllSteps (tokenStep Γ) (InvalidatesOwn Γ) s₀ calls := by
  have hso : s₀.Sound Γ := by
    intro k r hr
    rw [h₀] at hr
    cases hr
  have ht := Run.allSteps_of_forall (tokenStep Γ) hnow s₀
  refine ⟨?_, ?_, ?_⟩
  · rintro pre post rfl k r hr hin
    have hpr := tokenRun_moves hso fun c hc => hnow c (mem_append_left _ hc)
    have hp := tokenRun_moves hpr.sound fun c hc => hnow c (mem_append_right _ hc)
    obtain ⟨r', hr', hf⟩ := hp.follows k r hr
    rw [Run.run_append]
    exact ⟨r', hr', hf.status hin, hf.issuerDid, hf.authorizedAccount, hf.expiresAt⟩
  · exact Run.allSteps_induction (tokenStep Γ) (I := State.Sound Γ)
      (fun s c hs hc => ⟨(tokenStep_moves hs hc).1.sound, (tokenStep_moves hs hc).2.1⟩) ht hso
  · exact Run.allSteps_induction (tokenStep Γ) (I := State.Sound Γ)
      (fun s c hs hc => ⟨(tokenStep_moves hs hc).1.sound, (tokenStep_moves hs hc).2.2⟩) ht hso

open Respelled in
/-- A token is used, then the sweep finds it expired. -/
def usedThenSwept : List TokenCall :=
  [.storeOrUpdateJWSToken ctx token did account (Time.ofUnix 1000) (Time.ofUnix 2000),
    .checkAndUpdateExpiredTokens { blockTime := Time.ofUnix 1800 }, .checkAndUpdateExpiredTokens { blockTime := Time.ofUnix 2000 }]

open Respelled in
/-- The token is valid after the first sweep and invalid after the second, at the time it expires. -/
theorem token_status_monotone_swept : Run.AllSteps (tokenStep sdk) (Sweeps sdk) genesis usedThenSwept ∧
      ((Run.run (tokenStep sdk) genesis (usedThenSwept.take 2)).tokens.get (hashJWSToken token)).map (·.status) =
        some .valid ∧
      ((Run.run (tokenStep sdk) genesis usedThenSwept).tokens.get (hashJWSToken token)).map (·.status) = some .invalid := by
  refine ⟨(token_status_monotone sdk genesis rfl usedThenSwept ?_).2.1, ?_, ?_⟩
  all_goals decide +kernel

end Vera.Core
