import Vera.Feegrant.Keeper

/-!
# Grants to DIDs

What the calls on the grants to DIDs do to the grants and to the queue (`x/feegrant/keeper/keeper.go`). A fee asked of a grant
ends in one of three ways, whichever call asks: the grant is deleted with its entry in the queue, it is stored with what is
left of its allowance, or nothing happens. The three ways of asking (`UseGrantedFees`, `UseGrantedFeesByDID`, and the loop of
`UseFirstAvailableDIDGrant`) differ only in what they do with the error.
-/

namespace Vera.Feegrant

open Eff KVStore
open Bytes (str)

variable {Γ : Env}

/-! ## Keys -/

variable {granter did did' : KeyPart} {a : Allowance Γ}

theorem feeAllowanceByDIDKey_inj {granter' : KeyPart}
    (h : feeAllowanceByDIDKey granter did = feeAllowanceByDIDKey granter' did') : granter = granter' ∧ did = did' :=
  key_inj (u := [0x02]) (v := [0x02]) rfl h

theorem scanByDID_isPrefixOf :
    (feeAllowanceScanByDID did).isPrefixOf (feeAllowanceByDIDKey granter did') = true ↔ did = did' := by
  rw [List.isPrefixOf_iff_prefix]
  constructor
  · rintro ⟨rest, hrest⟩
    have hd := parsePart_append (ε := Unit) [0x02] rest did
    have hd' := parsePart_append (ε := Unit) [0x02] granter.lengthPrefixed did'
    have hke : [0x02] ++ did.lengthPrefixed ++ rest = [0x02] ++ did'.lengthPrefixed ++ granter.lengthPrefixed := hrest
    rw [hke, hd'] at hd
    exact (Prod.mk.inj (Outcome.ok.inj hd)).1.symm
  · rintro rfl
    exact List.prefix_append _ _

/-! ## The store after a call -/

def didGrantOf (granter did : KeyPart) (a : Allowance Γ) : Grant Γ := ⟨Γ.accAddressString granter.bytes, did.bytes, a⟩

def Allowance.expiry (a : Allowance Γ) : Option Time :=
  match a.expiresAt with
  | .ok exp => exp
  | _ => none

theorem Allowance.expiry_eq {exp : Option Time} (h : a.expiresAt = .ok exp) : a.expiry = exp := by
  rw [Allowance.expiry, h]

namespace Book

variable (b : Book Γ) (granter did : KeyPart)

/-- The queue without the entry of a grant to a DID. -/
def didDequeue : Option Time → KVStore Bytes Unit
  | none => b.queue
  | some exp => b.queue.delete (didQueueKey Γ exp granter did)

/-- The queue with an entry of a grant to a DID. -/
def didEnqueue : Option Time → KVStore Bytes Unit
  | none => b.queue
  | some exp => b.queue.set (didQueueKey Γ exp granter did) ()

/-- The grants to DIDs with one deleted that expires at a time, if at all. -/
def dropDID (exp : Option Time) : Book Γ :=
  ⟨b.grants.delete (feeAllowanceByDIDKey granter did), b.didDequeue granter did exp⟩

/-- The grants to DIDs with one stored, which takes the place of one that expired at `old`. -/
def putDID (a : Allowance Γ) (old new : Option Time) : Book Γ where
  grants := b.grants.set (feeAllowanceByDIDKey granter did) (didGrantOf granter did a)
  queue := if old = new then b.queue else { b with queue := b.didDequeue granter did old }.didEnqueue granter did new

end Book

/-- The state with other grants to DIDs and more events. -/
def State.onDID (s : State Γ) (b : Book Γ) (events : List Event) : State Γ :=
  { s with didBook := b, events := s.events ++ events }

@[simp] theorem State.onDID_didBook (s : State Γ) (b : Book Γ) (events : List Event) : (s.onDID b events).didBook = b := rfl

theorem State.onDID_onDID (s : State Γ) (b b' : Book Γ) (events events' : List Event) :
    (s.onDID b events).onDID b' events' = s.onDID b' (events ++ events') := by
  simp [State.onDID, List.append_assoc]

theorem State.onDID_self (s : State Γ) : s.onDID s.didBook [] = s := by
  simp [State.onDID]

section Calls

variable {granter did : KeyPart} {s t : State Γ} {a : Allowance Γ} {grant : Grant Γ} {u : Unit}

theorem newGrant_did (hm : a.marshalable = true) : newGrant granter did.bytes a = .ok (didGrantOf granter did a) := by
  rw [newGrant, if_pos hm]
  rfl

theorem getDIDGrant_ok : (getDIDGrant granter did).Succeeds s grant t ↔ s.didGrant granter did = some grant ∧ t = s := by
  unfold getDIDGrant
  rw [query_ok, Outcome.ofOption_eq_ok]

theorem getDIDAllowance_ok : (getDIDAllowance granter did).Succeeds s a t ↔
    (∃ grant, s.didGrant granter did = some grant ∧ grant.allowance = a) ∧ t = s := by
  unfold getDIDAllowance
  rw [bind_ok]
  constructor
  · rintro ⟨grant, s₁, hget, hp⟩
    obtain ⟨hg, rfl⟩ := getDIDGrant_ok.1 hget
    obtain ⟨rfl, rfl⟩ := pure_ok.1 hp
    exact ⟨⟨grant, hg, rfl⟩, rfl⟩
  · rintro ⟨⟨grant, hg, rfl⟩, rfl⟩
    exact ⟨grant, t, getDIDGrant_ok.2 ⟨hg, rfl⟩, pure_ok.2 ⟨rfl, rfl⟩⟩

theorem getDIDAllowance_of_grant (h : s.didGrant granter did = some (didGrantOf granter did a)) :
    (getDIDAllowance granter did).Succeeds s a s := getDIDAllowance_ok.2 ⟨⟨_, h, rfl⟩, rfl⟩

theorem getDIDAllowance_of_none (h : s.didGrant granter did = none) :
    getDIDAllowance granter did s = (.err ⟨.notFound, str "fee-grant not found for DID"⟩, s) := by
  unfold getDIDAllowance getDIDGrant
  refine bind_of_err ?_
  rw [Eff.query, h]
  rfl

theorem requeueDIDAllowance_apply (old new : Option Time) : requeueDIDAllowance granter did old new s =
      (.ok (), s.onDID { s.didBook with
        queue := if old = new then s.didBook.queue
          else { s.didBook with queue := s.didBook.didDequeue granter did old }.didEnqueue granter did new } []) := by
  unfold requeueDIDAllowance
  cases old with
  | none =>
    cases new with
    | none => simp [State.onDID, pure]
    | some exp => simp [State.onDID, addToDIDFeeAllowanceQueue, modifyDIDBook, Eff.modify, Book.didEnqueue, Book.didDequeue]
  | some old =>
    cases new with
    | none =>
      simp [State.onDID, pure, bind, Eff.andThen, removeFromDIDFeeAllowanceQueue, modifyDIDBook, Eff.modify, Book.didEnqueue,
        Book.didDequeue]
    | some exp =>
      by_cases h : old = exp
      · simp [h, State.onDID, pure]
      · simp [h, Ne.symm h, State.onDID, bind, Eff.andThen, addToDIDFeeAllowanceQueue, removeFromDIDFeeAllowanceQueue,
          modifyDIDBook, Eff.modify, Book.didEnqueue, Book.didDequeue]

theorem setDIDGrant_bind (event : Event) : (do
      setDIDGrant granter did (didGrantOf granter did a)
      emit event : M Γ Unit) s =
    (.ok (), s.onDID { s.didBook with
      grants := s.didBook.grants.set (feeAllowanceByDIDKey granter did) (didGrantOf granter did a) } [event]) := rfl

/-- `UpdateDIDAllowance` on a grant that is there: it fails only if the allowance cannot be stored. -/
theorem updateDIDAllowance_apply (hg : s.didGrant granter did = some grant) {old new : Option Time}
    (hold : grant.allowance.expiresAt = .ok old) (hnew : a.expiresAt = .ok new) :
    updateDIDAllowance granter did a s = if a.marshalable then
        (.ok (), s.onDID (s.didBook.putDID granter did a old new)
          [.updateDIDFeeGrant (Γ.accAddressString granter.bytes) did.bytes])
      else (.err ⟨.plain, []⟩, s) := by
  unfold updateDIDAllowance
  rw [(getDIDGrant_ok.2 ⟨hg, rfl⟩).bind_eq, (lift_ok.2 ⟨hold, rfl⟩).bind_eq, (lift_ok.2 ⟨hnew, rfl⟩).bind_eq]
  split
  · rename_i hm
    rw [(lift_ok.2 ⟨newGrant_did hm, rfl⟩).bind_eq,
      (show (requeueDIDAllowance granter did old new).Succeeds s () _ from requeueDIDAllowance_apply old new).bind_eq,
      setDIDGrant_bind, State.onDID_onDID]
    rfl
  · rename_i hm
    refine bind_of_err ?_
    rw [newGrant, if_neg hm]
    rfl

theorem updateDIDAllowance_inv (h : (updateDIDAllowance granter did a).Succeeds s u t) :
    ∃ grant old new, s.didGrant granter did = some grant ∧ grant.allowance.expiresAt = .ok old ∧ a.expiresAt = .ok new ∧
      a.marshalable = true ∧ ∃ events, t = s.onDID (s.didBook.putDID granter did a old new) events := by
  have ha := h
  unfold updateDIDAllowance at h
  obtain ⟨grant, s₁, hget, hrest⟩ := bind_ok.1 h
  obtain ⟨hg, rfl⟩ := getDIDGrant_ok.1 hget
  rw [lift_bind_ok] at hrest
  obtain ⟨old, hold, hrest⟩ := hrest
  rw [lift_bind_ok] at hrest
  obtain ⟨new, hnew, -⟩ := hrest
  unfold Eff.Succeeds at ha
  rw [updateDIDAllowance_apply hg hold hnew] at ha
  split at ha
  · rename_i hm
    exact ⟨grant, old, new, hg, hold, hnew, hm, _, (congrArg Prod.snd ha).symm⟩
  · cases congrArg Prod.fst ha

theorem updateDIDAllowance_of_not_ok (h : (updateDIDAllowance granter did a s).1.isOk = false) :
    (updateDIDAllowance granter did a s).2 = s := by
  cases hg : s.didGrant granter did with
  | none =>
    have hget : getDIDGrant granter did s = (.err ⟨.notFound, str "fee-grant not found for DID"⟩, s) := by
      rw [getDIDGrant, Eff.query, hg]
      rfl
    unfold updateDIDAllowance
    rw [bind_of_err hget]
  | some grant =>
    have hl : ∀ {α β : Type} {x : Outcome Error α} {f : α → M Γ β}, (∀ v, x ≠ .ok v) → ((Eff.lift x >>= f) s).2 = s := by
      intro α β x f hx
      cases x with
      | ok v => exact absurd rfl (hx v)
      | err e => rfl
      | panic m => rfl
    by_cases hold : ∃ old, grant.allowance.expiresAt = .ok old
    · by_cases hnew : ∃ new, a.expiresAt = .ok new
      · obtain ⟨old, hold⟩ := hold
        obtain ⟨new, hnew⟩ := hnew
        rw [updateDIDAllowance_apply hg hold hnew] at h ⊢
        split at h
        · cases h
        · rename_i hm
          rw [if_neg hm]
      · obtain ⟨old, hold⟩ := hold
        unfold updateDIDAllowance
        rw [(getDIDGrant_ok.2 ⟨hg, rfl⟩).bind_eq, (lift_ok.2 ⟨hold, rfl⟩).bind_eq]
        exact hl fun v hv => hnew ⟨v, hv⟩
    · unfold updateDIDAllowance
      rw [(getDIDGrant_ok.2 ⟨hg, rfl⟩).bind_eq]
      exact hl fun v hv => hold ⟨v, hv⟩

theorem revokeDIDAllowance_apply (hg : s.didGrant granter did = some grant) {exp : Option Time}
    (hexp : grant.allowance.expiresAt = .ok exp) :
    revokeDIDAllowance granter did s = (.ok (), s.onDID (s.didBook.dropDID granter did exp)
        [.revokeDIDFeeGrant (Γ.accAddressString granter.bytes) did.bytes]) := by
  unfold revokeDIDAllowance
  rw [(getDIDAllowance_ok.2 ⟨⟨grant, hg, rfl⟩, rfl⟩).bind_eq, modifyDIDBook, modify_bind, (lift_ok.2 ⟨hexp, rfl⟩).bind_eq]
  cases exp <;> rfl

theorem revokeDIDAllowance_of_none (h : s.didGrant granter did = none) :
    revokeDIDAllowance granter did s = (.err ⟨.notFound, str "fee-grant not found for DID"⟩, s) := by
  unfold revokeDIDAllowance
  exact bind_of_err (getDIDAllowance_of_none h)

theorem grantDIDAllowance_inv {ctx : Ctx} (h : (grantDIDAllowance ctx granter did a).Succeeds s u t) :
    ∃ exp, s.didGrant granter did = none ∧ a.expiresAt = .ok exp ∧ a.marshalable = true ∧
      ∃ events, t = s.onDID (s.didBook.putDID granter did a none exp) events := by
  unfold grantDIDAllowance requireNotPast at h
  rw [read_bind_ok, require_bind_ok, lift_bind_ok] at h
  obtain ⟨hnone, exp, hexp, hrest⟩ := h
  rw [require_bind_ok] at hrest
  have hs : ∀ s₁ : State Γ, (do
      let grant ← Eff.lift (newGrant granter did.bytes a)
      setDIDGrant granter did grant
      emit (.setDIDFeeGrant grant.granter grant.grantee) : M Γ Unit).Succeeds s₁ u t →
      a.marshalable = true ∧ ∃ events, t = s₁.onDID { s₁.didBook with
        grants := s₁.didBook.grants.set (feeAllowanceByDIDKey granter did) (didGrantOf granter did a) } events := by
    intro s₁ h
    rw [lift_bind_ok] at h
    obtain ⟨grant, hg, hse⟩ := h
    have hm := (newGrant_eq_ok hg).1
    rw [newGrant_did hm] at hg
    obtain rfl := Outcome.ok.inj hg
    exact ⟨hm, _, (congrArg Prod.snd hse).symm⟩
  refine ⟨exp, Option.isNone_iff_eq_none.1 hnone, hexp, ?_⟩
  cases exp with
  | none => exact hs s hrest.2
  | some exp =>
    obtain ⟨_, s₁, hqu, hse⟩ := bind_ok.1 hrest.2
    obtain rfl := modify_ok.1 hqu
    exact hs _ hse

def SameForOthers (granter : KeyPart) (s t : State Γ) : Prop :=
  ∀ granter' did' : KeyPart, granter' ≠ granter → t.didGrant granter' did' = s.didGrant granter' did'

theorem updateDIDAllowance_others (granter did : KeyPart) (a : Allowance Γ) :
    (updateDIDAllowance granter did a).Respects (SameForOthers granter) := by
  intro s granter' did' hne
  cases hok : (updateDIDAllowance granter did a s).1.isOk with
  | false => rw [updateDIDAllowance_of_not_ok hok]
  | true =>
    obtain ⟨_, old, new, -, -, -, -, _, hb⟩ := updateDIDAllowance_inv (ok_unit_of_isOk hok)
    unfold State.didGrant
    rw [hb]
    exact get_set_of_ne _ _ fun hke => hne (feeAllowanceByDIDKey_inj hke).1

theorem expireDIDAllowance_others (ctx : Ctx) (granter did : KeyPart) :
    (expireDIDAllowance ctx granter did : M Γ Unit).Respects (SameForOthers granter) := by
  have hr : ∀ s : State Γ, SameForOthers granter s s := fun _ _ _ _ => rfl
  have ht : ∀ ⦃s t u : State Γ⦄, SameForOthers granter s t → SameForOthers granter t u → SameForOthers granter s u :=
    fun _ _ _ h₁ h₂ g d hne => (h₂ g d hne).trans (h₁ g d hne)
  unfold expireDIDAllowance
  refine Eff.Respects.bind ht (Eff.Respects.of_unchanged hr fun s => ?_) fun existing => ?_
  · unfold getDIDAllowance getDIDGrant
    rw [bind_pure_snd]
    rfl
  refine Eff.Respects.bind ht (Eff.Respects.of_unchanged hr fun s => rfl) fun r => ?_
  refine Eff.Respects.bind ht (updateDIDAllowance_others granter did _) fun _ => ?_
  intro s granter' did' _
  rfl

end Calls

/-! ## A fee asked of a grant -/

/-- Whether an answer lets the fee be paid: there is no error, and what is left of the allowance can be stored unless the grant
is to be removed. -/
def Verdict.usable (v : Verdict (Allowance Γ)) : Bool := v.err.isNone && (v.remove || v.allowance.marshalable)

/-- What is left of an allowance after its answer, if it is not removed. -/
def Verdict.leaves (a : Allowance Γ) (v : Verdict (Allowance Γ)) : Option (Allowance Γ) :=
  if v.remove then none else if v.usable then some v.allowance else some a

/-- The grants to DIDs after one of them gave its answer. -/
def Book.settle (b : Book Γ) (granter did : KeyPart) (a : Allowance Γ) (v : Verdict (Allowance Γ)) : Book Γ :=
  if v.remove then b.dropDID granter did a.expiry
  else if v.usable then { b with grants := b.grants.set (feeAllowanceByDIDKey granter did) (didGrantOf granter did v.allowance) }
  else b

theorem Book.get_settle {b : Book Γ}
    (hg : b.grants.get (feeAllowanceByDIDKey granter did) = some (didGrantOf granter did a)) (v : Verdict (Allowance Γ))
    (k : Bytes) :
    (b.settle granter did a v).grants.get k =
      if k = feeAllowanceByDIDKey granter did then (v.leaves a).map (didGrantOf granter did) else b.grants.get k := by
  unfold Book.settle Verdict.leaves
  split
  · exact get_delete _ _ _
  · split
    · exact get_set _ _ _ _
    · split
      · rename_i hk
        rw [hk, hg]
        rfl
      · rfl

theorem Allowance.expiresAt_of_accept (a : Allowance Γ) (blockTime : Time) (fee : Γ.Coins) (msgs : List Bytes)
    (h : (a.accept blockTime fee msgs).remove = true ∨ (a.accept blockTime fee msgs).err = none) :
    a.expiresAt = .ok a.expiry := by
  induction a with
  | basic a => rfl
  | periodic a => rfl
  | allowedMsg allowance allowedMessages ih =>
    refine ih ?_
    simp only [Allowance.accept] at h
    split at h
    · split at h
      · rename_i hke
        exact .inr hke.1
      · exact h
    · simp at h
  | emptyAllowedMsg allowedMessages =>
    simp only [Allowance.accept] at h
    split at h <;> simp at h

section Settle

variable {granter did : KeyPart} {s : State Γ} {grant : Grant Γ} (ctx : Ctx) (fee : Γ.Coins) (msgs : List Bytes)

/-- The loop over the grants to a DID settles the grant it tries, and goes on unless the fee can be paid. -/
theorem settleDIDGrant_apply (hg : s.didGrant granter did = some grant) (granterText : Bytes) :
    ∃ events, settleDIDGrant granter did granterText (grant.allowance.accept ctx.blockTime fee msgs) s =
      (.ok (if (grant.allowance.accept ctx.blockTime fee msgs).usable then some granter else none),
        s.onDID (s.didBook.settle granter did grant.allowance (grant.allowance.accept ctx.blockTime fee msgs)) events) := by
  have hexpi := grant.allowance.expiresAt_of_accept ctx.blockTime fee msgs
  have hsame := grant.allowance.accept_expiresAt ctx.blockTime fee msgs
  generalize grant.allowance.accept ctx.blockTime fee msgs = v at hexpi hsame
  obtain ⟨remove, err, allowance⟩ := v
  unfold settleDIDGrant Book.settle
  cases remove with
  | true =>
    have hr := revokeDIDAllowance_apply hg (hexpi (.inl rfl))
    rw [if_pos rfl, if_pos rfl, (show (revokeDIDAllowance granter did).Succeeds s () _ from hr).attempt.bind_eq]
    cases err with
    | some e => exact ⟨_, rfl⟩
    | none => exact ⟨_, by rw [← State.onDID_onDID]; rfl⟩
  | false =>
    cases err with
    | some e => exact ⟨[], congrArg (Prod.mk (Outcome.ok none)) s.onDID_self.symm⟩
    | none =>
      have hexp := hexpi (.inr rfl)
      have hu := updateDIDAllowance_apply hg hexp (hsame.trans hexp)
      cases hm : allowance.marshalable with
      | true =>
        rw [hm, if_pos rfl] at hu
        refine ⟨[.updateDIDFeeGrant (Γ.accAddressString granter.bytes) did.bytes] ++ [.useDIDFeeGrant granterText did.bytes], ?_⟩
        rw [if_neg Bool.false_ne_true, if_neg Bool.false_ne_true]
        dsimp only
        rw [(show (updateDIDAllowance granter did allowance).Succeeds s () _ from hu).attempt.bind_eq]
        simp only [Verdict.usable, hm, Option.isNone_none, Bool.or_true, Bool.and_true, if_true, Book.putDID]
        rw [← State.onDID_onDID]
        rfl
      | false =>
        rw [hm, if_neg Bool.false_ne_true] at hu
        refine ⟨[], ?_⟩
        rw [if_neg Bool.false_ne_true, if_neg Bool.false_ne_true]
        simp only [Verdict.usable, hm, Option.isNone_none, Bool.or_false, Bool.and_false, Bool.false_eq_true, if_false,
          State.onDID_self]
        show Eff.andThen _ _ s = _
        unfold Eff.andThen Eff.attempt
        rw [hu]
        rfl

/-- `UseGrantedFeesByDID` settles the grant it names; it returns no error if the fee can be paid. -/
theorem useGrantedFeesByDID_apply (hg : s.didGrant granter did = some grant) :
    (useGrantedFeesByDID ctx granter did fee msgs s).1.isOk = (grant.allowance.accept ctx.blockTime fee msgs).usable ∧
      ∃ events, (useGrantedFeesByDID ctx granter did fee msgs s).2 =
        s.onDID (s.didBook.settle granter did grant.allowance (grant.allowance.accept ctx.blockTime fee msgs)) events := by
  have hexpi := grant.allowance.expiresAt_of_accept ctx.blockTime fee msgs
  have hsame := grant.allowance.accept_expiresAt ctx.blockTime fee msgs
  unfold useGrantedFeesByDID
  rw [(mapErr_ok.2 (getDIDAllowance_ok.2 ⟨⟨grant, hg, rfl⟩, rfl⟩)).bind_eq]
  generalize grant.allowance.accept ctx.blockTime fee msgs = v at hexpi hsame
  obtain ⟨remove, err, allowance⟩ := v
  unfold Book.settle
  cases remove with
  | true =>
    have hr := revokeDIDAllowance_apply hg (hexpi (.inl rfl))
    dsimp only
    rw [if_pos rfl, if_pos rfl, (show (revokeDIDAllowance granter did).Succeeds s () _ from hr).attempt.bind_eq]
    cases err with
    | some e => exact ⟨rfl, _, rfl⟩
    | none => exact ⟨rfl, _, by rw [← State.onDID_onDID]; rfl⟩
  | false =>
    cases err with
    | some e => exact ⟨rfl, [], s.onDID_self.symm⟩
    | none =>
      have hexp := hexpi (.inr rfl)
      have hu := updateDIDAllowance_apply
        (s := s.onDID s.didBook [.useDIDFeeGrant (Γ.accAddressString granter.bytes) did.bytes]) hg hexp (hsame.trans hexp)
      dsimp only at hu ⊢
      rw [if_neg Bool.false_ne_true, if_neg Bool.false_ne_true, emit, modify_bind]
      change (updateDIDAllowance granter did allowance
          (s.onDID s.didBook [.useDIDFeeGrant (Γ.accAddressString granter.bytes) did.bytes])).1.isOk = _ ∧
        ∃ events, (updateDIDAllowance granter did allowance
          (s.onDID s.didBook [.useDIDFeeGrant (Γ.accAddressString granter.bytes) did.bytes])).2 = _
      rw [hu]
      cases hm : allowance.marshalable with
      | true =>
        rw [if_pos rfl, State.onDID_onDID]
        simp only [Verdict.usable, hm, Option.isNone_none, Bool.or_true, Bool.and_true, if_true]
        refine ⟨rfl, [.useDIDFeeGrant (Γ.accAddressString granter.bytes) did.bytes] ++
          [.updateDIDFeeGrant (Γ.accAddressString granter.bytes) did.bytes], ?_⟩
        simp only [Book.putDID, State.onDID_didBook, if_true]
      | false =>
        rw [if_neg Bool.false_ne_true]
        simp only [Verdict.usable, hm, Option.isNone_none, Bool.or_false, Bool.and_false, Bool.false_eq_true, if_false]
        exact ⟨rfl, _, rfl⟩

end Settle

end Vera.Feegrant
