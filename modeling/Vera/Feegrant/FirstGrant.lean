import Vera.Feegrant.DIDQueue

/-!
# Paying from the first grant that can be used

`UseFirstAvailableDIDGrant` walks over the grants to a DID in the order of the store. It deletes those it finds expired and
stops at the first that can pay; that grant alone is charged. An allowance for some messages only is asked for its messages
before its time, so an expired one is passed by, not deleted, if the messages are others; and a grant whose rest cannot be
stored is passed by as well.
-/

namespace Vera.Feegrant

open List
open Bytes (str)

variable {Γ : Env}

/-- What is asked of the address codec: an address is read back from its text. -/
structure AddressLaws (Γ : Env) : Prop where
  roundTrip : ∀ address : KeyPart, Γ.stringToBytes (Γ.accAddressString address.bytes) = .ok address

/-! ## What an allowance answers -/

/-- Whether an allowance is for the messages of a transaction. -/
def Allowance.allows (msgs : List Bytes) : Allowance Γ → Bool
  | .allowedMsg allowance allowedMessages => msgs.all allowedMessages.contains && allowance.allows msgs
  | _ => true

/-- Whether the time of expiry of an allowance is before a block. -/
def Allowance.expiredAt (a : Allowance Γ) (blockTime : Time) : Bool := a.expiry.any (·.before blockTime)

/-- An allowance is to be removed with an error exactly if it is for the messages and has expired. -/
theorem Allowance.accept_expired (a : Allowance Γ) (blockTime : Time) (fee : Γ.Coins) (msgs : List Bytes) :
    ((a.accept blockTime fee msgs).remove && (a.accept blockTime fee msgs).err.isSome) =
      (a.allows msgs && a.expiredAt blockTime) := by
  induction a with
  | basic a =>
    show ((a.accept blockTime fee).remove && (a.accept blockTime fee).err.isSome) = (true && a.expiration.any (·.before blockTime))
    unfold BasicAllowance.accept
    split
    · rename_i h
      simp [h]
    · rename_i h
      split
      · simp [h]
      · split <;> simp [h]
  | periodic a =>
    show ((a.accept blockTime fee).remove && (a.accept blockTime fee).err.isSome) =
      (true && a.basic.expiration.any (·.before blockTime))
    have ha : a.basic.expiration.any (·.before blockTime) = a.basic.expiration.any blockTime.after := rfl
    rw [ha]
    unfold PeriodicAllowance.accept
    split
    · rename_i h
      simp [h]
    · rename_i h
      unfold PeriodicAllowance.deduct
      dsimp only
      split
      · simp [h]
      · split
        · simp [h]
        · split <;> simp [h]
  | allowedMsg allowance allowedMessages ih =>
    have hexpired : (Allowance.allowedMsg allowance allowedMessages).expiredAt blockTime = allowance.expiredAt blockTime := rfl
    rw [hexpired]
    simp only [Allowance.accept, Allowance.allows]
    split
    · rename_i hm
      rw [hm, Bool.true_and, ← ih]
      split
      · rename_i hke
        simp [hke]
      · rfl
    · rename_i hm
      simp [hm]
  | emptyAllowedMsg allowedMessages =>
    simp only [Allowance.accept]
    split <;> rfl

/-- An allowance that does not let the fee be paid is to be removed exactly if it is found expired. -/
theorem Allowance.remove_of_not_usable {a : Allowance Γ} {blockTime : Time} {fee : Γ.Coins} {msgs : List Bytes}
    (h : (a.accept blockTime fee msgs).usable = false) :
    (a.accept blockTime fee msgs).remove = (a.allows msgs && a.expiredAt blockTime) := by
  rw [← a.accept_expired blockTime fee msgs]
  unfold Verdict.usable at h
  generalize a.accept blockTime fee msgs = v at h ⊢
  obtain ⟨remove, err, allowance⟩ := v
  cases remove <;> cases err <;> simp_all

/-! ## The grants to a DID -/

/-- The granters to a DID and their allowances, in the order of the store. -/
def State.grantsTo (s : State Γ) (did : KeyPart) : List (KeyPart × Allowance Γ) :=
  (s.didGrants did).filterMap fun grant =>
    match Γ.stringToBytes grant.granter with
    | .ok granter => some (granter, grant.allowance)
    | .error _ => none

section Grants

variable (addr : AddressLaws Γ) {s : State Γ} (h : s.didBook.Agrees) (did : KeyPart)

include addr h

theorem scanned_eq : (s.didBook.grants.entries.filter fun e => (feeAllowanceScanByDID did).isPrefixOf e.1) =
    (s.grantsTo did).map fun g => (feeAllowanceByDIDKey g.1 did, didGrantOf g.1 did g.2) := by
  have ha : ∀ e ∈ s.didBook.grants.entries.filter fun e => (feeAllowanceScanByDID did).isPrefixOf e.1,
      ∃ granter a, e = (feeAllowanceByDIDKey granter did, didGrantOf granter did a) := by
    intro e he
    obtain ⟨hmem, hs⟩ := mem_filter.1 he
    obtain ⟨granter, did', a, hke, hgr, -, -⟩ := h.keyed e.1 e.2 ((KVStore.mem_entries _).1 hmem)
    rw [hke] at hs
    obtain rfl := scanByDID_isPrefixOf.1 hs
    exact ⟨granter, a, Prod.ext hke hgr⟩
  unfold State.grantsTo State.didGrants
  generalize (s.didBook.grants.entries.filter fun e => (feeAllowanceScanByDID did).isPrefixOf e.1) = entries at ha
  induction entries with
  | nil => rfl
  | cons e rest ih =>
    obtain ⟨granter, a, rfl⟩ := ha e mem_cons_self
    have hr : Γ.stringToBytes (didGrantOf granter did a).granter = .ok granter := addr.roundTrip granter
    simp only [map_cons, filterMap_cons, hr]
    exact congrArg _ (ih fun g hg => ha g (mem_cons_of_mem _ hg))

theorem didGrants_eq : s.didGrants did = (s.grantsTo did).map fun g => didGrantOf g.1 did g.2 := by
  unfold State.didGrants
  rw [scanned_eq addr h did, map_map]
  rfl

theorem mem_grantsTo {granter : KeyPart} {a : Allowance Γ} :
    (granter, a) ∈ s.grantsTo did ↔ s.didGrant granter did = some (didGrantOf granter did a) := by
  have hen : (feeAllowanceByDIDKey granter did, didGrantOf granter did a) ∈
      (s.grantsTo did).map (fun g => (feeAllowanceByDIDKey g.1 did, didGrantOf g.1 did g.2)) ↔ (granter, a) ∈ s.grantsTo did := by
    rw [mem_map]
    constructor
    · rintro ⟨⟨granter', a'⟩, hmem, heq⟩
      obtain ⟨hke, hg⟩ := Prod.mk.inj heq
      obtain ⟨rfl, -⟩ := feeAllowanceByDIDKey_inj hke
      obtain rfl : a' = a := congrArg Grant.allowance hg
      exact hmem
    · exact fun hmem => ⟨_, hmem, rfl⟩
  rw [← hen, ← scanned_eq addr h did, mem_filter, KVStore.mem_entries]
  exact and_iff_left (scanByDID_isPrefixOf.2 rfl)

theorem nodup_grantsTo : ((s.grantsTo did).map Prod.fst).Nodup := by
  have hke := (filter_sublist (p := fun e => (feeAllowanceScanByDID did).isPrefixOf e.1)
    (l := s.didBook.grants.entries)).map Prod.fst
  rw [scanned_eq addr h did, map_map] at hke
  have hno := s.didBook.grants.nodup_keys.sublist hke
  refine List.Nodup.of_map (fun granter => feeAllowanceByDIDKey granter did) ?_
  rw [map_map]
  exact hno

end Grants

/-! ## The loop -/

/-- The grants to DIDs after some of the grants to one of them gave their answers. -/
def Book.settleAll (b : Book Γ) (did : KeyPart) (ask : Allowance Γ → Verdict (Allowance Γ))
    (grants : List (KeyPart × Allowance Γ)) : Book Γ :=
  grants.foldl (fun b g => b.settle g.1 did g.2 (ask g.2)) b

/-- Whether grants to a DID are stored as they are listed. -/
def Book.Stores (b : Book Γ) (did : KeyPart) (grants : List (KeyPart × Allowance Γ)) : Prop :=
  ∀ g ∈ grants, b.grants.get (feeAllowanceByDIDKey g.1 did) = some (didGrantOf g.1 did g.2)

section Settle

variable {b : Book Γ} {did : KeyPart} {ask : Allowance Γ → Verdict (Allowance Γ)} {grants : List (KeyPart × Allowance Γ)}

variable {g : KeyPart × Allowance Γ}

theorem Book.Stores.settle (h : b.Stores did (g :: grants))
    (hno : ((g :: grants).map Prod.fst).Nodup) (v : Verdict (Allowance Γ)) :
    (b.settle g.1 did g.2 v).Stores did grants := by
  intro g' hg'
  rw [Book.get_settle (h g mem_cons_self), if_neg]
  · exact h g' (mem_cons_of_mem _ hg')
  · intro hke
    have hsame := (feeAllowanceByDIDKey_inj hke).1
    exact (nodup_cons.1 hno).1 (hsame ▸ mem_map_of_mem hg')

theorem Book.get_settleAll_of_ne (h : b.Stores did grants) (hno : (grants.map Prod.fst).Nodup) {k : Bytes}
    (hk : ∀ g ∈ grants, k ≠ feeAllowanceByDIDKey g.1 did) : (b.settleAll did ask grants).grants.get k = b.grants.get k := by
  induction grants generalizing b with
  | nil => rfl
  | cons g rest ih =>
    refine (ih (h.settle hno (ask g.2)) (nodup_cons.1 hno).2 fun g' hg' => hk g' (mem_cons_of_mem _ hg')).trans ?_
    rw [Book.get_settle (h g mem_cons_self), if_neg (hk g mem_cons_self)]

theorem Book.get_settleAll_of_mem (h : b.Stores did grants) (hno : (grants.map Prod.fst).Nodup) (hg : g ∈ grants) :
    (b.settleAll did ask grants).grants.get (feeAllowanceByDIDKey g.1 did) =
      ((ask g.2).leaves g.2).map (didGrantOf g.1 did) := by
  induction grants generalizing b with
  | nil => cases hg
  | cons g₁ rest ih =>
    have hs := h.settle hno (ask g₁.2)
    obtain ⟨hf, hrest⟩ := nodup_cons.1 hno
    rcases mem_cons.1 hg with rfl | hmem
    · refine (Book.get_settleAll_of_ne hs hrest fun g' hg' hke => ?_).trans ?_
      · exact hf ((feeAllowanceByDIDKey_inj hke).1 ▸ mem_map_of_mem hg')
      · rw [Book.get_settle (h g mem_cons_self), if_pos rfl]
    · exact ih hs hrest hmem

end Settle

variable {s : State Γ} {did : KeyPart} {later earlier : List (KeyPart × Allowance Γ)} {g : KeyPart × Allowance Γ}

/-- The first of the grants to a DID are stored as they are listed, and no granter is among them twice. -/
theorem stores_of_grantsTo (addr : AddressLaws Γ) (h : s.didBook.Agrees)
    {first : List (KeyPart × Allowance Γ)} (hs : s.grantsTo did = first ++ later) :
    s.didBook.Stores did first ∧ (first.map Prod.fst).Nodup := by
  refine ⟨fun g hg => (mem_grantsTo addr h did).1 (hs ▸ mem_append_left _ hg), ?_⟩
  have hno := nodup_grantsTo addr h did
  rw [hs, map_append] at hno
  exact (nodup_append.1 hno).1

theorem fresh_of_grantsTo (addr : AddressLaws Γ) (h : s.didBook.Agrees) (hs : s.grantsTo did = earlier ++ g :: later) :
    g.1 ∉ earlier.map Prod.fst := by
  have hno := nodup_grantsTo addr h did
  rw [hs, map_append] at hno
  exact fun hmem => (nodup_append.1 hno).2.2 _ hmem _ mem_cons_self rfl

theorem stores_settleAll (addr : AddressLaws Γ) (h : s.didBook.Agrees) (hs : s.grantsTo did = earlier ++ g :: later)
    (ask : Allowance Γ → Verdict (Allowance Γ)) : (s.didBook.settleAll did ask earlier).Stores did [g] := by
  obtain ⟨hst, hno⟩ := stores_of_grantsTo addr h hs
  intro g' hg'
  obtain rfl := mem_singleton.1 hg'
  rw [Book.get_settleAll_of_ne hst hno]
  · exact (mem_grantsTo addr h did).1 (hs ▸ mem_append_right _ mem_cons_self)
  · exact fun g₁ hg₁ hke =>
      fresh_of_grantsTo addr h hs ((feeAllowanceByDIDKey_inj hke).1 ▸ mem_map_of_mem hg₁)

section Loop

variable (addr : AddressLaws Γ) {s : State Γ} (ctx : Ctx) (did : KeyPart) (fee : Γ.Coins) (msgs : List Bytes)

include addr

theorem tryDIDGrants_append {grants : List (KeyPart × Allowance Γ)} (rest : List (Grant Γ)) (h : s.didBook.Stores did grants)
    (hno : (grants.map Prod.fst).Nodup)
    (hu : ∀ g ∈ grants, (g.2.accept ctx.blockTime fee msgs).usable = false) :
    ∃ events, tryDIDGrants ctx did fee msgs (grants.map (fun g => didGrantOf g.1 did g.2) ++ rest) s =
      tryDIDGrants ctx did fee msgs rest
        (s.onDID (s.didBook.settleAll did (Allowance.accept ctx.blockTime fee msgs) grants) events) := by
  induction grants generalizing s with
  | nil => exact ⟨[], congrArg (tryDIDGrants ctx did fee msgs rest) s.onDID_self.symm⟩
  | cons g later ih =>
    obtain ⟨events, hs⟩ := settleDIDGrant_apply ctx fee msgs (h g mem_cons_self) (Γ.accAddressString g.1.bytes)
    rw [show (didGrantOf g.1 did g.2).allowance = g.2 from rfl, hu g mem_cons_self] at hs
    obtain ⟨events', hl⟩ := ih
      (s := s.onDID (s.didBook.settle g.1 did g.2 (g.2.accept ctx.blockTime fee msgs)) events) (h.settle hno _)
      (nodup_cons.1 hno).2 fun g' hg' => hu g' (mem_cons_of_mem _ hg')
    rw [State.onDID_onDID] at hl
    refine ⟨events ++ events', Eq.trans ?_ hl⟩
    have ht : (tryDIDGrant ctx did fee msgs (didGrantOf g.1 did g.2)).Succeeds s none
        (s.onDID (s.didBook.settle g.1 did g.2 (g.2.accept ctx.blockTime fee msgs)) events) := by
      unfold tryDIDGrant
      rw [show (didGrantOf g.1 did g.2).granter = Γ.accAddressString g.1.bytes from rfl, addr.roundTrip]
      exact hs
    rw [map_cons, cons_append, tryDIDGrants, ht.bind_eq]

theorem tryDIDGrants_cons {g : KeyPart × Allowance Γ} (rest : List (Grant Γ)) (h : s.didBook.Stores did [g])
    (hu : (g.2.accept ctx.blockTime fee msgs).usable = true) :
    ∃ events, tryDIDGrants ctx did fee msgs (didGrantOf g.1 did g.2 :: rest) s =
      (.ok g.1, s.onDID (s.didBook.settle g.1 did g.2 (g.2.accept ctx.blockTime fee msgs)) events) := by
  obtain ⟨events, hs⟩ := settleDIDGrant_apply ctx fee msgs (h g mem_cons_self) (Γ.accAddressString g.1.bytes)
  rw [show (didGrantOf g.1 did g.2).allowance = g.2 from rfl, hu] at hs
  refine ⟨events, ?_⟩
  have ht : (tryDIDGrant ctx did fee msgs (didGrantOf g.1 did g.2)).Succeeds s (some g.1)
      (s.onDID (s.didBook.settle g.1 did g.2 (g.2.accept ctx.blockTime fee msgs)) events) := by
    unfold tryDIDGrant
    rw [show (didGrantOf g.1 did g.2).granter = Γ.accAddressString g.1.bytes from rfl, addr.roundTrip]
    exact hs
  rw [tryDIDGrants, ht.bind_eq]
  rfl

/-- `UseFirstAvailableDIDGrant` fails after asking every grant, or pays from the first that can. -/
theorem useFirstAvailableDIDGrant_cases (h : s.didBook.Agrees) :
    ((∀ g ∈ s.grantsTo did, (g.2.accept ctx.blockTime fee msgs).usable = false) ∧
      ∃ events, useFirstAvailableDIDGrant ctx did fee msgs s = (.err ⟨.notFound, str "no usable fee-grant found for DID"⟩,
          s.onDID (s.didBook.settleAll did (Allowance.accept ctx.blockTime fee msgs) (s.grantsTo did)) events)) ∨
    ∃ earlier g later, s.grantsTo did = earlier ++ g :: later ∧
      (∀ g ∈ earlier, (g.2.accept ctx.blockTime fee msgs).usable = false) ∧
      (g.2.accept ctx.blockTime fee msgs).usable = true ∧
      ∃ events, useFirstAvailableDIDGrant ctx did fee msgs s =
        (.ok g.1, s.onDID ((s.didBook.settleAll did (Allowance.accept ctx.blockTime fee msgs) earlier).settle g.1 did g.2
          (g.2.accept ctx.blockTime fee msgs)) events) := by
  have hcall : useFirstAvailableDIDGrant ctx did fee msgs s =
      tryDIDGrants ctx did fee msgs ((s.grantsTo did).map fun g => didGrantOf g.1 did g.2) s := by
    rw [← didGrants_eq addr h did]
    rfl
  rw [hcall]
  cases hf : (s.grantsTo did).find? fun g => (g.2.accept ctx.blockTime fee msgs).usable with
  | none =>
    have hu : ∀ g ∈ s.grantsTo did, (g.2.accept ctx.blockTime fee msgs).usable = false :=
      fun g hg => Bool.not_eq_true _ ▸ List.find?_eq_none.1 hf g hg
    obtain ⟨hst, hno⟩ := stores_of_grantsTo addr h (append_nil _).symm
    obtain ⟨events, ha⟩ := tryDIDGrants_append addr ctx did fee msgs [] hst hno hu
    rw [append_nil] at ha
    exact .inl ⟨hu, events, ha⟩
  | some g =>
    obtain ⟨hus, earlier, later, hs, hb⟩ := List.find?_eq_some_iff_append.1 hf
    have hu : ∀ g ∈ earlier, (g.2.accept ctx.blockTime fee msgs).usable = false :=
      fun g hg => by simpa using hb g hg
    obtain ⟨hst, hno⟩ := stores_of_grantsTo addr h hs
    obtain ⟨events, ha⟩ := tryDIDGrants_append addr ctx did fee msgs
      ((g :: later).map fun g => didGrantOf g.1 did g.2) hst hno hu
    obtain ⟨events', hco⟩ := tryDIDGrants_cons addr ctx did fee msgs (later.map fun g => didGrantOf g.1 did g.2)
      (s := s.onDID (s.didBook.settleAll did (Allowance.accept ctx.blockTime fee msgs) earlier) events)
      (stores_settleAll addr h hs _) hus
    refine .inr ⟨earlier, g, later, hs, hu, hus, events ++ events', ?_⟩
    rw [hs, map_append, ha, map_cons, hco, State.onDID_onDID]
    rfl

end Loop

/-! ## Calls on both kinds of grants -/

/-- The state after a call on the grants between accounts or on those to DIDs. -/
def anyStep (s : State Γ) : Step Γ ⊕ DIDCall Γ → State Γ
  | .inl c => step s c
  | .inr c => didStep s c

/-- A call leaves the grants to DIDs alone, however it ends. -/
abbrev LeavesDIDs {α : Type} (x : M Γ α) : Prop := Eff.Respects (fun s t => t.didBook = s.didBook) x

theorem LeavesDIDs.bind {α β : Type} {x : M Γ α} {f : α → M Γ β} (hx : LeavesDIDs x) (hf : ∀ a, LeavesDIDs (f a)) :
    LeavesDIDs (x >>= f) :=
  Eff.Respects.bind (fun _ _ _ h h' => h'.trans h) hx hf

theorem getAllowance_leavesDIDs (granter grantee : KeyPart) : LeavesDIDs (getAllowance granter grantee : M Γ (Allowance Γ)) :=
  LeavesDIDs.bind (fun _ => rfl) fun _ _ => rfl

theorem updateAllowance_leavesDIDs (granter grantee : KeyPart) (a : Allowance Γ) :
    LeavesDIDs (updateAllowance granter grantee a) := by
  unfold updateAllowance
  refine LeavesDIDs.bind (fun _ => rfl) fun _ => LeavesDIDs.bind (fun _ => rfl) fun _ => ?_
  exact LeavesDIDs.bind (fun _ => rfl) fun _ _ => rfl

theorem revokeAllowance_leavesDIDs (granter grantee : KeyPart) :
    LeavesDIDs (revokeAllowance granter grantee : M Γ Unit) := by
  unfold revokeAllowance
  refine LeavesDIDs.bind (getAllowance_leavesDIDs granter grantee) fun _ => LeavesDIDs.bind (fun _ => rfl) fun _ => ?_
  refine LeavesDIDs.bind (fun _ => rfl) fun exp => ?_
  cases exp with
  | none => exact fun _ => rfl
  | some exp => exact LeavesDIDs.bind (fun _ => rfl) fun _ _ => rfl

theorem useGrantedFees_leavesDIDs (ctx : Ctx) (granter grantee : KeyPart) (fee : Γ.Coins) (msgs : List Bytes) :
    LeavesDIDs (useGrantedFees ctx granter grantee fee msgs) := by
  unfold useGrantedFees
  refine LeavesDIDs.bind (getAllowance_leavesDIDs granter grantee) fun allowance => ?_
  dsimp only
  split
  · refine LeavesDIDs.bind (revokeAllowance_leavesDIDs granter grantee).attempt fun _ => ?_
    split
    · exact fun _ => rfl
    · exact fun _ => rfl
  · split
    · exact fun _ => rfl
    · exact LeavesDIDs.bind (fun _ => rfl) fun _ => updateAllowance_leavesDIDs granter grantee _

theorem grantAllowance_leavesDIDs (ctx : Ctx) (granter grantee : KeyPart) (a : Allowance Γ) :
    LeavesDIDs (grantAllowance ctx granter grantee a) := by
  have hr : ∀ (c : Prop) [Decidable c] (e : Error), LeavesDIDs (Eff.require c e : M Γ Unit) := by
    intro c _ e s
    rw [Eff.require_unchanged]
  unfold grantAllowance requireNotPast
  refine LeavesDIDs.bind (fun _ => rfl) fun s => LeavesDIDs.bind (hr _ _) fun _ => LeavesDIDs.bind ?_ fun _ => ?_
  · unfold createGrantee
    refine LeavesDIDs.bind (fun _ => rfl) fun s => ?_
    split
    · exact fun _ => rfl
    · exact LeavesDIDs.bind (hr _ _) fun _ _ => rfl
  refine LeavesDIDs.bind (fun _ => rfl) fun exp => LeavesDIDs.bind (hr _ _) fun _ => ?_
  have hs : LeavesDIDs (do
      let grant ← Eff.lift (newGrant granter (Γ.accAddressString grantee.bytes) a)
      setGrant granter grantee grant
      emit (.setFeeGrant grant.granter grant.grantee) : M Γ Unit) :=
    LeavesDIDs.bind (fun _ => rfl) fun _ => LeavesDIDs.bind (fun _ => rfl) fun _ _ => rfl
  cases exp with
  | none => exact hs
  | some exp => exact LeavesDIDs.bind (fun _ => rfl) fun _ => hs

theorem step_didBook (s : State Γ) (c : Step Γ) : (step s c).didBook = s.didBook := by
  refine Eff.Respects.commit (R := fun s t : State Γ => t.didBook = s.didBook) (fun _ => rfl) ?_ s
  cases c with
  | grantAllowance ctx granter grantee a => exact grantAllowance_leavesDIDs ctx granter grantee a
  | updateAllowance ctx granter grantee a => exact updateAllowance_leavesDIDs granter grantee a
  | useGrantedFees ctx granter grantee fee msgs => exact useGrantedFees_leavesDIDs ctx granter grantee fee msgs
  | revokeAllowance ctx granter grantee => exact revokeAllowance_leavesDIDs granter grantee
  | removeExpiredAllowances ctx limit =>
    exact LeavesDIDs.bind (fun _ => rfl) fun s => LeavesDIDs.bind (fun _ => rfl) fun _ _ => rfl

/-- In every state that is reached, the grants to DIDs are stored under their own keys and queued. -/
theorem anyRun_agrees (laws : TimeLaws Γ) (accounts : Γ.σ) (calls : List (Step Γ ⊕ DIDCall Γ)) :
    (Run.run anyStep (State.init accounts) calls).didBook.Agrees := by
  refine Run.run_invariant anyStep (I := fun s : State Γ => s.didBook.Agrees) (fun s c hs => ?_) Book.Agrees.init calls
  cases c with
  | inl c =>
    rw [anyStep, step_didBook]
    exact hs
  | inr c => exact (didStep_agrees laws hs c).1

/-! ## What a payment does -/

/-- What a payment does to the grants it does not use: of those it asked, the ones it found expired are deleted with their
entries in the queue; the others are as before. -/
structure LeavesOthers (ctx : Ctx) (did : KeyPart) (msgs : List Bytes) (s t : State Γ) (asked : List (KeyPart × Allowance Γ))
    (used : Option KeyPart) : Prop where
  passed : ∀ g ∈ asked, t.didGrant g.1 did =
    if g.2.allows msgs && g.2.expiredAt ctx.blockTime then none else s.didGrant g.1 did
  others : ∀ granter' did', (did' = did → granter' ∉ asked.map Prod.fst ∧ used ≠ some granter') →
    t.didGrant granter' did' = s.didGrant granter' did'
  queue : ∀ exp granter' did', exp.inYears = true →
    (t.DIDQueued exp granter' did' ↔ s.DIDQueued exp granter' did' ∧ (t.didGrant granter' did').isSome = true)
  accounts : t.book = s.book ∧ t.accounts = s.accounts

/-- Paying for a DID charges one grant: it succeeds if a grant can pay, the first in the order of the store is used, and its
rest is stored unless it is used up; whether it succeeds or not, the other grants are left alone but for expired ones. -/
structure PaysFirst (ctx : Ctx) (did : KeyPart) (fee : Γ.Coins) (msgs : List Bytes) (s : State Γ) : Prop where
  succeeds_iff : (useFirstAvailableDIDGrant ctx did fee msgs s).1.isOk = true ↔
    ∃ g ∈ s.grantsTo did, (g.2.accept ctx.blockTime fee msgs).usable = true
  charged : ∀ granter, (useFirstAvailableDIDGrant ctx did fee msgs s).1 = .ok granter →
    ∃ earlier a later, s.grantsTo did = earlier ++ (granter, a) :: later ∧
      (∀ g ∈ earlier, (g.2.accept ctx.blockTime fee msgs).usable = false) ∧
      (a.accept ctx.blockTime fee msgs).usable = true ∧
      (useFirstAvailableDIDGrant ctx did fee msgs s).2.didGrant granter did =
        (if (a.accept ctx.blockTime fee msgs).remove then none
          else some (didGrantOf granter did (a.accept ctx.blockTime fee msgs).allowance)) ∧
      LeavesOthers ctx did msgs s (useFirstAvailableDIDGrant ctx did fee msgs s).2 earlier (some granter)
  refused : (useFirstAvailableDIDGrant ctx did fee msgs s).1.isOk = false →
    LeavesOthers ctx did msgs s (useFirstAvailableDIDGrant ctx did fee msgs s).2 (s.grantsTo did) none

section Pays

variable (laws : TimeLaws Γ) (addr : AddressLaws Γ) {s t : State Γ} (h : s.didBook.Agrees)

include laws h

/-- If grants are only deleted or charged, the entries that are left in the queue are those of the grants that are left. -/
theorem queued_iff_of_kept (ht : t.didBook.Agrees) (hke : ∀ granter did grant', t.didGrant granter did = some grant' →
      ∃ grant, s.didGrant granter did = some grant ∧ grant'.allowance.expiresAt = grant.allowance.expiresAt)
    {exp : Time} (hexp : exp.inYears = true) (granter did : KeyPart) :
    t.DIDQueued exp granter did ↔ s.DIDQueued exp granter did ∧ (t.didGrant granter did).isSome = true := by
  rw [ht.queued_iff laws hexp, h.queued_iff laws hexp]
  constructor
  · rintro ⟨grant', hg', hat⟩
    obtain ⟨grant, hg, hsame⟩ := hke granter did grant' hg'
    refine ⟨⟨grant, hg, hsame ▸ hat⟩, ?_⟩
    rw [hg']
    rfl
  · rintro ⟨⟨grant, hg, hat⟩, hs⟩
    obtain ⟨grant', hg'⟩ := Option.isSome_iff_exists.1 hs
    obtain ⟨grant₀, hg₀, hsame⟩ := hke granter did grant' hg'
    obtain rfl : grant = grant₀ := Option.some.inj (hg.symm.trans hg₀)
    exact ⟨grant', hg', hsame.trans hat⟩

variable {ctx : Ctx} {did : KeyPart} {msgs : List Bytes} {asked later : List (KeyPart × Allowance Γ)} {fee : Γ.Coins}
  {g : KeyPart × Allowance Γ}

theorem leavesOthers_of {used : Option KeyPart} (ht : t.didBook.Agrees) (hp : ∀ g ∈ asked, t.didGrant g.1 did =
      if g.2.allows msgs && g.2.expiredAt ctx.blockTime then none else s.didGrant g.1 did)
    (hot : ∀ granter' did', (did' = did → granter' ∉ asked.map Prod.fst ∧ used ≠ some granter') →
      t.didGrant granter' did' = s.didGrant granter' did')
    (hu : ∀ granter, used = some granter → ∀ grant', t.didGrant granter did = some grant' →
      ∃ grant, s.didGrant granter did = some grant ∧ grant'.allowance.expiresAt = grant.allowance.expiresAt)
    (ha : t.book = s.book ∧ t.accounts = s.accounts) : LeavesOthers ctx did msgs s t asked used := by
  refine ⟨hp, hot, fun exp granter' did' hexp => ?_, ha⟩
  refine queued_iff_of_kept laws h ht (fun granter did₁ grant' hgr' => ?_) hexp granter' did'
  by_cases hoth : did₁ = did → granter ∉ asked.map Prod.fst ∧ used ≠ some granter
  · exact ⟨grant', (hot granter did₁ hoth).symm.trans hgr', rfl⟩
  · obtain ⟨rfl, hnot⟩ := not_forall.1 hoth
    by_cases hmem : granter ∈ asked.map Prod.fst
    · obtain ⟨g, hg, rfl⟩ := mem_map.1 hmem
      rw [hp g hg] at hgr'
      split at hgr'
      · cases hgr'
      · exact ⟨grant', hgr', rfl⟩
    · exact hu granter (not_not.1 fun hne => hnot ⟨hmem, hne⟩) grant' hgr'

include addr

omit laws in
theorem get_settleAll_of_unusable (ha : s.grantsTo did = asked ++ later)
    (hun : ∀ g ∈ asked, (g.2.accept ctx.blockTime fee msgs).usable = false) (hg : g ∈ asked) :
    (s.didBook.settleAll did (Allowance.accept ctx.blockTime fee msgs) asked).grants.get (feeAllowanceByDIDKey g.1 did) =
      if g.2.allows msgs && g.2.expiredAt ctx.blockTime then none else s.didGrant g.1 did := by
  obtain ⟨hs, hno⟩ := stores_of_grantsTo addr h ha
  have hgr : s.didGrant g.1 did = some (didGrantOf g.1 did g.2) := hs g hg
  have hu := hun g hg
  rw [Book.get_settleAll_of_mem hs hno hg, Verdict.leaves, Allowance.remove_of_not_usable hu, hu, hgr]
  split <;> rfl

theorem leavesOthers_of_refused (ht : t.didBook.Agrees)
    (hu : ∀ g ∈ s.grantsTo did, (g.2.accept ctx.blockTime fee msgs).usable = false)
    (hb : t.didBook = s.didBook.settleAll did (Allowance.accept ctx.blockTime fee msgs) (s.grantsTo did))
    (ha : t.book = s.book ∧ t.accounts = s.accounts) : LeavesOthers ctx did msgs s t (s.grantsTo did) none := by
  obtain ⟨hs, hno⟩ := stores_of_grantsTo addr h (append_nil (s.grantsTo did)).symm
  refine leavesOthers_of laws h ht (fun g hg => ?_) (fun granter' did' hot => ?_) (fun _ hus => nomatch hus) ha
  · rw [State.didGrant, hb]
    exact get_settleAll_of_unusable addr h (append_nil _).symm hu hg
  · rw [State.didGrant, hb, Book.get_settleAll_of_ne hs hno]
    · rfl
    · intro g hg hke
      obtain ⟨hgr, hd⟩ := feeAllowanceByDIDKey_inj hke
      exact (hot hd).1 (hgr ▸ mem_map_of_mem hg)

/-- Where a grant was charged, those asked before it are left alone but for the expired ones, and so are all others. -/
theorem leavesOthers_of_charged (ht : t.didBook.Agrees)
    {earlier : List (KeyPart × Allowance Γ)} (hs : s.grantsTo did = earlier ++ g :: later)
    (hu : ∀ g ∈ earlier, (g.2.accept ctx.blockTime fee msgs).usable = false)
    (hb : t.didBook = (s.didBook.settleAll did (Allowance.accept ctx.blockTime fee msgs) earlier).settle g.1 did g.2
      (g.2.accept ctx.blockTime fee msgs))
    (hac : t.book = s.book ∧ t.accounts = s.accounts) : LeavesOthers ctx did msgs s t earlier (some g.1) := by
  obtain ⟨hst, hno⟩ := stores_of_grantsTo addr h hs
  have hf := fresh_of_grantsTo addr h hs
  have hget : ∀ k, t.didBook.grants.get k = _ := fun k =>
    (congrArg (fun b : Book Γ => b.grants.get k) hb).trans
      (Book.get_settle (stores_settleAll addr h hs _ g mem_cons_self) _ k)
  refine leavesOthers_of laws h ht (fun g' hg' => ?_) (fun granter' did' hot => ?_) (fun granter hus grant' hgra' => ?_) hac
  · rw [State.didGrant, hget, if_neg]
    · exact get_settleAll_of_unusable addr h hs hu hg'
    · exact fun hke => hf ((feeAllowanceByDIDKey_inj hke).1 ▸ mem_map_of_mem hg')
  · rw [State.didGrant, hget, if_neg, Book.get_settleAll_of_ne hst hno]
    · rfl
    · intro g' hg' hke
      obtain ⟨hgr, hd⟩ := feeAllowanceByDIDKey_inj hke
      exact (hot hd).1 (hgr ▸ mem_map_of_mem hg')
    · intro hke
      obtain ⟨hgr, hd⟩ := feeAllowanceByDIDKey_inj hke
      exact (hot hd).2 (congrArg some hgr.symm)
  · obtain rfl : g.1 = granter := Option.some.inj hus
    rw [State.didGrant, hget, if_pos rfl] at hgra'
    obtain ⟨a', ha', rfl⟩ := Option.map_eq_some_iff.1 hgra'
    refine ⟨didGrantOf g.1 did g.2, (mem_grantsTo addr h did).1 (hs ▸ mem_append_right _ mem_cons_self), ?_⟩
    unfold Verdict.leaves at ha'
    split at ha'
    · cases ha'
    · split at ha'
      · obtain rfl := Option.some.inj ha'
        exact g.2.accept_expiresAt ctx.blockTime fee msgs
      · obtain rfl := Option.some.inj ha'
        rfl

theorem paysFirst_of_agrees (ctx : Ctx) (did : KeyPart) (fee : Γ.Coins) (msgs : List Bytes) : PaysFirst ctx did fee msgs s := by
  have ha : (useFirstAvailableDIDGrant ctx did fee msgs s).2.didBook.Agrees :=
    (useFirstAvailableDIDGrant_keeps laws ctx did fee msgs s h).1
  rcases useFirstAvailableDIDGrant_cases addr ctx did fee msgs h with
    ⟨hu, events, hcall⟩ | ⟨earlier, g, later, hs, hu, hus, events, hcall⟩
  · rw [hcall] at ha
    refine ⟨?_, fun granter hok => ?_, fun _ => ?_⟩
    · rw [hcall]
      refine ⟨fun hok => (nomatch hok), fun ⟨g, hg, hus⟩ => ?_⟩
      rw [hu g hg] at hus
      cases hus
    · rw [hcall] at hok
      cases hok
    · rw [hcall]
      exact leavesOthers_of_refused laws addr h ha hu rfl ⟨rfl, rfl⟩
  · rw [hcall] at ha
    have hmem : g ∈ s.grantsTo did := hs ▸ mem_append_right _ mem_cons_self
    refine ⟨?_, fun granter hok => ?_, fun hf => ?_⟩
    · rw [hcall]
      exact ⟨fun _ => ⟨g, hmem, hus⟩, fun _ => rfl⟩
    · rw [hcall] at hok ⊢
      obtain rfl : g.1 = granter := Outcome.ok.inj hok
      refine ⟨earlier, g.2, later, hs, hu, hus, ?_, ?_⟩
      · rw [State.didGrant, State.onDID_didBook, Book.get_settle (stores_settleAll addr h hs _ g mem_cons_self),
          if_pos rfl, Verdict.leaves, hus]
        split <;> rfl
      · exact leavesOthers_of_charged laws addr h ha hs hu rfl ⟨rfl, rfl⟩
    · rw [hcall] at hf
      cases hf

end Pays

/-- In every state that is reached, paying for a DID charges the first grant that can pay, and no other. -/
theorem first_usable_grant_pays (laws : TimeLaws Γ) (addr : AddressLaws Γ) (accounts : Γ.σ) (calls : List (Step Γ ⊕ DIDCall Γ))
    (ctx : Ctx) (did : KeyPart) (fee : Γ.Coins) (msgs : List Bytes) :
    PaysFirst ctx did fee msgs (Run.run anyStep (State.init accounts) calls) :=
  paysFirst_of_agrees laws addr (anyRun_agrees laws accounts calls) ctx did fee msgs

/-! ## A local chain -/

theorem localFees_addressLaws : AddressLaws localFees where
  roundTrip address := by
    simp only [localFees, KeyPart.ofBytes_bytes]

/-- The state after grants to the DID of the local chain, all given in one block. -/
def grantedBy (grants : List (KeyPart × Allowance localFees)) : State localFees :=
  Run.run anyStep (State.init ([] : List Bytes))
    (grants.map fun g => .inr (.grantDIDAllowance grantBlock g.1 localDid g.2))

/-- Of two grants the first has expired: it is deleted, and the second pays. -/
theorem first_usable_grant_pays_second : PaysFirst (blockAt 30 (by decide)) localDid (2 : Int) []
      (grantedBy [(bob, .basic ⟨(5 : Int), some ⟨20, 0⟩⟩), (alice, .basic ⟨(7 : Int), none⟩)]) ∧
    (useFirstAvailableDIDGrant (blockAt 30 (by decide)) localDid (2 : Int) []
      (grantedBy [(bob, .basic ⟨(5 : Int), some ⟨20, 0⟩⟩), (alice, .basic ⟨(7 : Int), none⟩)])).1 = .ok alice := by
  refine ⟨first_usable_grant_pays localFees_timeLaws localFees_addressLaws ([] : List Bytes) _ _ _ _ _, ?_⟩
  decide +kernel

/-- The grants of two granters, the first of which has expired and is for other messages. -/
def filteredGrants : State localFees :=
  grantedBy [(bob, .allowedMsg (.basic ⟨(5 : Int), some ⟨20, 0⟩⟩) [str "/bank.MsgSend"]), (alice, .basic ⟨(7 : Int), none⟩)]

def minuteGrant : State localFees :=
  grantedBy [(alice, .periodic ⟨⟨(5 : Int), none⟩, 60000000000, (5 : Int), (5 : Int), ⟨20, 0⟩⟩)]

/-- An expired grant that is for other messages stays though a grant after it pays; and a grant that accepts the fee does not
pay if its next period would end after the last time that can be stored. -/
theorem first_usable_grant_pays_false :
    ((useFirstAvailableDIDGrant (blockAt 30 (by decide)) localDid (2 : Int) [str "/bulletin.MsgPost"] filteredGrants).1 =
        .ok alice ∧
      (filteredGrants.grantsTo localDid).map Prod.fst = [bob, alice] ∧
      (filteredGrants.didGrant bob localDid).any (fun grant => grant.allowance.expiredAt ⟨30, 0⟩) = true ∧
      ((useFirstAvailableDIDGrant (blockAt 30 (by decide)) localDid (2 : Int) [str "/bulletin.MsgPost"]
        filteredGrants).2.didGrant bob localDid).isSome = true) ∧
    (minuteGrant.grantsTo localDid).any
        (fun g => (g.2.accept (blockAt 315537897599 (by decide)).blockTime (2 : Int) []).err.isNone) = true ∧
      (useFirstAvailableDIDGrant (blockAt 315537897599 (by decide)) localDid (2 : Int) [] minuteGrant).1.isOk = false := by
  refine ⟨⟨?_, ?_, ?_, ?_⟩, ?_, ?_⟩
  all_goals decide +kernel

end Vera.Feegrant
