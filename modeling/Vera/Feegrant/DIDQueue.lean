import Vera.Feegrant.DIDGrants
import Vera.Feegrant.Pruning

/-!
# The expiry queue of the grants to DIDs

The queue of the grants to DIDs lists exactly the grants that expire, each at its time. Seven calls write to the grants and to
the queue one after the other; each stores a grant with its entry, moves the entry, or deletes both. So pruning, which trusts
the queue, deletes expired grants only. (For grants between accounts this is not so, as the calls for them leave entries
behind.)
-/

namespace Vera.Feegrant

open Eff KVStore List
open Bytes (str)

/-- A call on the grants to DIDs. A call that fails is undone. -/
inductive DIDCall (Γ : Env) where
  | grantDIDAllowance (ctx : Ctx) (granter granteeDID : KeyPart) (feeAllowance : Allowance Γ)
  | updateDIDAllowance (ctx : Ctx) (granter granteeDID : KeyPart) (feeAllowance : Allowance Γ)
  | expireDIDAllowance (ctx : Ctx) (granter granteeDID : KeyPart)
  | revokeDIDAllowance (ctx : Ctx) (granter granteeDID : KeyPart)
  | useGrantedFeesByDID (ctx : Ctx) (granter granteeDID : KeyPart) (fee : Γ.Coins) (msgs : List Bytes)
  | useFirstAvailableDIDGrant (ctx : Ctx) (granteeDID : KeyPart) (fee : Γ.Coins) (msgs : List Bytes)
  | removeExpiredDIDAllowances (ctx : Ctx) (limit : Int32)

variable {Γ : Env}

def DIDCall.call : DIDCall Γ → M Γ Unit
  | .grantDIDAllowance ctx granter did feeAllowance => Feegrant.grantDIDAllowance ctx granter did feeAllowance
  | .updateDIDAllowance _ granter did feeAllowance => Feegrant.updateDIDAllowance granter did feeAllowance
  | .expireDIDAllowance ctx granter did => Feegrant.expireDIDAllowance ctx granter did
  | .revokeDIDAllowance _ granter did => Feegrant.revokeDIDAllowance granter did
  | .useGrantedFeesByDID ctx granter did fee msgs => Feegrant.useGrantedFeesByDID ctx granter did fee msgs
  | .useFirstAvailableDIDGrant ctx did fee msgs => do
    let _ ← Feegrant.useFirstAvailableDIDGrant ctx did fee msgs
    pure ()
  | .removeExpiredDIDAllowances ctx limit => Feegrant.removeExpiredDIDAllowances ctx limit

def didStep (s : State Γ) (c : DIDCall Γ) : State Γ := c.call.commit s

/-- Whether a time of expiry is queued for a granter and a DID. -/
def State.DIDQueued (s : State Γ) (exp : Time) (granter did : KeyPart) : Prop :=
  (s.didBook.queue.get (didQueueKey Γ exp granter did)).isSome = true

/-- Whether a granter's grant to a DID is stored that expires at a time. -/
def State.DIDGrantExpires (s : State Γ) (exp : Time) (granter did : KeyPart) : Prop :=
  ∃ grant, s.didGrant granter did = some grant ∧ grant.allowance.expiresAt = .ok (some exp)

/-- What pruning deletes has expired by the time of the block. -/
def PrunesExpiredDID (s : State Γ) : DIDCall Γ → Prop
  | .removeExpiredDIDAllowances ctx limit => ∀ granter did grant, s.didGrant granter did = some grant →
    (didStep s (.removeExpiredDIDAllowances ctx limit)).didGrant granter did = none →
      grant.allowance.ExpiresBy ctx.blockTime
  | _ => True

/-! ## The invariant -/

/-- The grants are stored under their own granters and DIDs, and the queue has an entry for each that expires and no other. -/
structure Book.Agrees (b : Book Γ) : Prop where
  keyed : ∀ k grant, b.grants.get k = some grant → ∃ granter did a, k = feeAllowanceByDIDKey granter did ∧
    grant = didGrantOf granter did a ∧ a.marshalable = true ∧ a.expiresAt = .ok a.expiry
  queued : ∀ k, (b.queue.get k).isSome = true ↔ ∃ exp granter did a, k = didQueueKey Γ exp granter did ∧
    b.grants.get (feeAllowanceByDIDKey granter did) = some (didGrantOf granter did a) ∧ a.expiry = some exp

namespace Book.Agrees

variable {b : Book Γ}

theorem init : (Book.init : Book Γ).Agrees := by
  refine ⟨fun k grant h => (nomatch h), fun k => ⟨fun h => (nomatch h), ?_⟩⟩
  rintro ⟨_, _, _, _, -, h, -⟩
  cases h

variable {granter did : KeyPart}

theorem grant (h : b.Agrees) {grant : Grant Γ} (hg : b.grants.get (feeAllowanceByDIDKey granter did) = some grant) :
    ∃ a, grant = didGrantOf granter did a ∧ a.marshalable = true ∧ a.expiresAt = .ok a.expiry := by
  obtain ⟨granter', did', a, hke, rfl, hm, hexp⟩ := h.keyed _ _ hg
  obtain ⟨rfl, rfl⟩ := feeAllowanceByDIDKey_inj hke
  exact ⟨a, rfl, hm, hexp⟩

theorem inYears (h : b.Agrees) {a : Allowance Γ}
    (hg : b.grants.get (feeAllowanceByDIDKey granter did) = some (didGrantOf granter did a)) {exp : Time}
    (hexp : a.expiry = some exp) : exp.inYears = true := by
  obtain ⟨a', ha', hm, hat⟩ := h.grant hg
  obtain rfl : a = a' := congrArg Grant.allowance ha'
  exact Allowance.inYears_of_marshalable hm (hexp ▸ hat)

end Book.Agrees

/-- A queue key is that of an optional time of expiry. -/
def QueuedAt (Γ : Env) (granter did : KeyPart) (exp : Option Time) (k : Bytes) : Prop :=
  ∃ t, exp = some t ∧ didQueueKey Γ t granter did = k

theorem isSome_didDequeue (b : Book Γ) (granter did : KeyPart) (exp : Option Time) (k : Bytes) :
    ((b.didDequeue granter did exp).get k).isSome = true ↔
      (b.queue.get k).isSome = true ∧ ¬QueuedAt Γ granter did exp k := by
  cases exp with
  | none => simp [Book.didDequeue, QueuedAt]
  | some exp => simp [Book.didDequeue, QueuedAt, isSome_get_delete]

theorem isSome_didEnqueue (b : Book Γ) (granter did : KeyPart) (exp : Option Time) (k : Bytes) :
    ((b.didEnqueue granter did exp).get k).isSome = true ↔
      (b.queue.get k).isSome = true ∨ QueuedAt Γ granter did exp k := by
  cases exp with
  | none => simp [Book.didEnqueue, QueuedAt]
  | some exp => simp [Book.didEnqueue, QueuedAt, isSome_get_set]

theorem isSome_putDID_queue (b : Book Γ) (granter did : KeyPart) (a : Allowance Γ) (old new : Option Time)
    (hold : ∀ k, QueuedAt Γ granter did old k → (b.queue.get k).isSome = true) (k : Bytes) :
    ((b.putDID granter did a old new).queue.get k).isSome = true ↔
      (b.queue.get k).isSome = true ∧ ¬QueuedAt Γ granter did old k ∨ QueuedAt Γ granter did new k := by
  unfold Book.putDID
  dsimp only
  split
  · rename_i heq
    subst heq
    constructor
    · intro h
      by_cases hk : QueuedAt Γ granter did old k
      · exact .inr hk
      · exact .inl ⟨h, hk⟩
    · rintro (h | h)
      · exact h.1
      · exact hold k h
  · rw [isSome_didEnqueue, isSome_didDequeue]

section Laws

variable (laws : TimeLaws Γ)

include laws

variable {granter did : KeyPart} {exp : Time} {α : Type} {x : M Γ α} {b : Book Γ} {ctx : Ctx} {limit : Int32}
  {s t : State Γ} {u : Unit}

theorem didQueueKey_inj {t u : Time} (ht : t.inYears = true) (hu : u.inYears = true) {granter' did' : KeyPart}
    (h : didQueueKey Γ t granter did = didQueueKey Γ u granter' did') : t = u ∧ granter = granter' ∧ did = did' :=
  timedKey_inj laws 0x03 ht hu h

theorem parse_didQueueKey (hexp : exp.inYears = true) (granter did : KeyPart) :
    (parseGranterGrantee (didQueueKey Γ exp granter did) (1 + Γ.lenTime) : Outcome Error (KeyPart × KeyPart)) =
      .ok (granter, did) :=
  parse_timedKey laws 0x03 hexp granter did

namespace Book.Agrees

variable {b : Book Γ} {granter did : KeyPart}

variable {a : Allowance Γ}

theorem not_queuedAt (h : b.Agrees) {granter' did' : KeyPart} {a' : Allowance Γ} {exp' : Time}
    (hg : b.grants.get (feeAllowanceByDIDKey granter did) = some (didGrantOf granter did a))
    (hg' : b.grants.get (feeAllowanceByDIDKey granter' did') = some (didGrantOf granter' did' a')) (hexp' : a'.expiry = some exp')
    (hne : feeAllowanceByDIDKey granter' did' ≠ feeAllowanceByDIDKey granter did) :
    ¬QueuedAt Γ granter did a.expiry (didQueueKey Γ exp' granter' did') := by
  rintro ⟨exp, hexp, hke⟩
  obtain ⟨-, rfl, rfl⟩ := didQueueKey_inj laws (h.inYears hg' hexp') (h.inYears hg hexp) hke.symm
  exact hne rfl

theorem drop (h : b.Agrees) (hg : b.grants.get (feeAllowanceByDIDKey granter did) = some (didGrantOf granter did a)) :
    (b.dropDID granter did a.expiry).Agrees := by
  have hget : ∀ k, (b.dropDID granter did a.expiry).grants.get k =
      if k = feeAllowanceByDIDKey granter did then none else b.grants.get k := fun k => get_delete _ _ _
  refine ⟨fun k grant hk => ?_, fun k => ?_⟩
  · rw [hget] at hk
    split at hk
    · cases hk
    · exact h.keyed k grant hk
  · have hqu := isSome_didDequeue b granter did a.expiry k
    rw [show (b.dropDID granter did a.expiry).queue = b.didDequeue granter did a.expiry from rfl, hqu, h.queued]
    constructor
    · rintro ⟨⟨exp, granter', did', a', rfl, hg', hexp⟩, hnot⟩
      refine ⟨exp, granter', did', a', rfl, ?_, hexp⟩
      rw [hget, if_neg]
      · exact hg'
      · intro hke
        obtain ⟨rfl, rfl⟩ := feeAllowanceByDIDKey_inj hke
        obtain rfl : a = a' := congrArg Grant.allowance (Option.some.inj (hg.symm.trans hg'))
        exact hnot ⟨exp, hexp, rfl⟩
    · rintro ⟨exp, granter', did', a', rfl, hg', hexp⟩
      rw [hget] at hg'
      split at hg'
      · cases hg'
      · rename_i hne
        exact ⟨⟨exp, granter', did', a', rfl, hg', hexp⟩, h.not_queuedAt laws hg hg' hexp hne⟩

/-- A grant can be stored with its entry where there was none, or in the place of one whose entry is taken away. -/
theorem put (h : b.Agrees) {old : Option Time} (hm : a.marshalable = true) (hexp : a.expiresAt = .ok a.expiry)
    (hold : b.grants.get (feeAllowanceByDIDKey granter did) = none ∧ old = none ∨
      ∃ a₀, b.grants.get (feeAllowanceByDIDKey granter did) = some (didGrantOf granter did a₀) ∧ old = a₀.expiry) :
    (b.putDID granter did a old a.expiry).Agrees := by
  have hget : ∀ k, (b.putDID granter did a old a.expiry).grants.get k =
      if k = feeAllowanceByDIDKey granter did then some (didGrantOf granter did a) else b.grants.get k :=
    fun k => get_set _ _ _ _
  have hth : ∀ k, QueuedAt Γ granter did old k → (b.queue.get k).isSome = true := by
    rintro k ⟨t, ht, rfl⟩
    rcases hold with ⟨-, rfl⟩ | ⟨a₀, hg, rfl⟩
    · cases ht
    · exact (h.queued _).2 ⟨t, granter, did, a₀, rfl, hg, ht⟩
  refine ⟨fun k grant hk => ?_, fun k => ?_⟩
  · rw [hget] at hk
    split at hk
    · rename_i hke
      exact ⟨granter, did, a, hke, (Option.some.inj hk).symm, hm, hexp⟩
    · exact h.keyed k grant hk
  · rw [isSome_putDID_queue b granter did a old a.expiry hth, h.queued]
    constructor
    · rintro (⟨⟨exp, granter', did', a', rfl, hg', hexp'⟩, hnot⟩ | ⟨exp, hexp', rfl⟩)
      · refine ⟨exp, granter', did', a', rfl, ?_, hexp'⟩
        rw [hget, if_neg]
        · exact hg'
        · intro hke
          obtain ⟨rfl, rfl⟩ := feeAllowanceByDIDKey_inj hke
          rcases hold with ⟨hnone, -⟩ | ⟨a₀, hg, rfl⟩
          · cases hnone.symm.trans hg'
          · obtain rfl : a₀ = a' := congrArg Grant.allowance (Option.some.inj (hg.symm.trans hg'))
            exact hnot ⟨exp, hexp', rfl⟩
      · exact ⟨exp, granter, did, a, rfl, by rw [hget, if_pos rfl], hexp'⟩
    · rintro ⟨exp, granter', did', a', rfl, hg', hexp'⟩
      rw [hget] at hg'
      split at hg'
      · rename_i hke
        obtain ⟨rfl, rfl⟩ := feeAllowanceByDIDKey_inj hke
        obtain rfl : a = a' := congrArg Grant.allowance (Option.some.inj hg')
        exact .inr ⟨exp, hexp', rfl⟩
      · rename_i hne
        refine .inl ⟨⟨exp, granter', did', a', rfl, hg', hexp'⟩, ?_⟩
        rcases hold with ⟨-, rfl⟩ | ⟨a₀, hg, rfl⟩
        · rintro ⟨t, ht, -⟩
          cases ht
        · exact h.not_queuedAt laws hg hg' hexp' hne

end Book.Agrees

/-! ## The calls -/

/-- A call keeps the queue in step with the grants, however it ends, and leaves the accounts and the grants between them. -/
abbrev KeepsAgreement {α : Type} (x : M Γ α) : Prop :=
  Eff.Respects (fun s t => s.didBook.Agrees → t.didBook.Agrees ∧ (t.accounts, t.book) = (s.accounts, s.book)) x

omit laws in
theorem KeepsAgreement.bind {β : Type} {f : α → M Γ β} (hx : KeepsAgreement x) (hf : ∀ a, KeepsAgreement (f a)) :
    KeepsAgreement (x >>= f) :=
  Eff.Respects.bind (fun _ _ _ h h' hs => ⟨(h' (h hs).1).1, (h' (h hs).1).2.trans (h hs).2⟩) hx hf

omit laws in
theorem KeepsAgreement.of_unchanged
    (h : ∀ s, ((x s).2.didBook, (x s).2.accounts, (x s).2.book) = (s.didBook, s.accounts, s.book)) : KeepsAgreement x := by
  intro s hs
  obtain ⟨hb, ho⟩ := Prod.mk.inj (h s)
  exact ⟨hb ▸ hs, ho⟩

theorem revokeDIDAllowance_keeps (granter did : KeyPart) : KeepsAgreement (revokeDIDAllowance granter did : M Γ Unit) := by
  intro s hs
  cases hg : s.didGrant granter did with
  | none =>
    rw [revokeDIDAllowance_of_none hg]
    exact ⟨hs, rfl⟩
  | some grant =>
    obtain ⟨a, rfl, -, hexp⟩ := hs.grant hg
    rw [revokeDIDAllowance_apply hg hexp]
    exact ⟨hs.drop laws hg, rfl⟩

theorem updateDIDAllowance_keeps (granter did : KeyPart) (a : Allowance Γ) :
    KeepsAgreement (updateDIDAllowance granter did a) := by
  intro s hs
  cases hok : (updateDIDAllowance granter did a s).1.isOk with
  | false =>
    rw [updateDIDAllowance_of_not_ok hok]
    exact ⟨hs, rfl⟩
  | true =>
    obtain ⟨grant, old, new, hg, hold, hnew, hm, _, ht⟩ := updateDIDAllowance_inv (ok_unit_of_isOk hok)
    obtain ⟨a₀, rfl, -, -⟩ := hs.grant hg
    rw [ht, ← Allowance.expiry_eq hnew]
    rw [← Allowance.expiry_eq hnew] at hnew
    exact ⟨hs.put laws hm hnew (.inr ⟨a₀, hg, (Allowance.expiry_eq hold).symm⟩), rfl⟩

theorem settleDIDGrant_keeps (granter did : KeyPart) (granterText : Bytes) (v : Verdict (Allowance Γ)) :
    KeepsAgreement (settleDIDGrant granter did granterText v) := by
  unfold settleDIDGrant
  split
  · refine KeepsAgreement.bind (revokeDIDAllowance_keeps laws granter did).attempt fun _ => ?_
    split
    · exact .of_unchanged fun s => rfl
    · exact .of_unchanged fun s => rfl
  · split
    · exact .of_unchanged fun s => rfl
    · refine KeepsAgreement.bind (updateDIDAllowance_keeps laws granter did _).attempt fun r => ?_
      split
      · exact .of_unchanged fun s => rfl
      · exact .of_unchanged fun s => rfl

/-- The loop over the grants to a DID keeps the agreement in every turn, whatever grants it is given. -/
theorem tryDIDGrants_keeps (ctx : Ctx) (did : KeyPart) (fee : Γ.Coins) (msgs : List Bytes) (grants : List (Grant Γ)) :
    KeepsAgreement (tryDIDGrants ctx did fee msgs grants) := by
  induction grants with
  | nil => exact .of_unchanged fun s => rfl
  | cons grant rest ih =>
    unfold tryDIDGrants
    refine KeepsAgreement.bind ?_ fun r => ?_
    · unfold tryDIDGrant
      split
      · exact .of_unchanged fun s => rfl
      · exact settleDIDGrant_keeps laws _ did _ _
    · split
      · exact .of_unchanged fun s => rfl
      · exact ih

theorem useFirstAvailableDIDGrant_keeps (ctx : Ctx) (did : KeyPart) (fee : Γ.Coins) (msgs : List Bytes) :
    KeepsAgreement (useFirstAvailableDIDGrant ctx did fee msgs) :=
  fun s => tryDIDGrants_keeps laws ctx did fee msgs (s.didGrants did) s

theorem useGrantedFeesByDID_keeps (ctx : Ctx) (granter did : KeyPart) (fee : Γ.Coins) (msgs : List Bytes) :
    KeepsAgreement (useGrantedFeesByDID ctx granter did fee msgs) := by
  unfold useGrantedFeesByDID
  refine KeepsAgreement.bind (.of_unchanged fun s => ?_) fun allowance => ?_
  · unfold getDIDAllowance getDIDGrant
    rw [mapErr_apply, bind_pure_snd]
    rfl
  dsimp only
  split
  · refine KeepsAgreement.bind (revokeDIDAllowance_keeps laws granter did).attempt fun _ => ?_
    split
    · exact .of_unchanged fun s => rfl
    · exact .of_unchanged fun s => rfl
  · split
    · exact .of_unchanged fun s => rfl
    · exact KeepsAgreement.bind (.of_unchanged fun s => rfl) fun _ => updateDIDAllowance_keeps laws granter did _

theorem expireDIDAllowance_keeps (ctx : Ctx) (granter did : KeyPart) :
    KeepsAgreement (expireDIDAllowance ctx granter did : M Γ Unit) := by
  unfold expireDIDAllowance
  refine KeepsAgreement.bind (.of_unchanged fun s => ?_) fun allowance => ?_
  · unfold getDIDAllowance getDIDGrant
    rw [bind_pure_snd]
    rfl
  refine KeepsAgreement.bind (.of_unchanged fun s => rfl) fun r => ?_
  exact KeepsAgreement.bind (updateDIDAllowance_keeps laws granter did _) fun _ => .of_unchanged fun s => rfl

/-! ## Pruning -/

theorem expire_of_agrees (h : b.Agrees) {a : Allowance Γ}
    (hg : b.grants.get (feeAllowanceByDIDKey granter did) = some (didGrantOf granter did a)) (hexp : a.expiry = some exp) :
    b.expire feeAllowanceByDIDKey (didQueueKey Γ exp granter did) = .ok (b.dropDID granter did a.expiry) := by
  unfold Book.expire
  rw [parse_didQueueKey laws (h.inYears hg hexp), hexp]
  rfl

/-- Deleting entries of the queue one after another keeps the agreement; the grants it deletes are those of the entries. -/
theorem expireAll_of_agrees {keys : List Bytes} {b' : Book Γ} (h : b.Agrees) (hno : keys.Nodup)
    (hke : ∀ k ∈ keys, (b.queue.get k).isSome = true) (hal : Book.expireAll feeAllowanceByDIDKey keys b = .ok b') :
    b'.Agrees ∧ ∀ granter did a, b.grants.get (feeAllowanceByDIDKey granter did) = some (didGrantOf granter did a) →
      b'.grants.get (feeAllowanceByDIDKey granter did) = none →
        ∃ exp, a.expiry = some exp ∧ didQueueKey Γ exp granter did ∈ keys := by
  induction keys generalizing b with
  | nil =>
    obtain rfl := Outcome.ok.inj hal
    refine ⟨h, fun granter did a hg hnone => ?_⟩
    cases hg.symm.trans hnone
  | cons key rest ih =>
    obtain ⟨hf, hrest⟩ := nodup_cons.1 hno
    obtain ⟨exp₁, granter₁, did₁, a₁, rfl, hg₁, hexp₁⟩ := (h.queued key).1 (hke key mem_cons_self)
    unfold Book.expireAll at hal
    rw [expire_of_agrees laws h hg₁ hexp₁] at hal
    have hl : ∀ k ∈ rest, ((b.dropDID granter₁ did₁ a₁.expiry).queue.get k).isSome = true := by
      intro k hk
      refine (isSome_didDequeue b granter₁ did₁ a₁.expiry k).2 ⟨hke k (mem_cons_of_mem _ hk), ?_⟩
      rintro ⟨t, ht, rfl⟩
      obtain rfl : exp₁ = t := Option.some.inj (hexp₁.symm.trans ht)
      exact hf hk
    obtain ⟨ha, hd⟩ := ih (h.drop laws hg₁) hrest hl hal
    refine ⟨ha, fun granter did a hg hnone => ?_⟩
    by_cases hkey : feeAllowanceByDIDKey granter did = feeAllowanceByDIDKey granter₁ did₁
    · obtain ⟨rfl, rfl⟩ := feeAllowanceByDIDKey_inj hkey
      obtain rfl : a₁ = a := congrArg Grant.allowance (Option.some.inj (hg₁.symm.trans hg))
      exact ⟨exp₁, hexp₁, mem_cons_self⟩
    · have hs : (b.dropDID granter₁ did₁ a₁.expiry).grants.get (feeAllowanceByDIDKey granter did) =
          some (didGrantOf granter did a) := by
        rw [Book.dropDID, get_delete, if_neg hkey]
        exact hg
      obtain ⟨exp, hexp, hmem⟩ := hd granter did a hs hnone
      exact ⟨exp, hexp, mem_cons_of_mem _ hmem⟩

omit laws in
theorem removeExpiredDIDAllowances_ok (h : (removeExpiredDIDAllowances ctx limit).Succeeds s u t) :
    Book.expireAll feeAllowanceByDIDKey ((s.didBook.queued [0x03]
      (didAllowanceByExpTimeKey Γ.formatTimeBytes ctx.blockTime ++ [0x00])).take (iterations limit)) s.didBook = .ok t.didBook ∧
      (t.accounts, t.book) = (s.accounts, s.book) := by
  unfold removeExpiredDIDAllowances modifyDIDBook at h
  rw [read_bind_ok, lift_bind_ok] at h
  obtain ⟨b, hb, hs⟩ := h
  rw [modify_ok.1 hs]
  exact ⟨hb, rfl⟩

omit laws in
/-- The entries that pruning meets are in the queue, each once, and in the range up to the block. -/
theorem mem_queued {start stop k : Bytes} (hk : k ∈ b.queued start stop) :
    (b.queue.get k).isSome = true ∧ compare k stop = .lt := by
  obtain ⟨hmem, hr⟩ := mem_filter.1 hk
  obtain ⟨⟨k', _⟩, he, rfl⟩ := mem_map.1 hmem
  refine ⟨?_, beq_iff_eq.1 (Bool.and_eq_true_iff.1 hr).2⟩
  rw [(mem_entries _).1 he]
  rfl

theorem removeExpiredDIDAllowances_of_agrees (h : s.didBook.Agrees)
    (hcall : (removeExpiredDIDAllowances ctx limit).Succeeds s u t) :
    t.didBook.Agrees ∧ ∀ granter did grant, s.didGrant granter did = some grant → t.didGrant granter did = none →
      grant.allowance.ExpiresBy ctx.blockTime := by
  have hal := (removeExpiredDIDAllowances_ok hcall).1
  have hno : (s.didBook.queued [0x03] (didAllowanceByExpTimeKey Γ.formatTimeBytes ctx.blockTime ++ [0x00])).Nodup :=
    s.didBook.queue.nodup_keys.filter _
  obtain ⟨ha, hd⟩ := expireAll_of_agrees laws h (hno.sublist (take_sublist _ _))
    (fun k hk => (mem_queued (mem_of_mem_take hk)).1) hal
  refine ⟨ha, fun granter did grant hg hnone => ?_⟩
  obtain ⟨a, rfl, hm, hat⟩ := h.grant hg
  obtain ⟨exp, hexp, hmem⟩ := hd granter did a hg hnone
  have hb := before_of_timedKey laws 0x03 ctx (h.inYears hg hexp) (mem_queued (mem_of_mem_take hmem)).2
  exact ⟨exp, hexp ▸ hat, Time.not_before_of_before hb (Time.not_before_iff.2 (.inr ⟨rfl, Nat.le_refl _⟩))⟩

/-! ## Runs -/

theorem didStep_agrees (h : s.didBook.Agrees) (c : DIDCall Γ) :
    (didStep s c).didBook.Agrees ∧ ((didStep s c).accounts, (didStep s c).book) = (s.accounts, s.book) := by
  have hke : ∀ {x : M Γ Unit}, KeepsAgreement x →
      (x.commit s).didBook.Agrees ∧ ((x.commit s).accounts, (x.commit s).book) = (s.accounts, s.book) :=
    fun hx => Eff.Respects.commit (fun _ hs => ⟨hs, rfl⟩) hx s h
  cases c with
  | grantDIDAllowance ctx granter did a =>
    rw [didStep, DIDCall.call]
    rcases commit_cases (grantDIDAllowance ctx granter did a) s with hsame | ⟨u, hcall⟩
    · rw [hsame]
      exact ⟨h, rfl⟩
    · obtain ⟨exp, hnone, hexp, hm, _, ht⟩ := grantDIDAllowance_inv hcall
      obtain rfl := Allowance.expiry_eq hexp
      rw [ht]
      exact ⟨h.put laws hm hexp (.inl ⟨hnone, rfl⟩), rfl⟩
  | updateDIDAllowance ctx granter did a => exact hke (updateDIDAllowance_keeps laws granter did a)
  | expireDIDAllowance ctx granter did => exact hke (expireDIDAllowance_keeps laws ctx granter did)
  | revokeDIDAllowance ctx granter did => exact hke (revokeDIDAllowance_keeps laws granter did)
  | useGrantedFeesByDID ctx granter did fee msgs => exact hke (useGrantedFeesByDID_keeps laws ctx granter did fee msgs)
  | useFirstAvailableDIDGrant ctx did fee msgs =>
    exact hke ((useFirstAvailableDIDGrant_keeps laws ctx did fee msgs).bind fun _ => .of_unchanged fun s => rfl)
  | removeExpiredDIDAllowances ctx limit =>
    rw [didStep, DIDCall.call]
    rcases commit_cases (removeExpiredDIDAllowances ctx limit) s with hsame | ⟨u, hcall⟩
    · rw [hsame]
      exact ⟨h, rfl⟩
    · exact ⟨(removeExpiredDIDAllowances_of_agrees laws h hcall).1, (removeExpiredDIDAllowances_ok hcall).2⟩

theorem Book.Agrees.queued_iff (h : s.didBook.Agrees) (hexp : exp.inYears = true)
    (granter did : KeyPart) : s.DIDQueued exp granter did ↔ s.DIDGrantExpires exp granter did := by
  unfold State.DIDQueued State.DIDGrantExpires
  rw [h.queued]
  constructor
  · rintro ⟨exp', granter', did', a, hke, hg, hexp'⟩
    obtain ⟨rfl, rfl, rfl⟩ := didQueueKey_inj laws hexp (h.inYears hg hexp') hke
    obtain ⟨a', ha', -, hat⟩ := h.grant hg
    obtain rfl : a = a' := congrArg Grant.allowance ha'
    exact ⟨_, hg, hexp' ▸ hat⟩
  · rintro ⟨grant, hg, hat⟩
    obtain ⟨a, rfl, -, -⟩ := h.grant hg
    exact ⟨exp, granter, did, a, rfl, hg, Allowance.expiry_eq hat⟩

theorem prunesExpiredDID_of_agrees (h : s.didBook.Agrees) (c : DIDCall Γ) : PrunesExpiredDID s c := by
  cases c with
  | removeExpiredDIDAllowances ctx limit =>
    intro granter did grant hg hnone
    rcases commit_cases (removeExpiredDIDAllowances ctx limit) s with hco | ⟨u, hs⟩
    · rw [didStep, DIDCall.call, hco, hg] at hnone
      cases hnone
    · exact (removeExpiredDIDAllowances_of_agrees laws h hs).2 granter did grant hg hnone
  | _ => exact trivial

theorem didRun_agrees (accounts : Γ.σ) (calls : List (DIDCall Γ)) :
    (Run.run didStep (State.init accounts) calls).didBook.Agrees := by
  exact Run.run_invariant didStep (I := fun s : State Γ => s.didBook.Agrees) (fun s c hs => (didStep_agrees laws hs c).1)
    Book.Agrees.init calls

/-- In every state that is reached, the queue has an entry for a time, a granter and a DID exactly if a grant of the granter to
the DID is stored that expires at that time; and pruning, at every step, deletes expired grants only. -/
theorem did_queue_agrees (accounts : Γ.σ) (calls : List (DIDCall Γ)) : (∀ exp granter did, exp.inYears = true →
      ((Run.run didStep (State.init accounts) calls).DIDQueued exp granter did ↔
        (Run.run didStep (State.init accounts) calls).DIDGrantExpires exp granter did)) ∧
    Run.AllSteps didStep PrunesExpiredDID (State.init accounts) calls := by
  refine ⟨fun exp granter did hexp => (didRun_agrees laws accounts calls).queued_iff laws hexp granter did, ?_⟩
  exact Run.allSteps_invariant didStep (I := fun s : State Γ => s.didBook.Agrees)
    (fun s c hs => ⟨(didStep_agrees laws hs c).1, prunesExpiredDID_of_agrees laws hs c⟩) Book.Agrees.init calls

end Laws

/-! ## A local chain -/

def localDid : KeyPart := ⟨str "did:key:z6Mk", by decide, by decide⟩

/-- A grant whose time of expiry is moved to a later one, used and pruned. -/
def movedGrant : List (DIDCall localFees) :=
  [.grantDIDAllowance grantBlock alice localDid (.basic ⟨(5 : Int), some ⟨20, 0⟩⟩),
    .updateDIDAllowance updateBlock alice localDid (.basic ⟨(5 : Int), some ⟨40, 0⟩⟩),
    .useFirstAvailableDIDGrant useBlock localDid (2 : Int) [],
    .removeExpiredDIDAllowances pruneBlock 200,
    .removeExpiredDIDAllowances (blockAt 50 (by decide)) 200]

/-- The grant outlives the pruning before its new time, at which it is queued, and not the one after it. -/
theorem did_queue_agrees_movedGrant :
    ((Run.run didStep (State.init (Γ := localFees) ([] : List Bytes)) (movedGrant.take 4)).DIDQueued ⟨40, 0⟩ alice localDid ↔
      (Run.run didStep (State.init (Γ := localFees) ([] : List Bytes)) (movedGrant.take 4)).DIDGrantExpires ⟨40, 0⟩ alice
        localDid) ∧
    Run.AllSteps didStep PrunesExpiredDID (State.init ([] : List Bytes)) movedGrant ∧
    ((Run.run didStep (State.init (Γ := localFees) ([] : List Bytes)) (movedGrant.take 4)).didGrant alice localDid).isSome =
      true ∧
    ((Run.run didStep (State.init (Γ := localFees) ([] : List Bytes)) movedGrant).didGrant alice localDid).isNone = true := by
  refine ⟨(did_queue_agrees localFees_timeLaws ([] : List Bytes) (movedGrant.take 4)).1 ⟨40, 0⟩ alice localDid ?_,
    (did_queue_agrees localFees_timeLaws ([] : List Bytes) movedGrant).2, ?_, ?_⟩
  · decide +kernel
  · decide +kernel
  · decide +kernel

end Vera.Feegrant
