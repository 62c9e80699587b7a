import Vera.Feegrant.Keeper
import Vera.Lib.Run

/-!
# Pruning of expired grants

The queue says which grants between accounts pruning deletes, so a grant is safe as long as it expires no later than the
entries queued for its pair. A revocation leaves the entry of its grant in the queue (it deletes that of the exchanged pair),
and an update does not touch the queue; a grant or an update that outlives an entry left behind is deleted by it.
-/

namespace Vera.Feegrant

open Eff KVStore List Outcome
open Bytes (str)

/-- What is asked of `sdk.FormatTimeBytes`: a constant length, which the parser relies on, and the order of the times. -/
structure TimeLaws (Γ : Env) : Prop where
  length : ∀ t : Time, t.inYears = true → (Γ.formatTimeBytes t).length = Γ.lenTime
  order : ∀ t u : Time, t.inYears = true → u.inYears = true →
    (compare (Γ.formatTimeBytes t) (Γ.formatTimeBytes u) = .lt ↔ t.before u = true)

/-- A call on the grants between accounts. A call that fails is undone. -/
inductive Step (Γ : Env) where
  | grantAllowance (ctx : Ctx) (granter grantee : KeyPart) (feeAllowance : Allowance Γ)
  | updateAllowance (ctx : Ctx) (granter grantee : KeyPart) (feeAllowance : Allowance Γ)
  | useGrantedFees (ctx : Ctx) (granter grantee : KeyPart) (fee : Γ.Coins) (msgs : List Bytes)
  | revokeAllowance (ctx : Ctx) (granter grantee : KeyPart)
  | removeExpiredAllowances (ctx : Ctx) (limit : Int32)

variable {Γ : Env}

def Step.ctx : Step Γ → Ctx
  | .grantAllowance ctx .. | .updateAllowance ctx .. | .useGrantedFees ctx .. | .revokeAllowance ctx ..
  | .removeExpiredAllowances ctx _ => ctx

def Step.call : Step Γ → M Γ Unit
  | .grantAllowance ctx granter grantee feeAllowance => Feegrant.grantAllowance ctx granter grantee feeAllowance
  | .updateAllowance _ granter grantee feeAllowance => Feegrant.updateAllowance granter grantee feeAllowance
  | .useGrantedFees ctx granter grantee fee msgs => Feegrant.useGrantedFees ctx granter grantee fee msgs
  | .revokeAllowance _ granter grantee => Feegrant.revokeAllowance granter grantee
  | .removeExpiredAllowances ctx limit => Feegrant.removeExpiredAllowances ctx limit

def step (s : State Γ) (c : Step Γ) : State Γ := c.call.commit s

/-- Whether an allowance expires, and no later than a time. -/
def Allowance.ExpiresBy (a : Allowance Γ) (t : Time) : Prop := ∃ exp, a.expiresAt = .ok (some exp) ∧ t.before exp = false

/-- Whether a time of expiry is queued for a pair. -/
def Book.Queued (b : Book Γ) (exp : Time) (granter grantee : KeyPart) : Prop :=
  exp.inYears = true ∧ (b.queue.get (queueKey Γ exp granter grantee)).isSome = true

/-- An allowance outlives no time queued for the pair it is given to. -/
def Book.Fits (b : Book Γ) (granter grantee : KeyPart) (feeAllowance : Allowance Γ) : Prop :=
  ∀ exp, b.Queued exp granter grantee → feeAllowance.ExpiresBy exp

/-- No grant and no update outlives a time that is still queued for its pair. -/
def Step.Fits (s : State Γ) : Step Γ → Prop
  | .grantAllowance _ granter grantee feeAllowance | .updateAllowance _ granter grantee feeAllowance =>
    s.book.Fits granter grantee feeAllowance
  | _ => True

/-- What pruning deletes has expired by the time of the block. -/
def PrunesExpired (s : State Γ) : Step Γ → Prop
  | .removeExpiredAllowances ctx limit => ∀ granter grantee grant, s.grant granter grantee = some grant →
    (step s (.removeExpiredAllowances ctx limit)).grant granter grantee = none → grant.allowance.ExpiresBy ctx.blockTime
  | _ => True

/-! ## Queue and grants -/

/-- The entries of the queue are those of pairs, and no grant outlives the entries of its pair. -/
structure Book.Covered (b : Book Γ) : Prop where
  queued : ∀ k, (b.queue.get k).isSome = true → ∃ exp granter grantee, exp.inYears = true ∧ k = queueKey Γ exp granter grantee
  fits : ∀ granter grantee grant, b.grants.get (feeAllowanceKey granter grantee) = some grant →
    b.Fits granter grantee grant.allowance

theorem Book.covered_init : (Book.init : Book Γ).Covered := ⟨fun _ h => (nomatch h), fun _ _ _ h => (nomatch h)⟩

variable {b b' : Book Γ}

theorem Book.Covered.shrinks (h : b.Covered) (hs : b.Shrinks b') : b'.Covered :=
  ⟨fun k hk => h.queued k (hs.queue k hk), fun granter grantee grant hg exp hexp =>
      h.fits granter grantee grant (hs.grants _ _ hg) exp ⟨hexp.1, hs.queue _ hexp.2⟩⟩

theorem Book.Covered.set_grant (h : b.Covered) {granter grantee : KeyPart} {grant : Grant Γ}
    (hf : b.Fits granter grantee grant.allowance) :
    Book.Covered { b with grants := b.grants.set (feeAllowanceKey granter grantee) grant } := by
  refine ⟨h.queued, fun granter' grantee' grant' hg => ?_⟩
  by_cases hke : feeAllowanceKey granter' grantee' = feeAllowanceKey granter grantee
  · obtain ⟨rfl, rfl⟩ := feeAllowanceKey_inj hke
    obtain rfl : grant = grant' := Option.some.inj ((get_set_self _ _ _).symm.trans hg)
    exact hf
  · exact h.fits granter' grantee' grant' ((get_set_of_ne _ _ hke).symm.trans hg)

theorem expireAll_eq_ok {keys : List Bytes} (h : Book.expireAll feeAllowanceKey keys b = .ok b') :
    b.Shrinks b' ∧ ∀ granter grantee, (b.grants.get (feeAllowanceKey granter grantee)).isSome = true →
      b'.grants.get (feeAllowanceKey granter grantee) = none →
        ∃ k ∈ keys, parseGranterGrantee k (1 + Γ.lenTime) = (.ok (granter, grantee) : Outcome Error _) := by
  induction keys generalizing b with
  | nil =>
    obtain rfl := Outcome.ok.inj h
    refine ⟨.refl b, fun granter grantee hs hnone => ?_⟩
    rw [hnone] at hs
    cases hs
  | cons key rest ih =>
    unfold Book.expireAll at h
    obtain ⟨b₁, hexp, h⟩ := bind_eq_ok.1 h
    unfold Book.expire at hexp
    obtain ⟨⟨granter₁, grantee₁⟩, hpa, hb₁⟩ := bind_eq_ok.1 hexp
    obtain rfl := pure_eq_ok.1 hb₁
    obtain ⟨hsh, hd⟩ := ih h
    refine ⟨((Book.Shrinks.delete_grant b _).trans (.delete_queued _ key)).trans hsh, ?_⟩
    intro granter grantee hs hnone
    by_cases hke : feeAllowanceKey granter grantee = feeAllowanceKey granter₁ grantee₁
    · obtain ⟨rfl, rfl⟩ := feeAllowanceKey_inj hke
      exact ⟨key, mem_cons_self, hpa⟩
    · obtain ⟨k, hk, hp⟩ := hd granter grantee (by rw [get_delete, if_neg hke]; exact hs) hnone
      exact ⟨k, mem_cons_of_mem _ hk, hp⟩

theorem removeExpiredAllowances_ok {ctx : Ctx} {limit : Int32} {s t : State Γ} {u : Unit}
    (h : (removeExpiredAllowances ctx limit).Succeeds s u t) :
    Book.expireAll feeAllowanceKey ((s.book.queued [0x01]
      (allowanceByExpTimeKey Γ.formatTimeBytes ctx.blockTime ++ [0x00])).take (iterations limit)) s.book = .ok t.book := by
  unfold removeExpiredAllowances modifyBook at h
  rw [read_bind_ok, lift_bind_ok] at h
  obtain ⟨b, hb, h⟩ := h
  rw [modify_ok.1 h]
  exact hb

section Laws

variable (laws : TimeLaws Γ)

include laws

variable {exp t u : Time} {granter granter' grantee grantee' : KeyPart} {s : State Γ}

theorem parse_timedKey (tag : UInt8) (hexp : exp.inYears = true) (granter grantee : KeyPart) :
    (parseGranterGrantee (tag :: Γ.formatTimeBytes exp ++ (grantee.lengthPrefixed ++ granter.lengthPrefixed)) (1 + Γ.lenTime) :
      Outcome Error (KeyPart × KeyPart)) = .ok (granter, grantee) := by
  have h := parseGranterGrantee_append (ε := Error) (tag :: Γ.formatTimeBytes exp) granter grantee
  rwa [length_cons, laws.length exp hexp, Nat.add_comm, append_assoc] at h

theorem parse_queueKey (hexp : exp.inYears = true) (granter grantee : KeyPart) :
    (parseGranterGrantee (queueKey Γ exp granter grantee) (1 + Γ.lenTime) : Outcome Error (KeyPart × KeyPart)) =
      .ok (granter, grantee) :=
  parse_timedKey laws 0x01 hexp granter grantee

theorem formatTimeBytes_inj (ht : t.inYears = true) (hu : u.inYears = true)
    (h : Γ.formatTimeBytes t = Γ.formatTimeBytes u) : t = u := by
  have hself : ∀ o, compare o o ≠ Ordering.lt := fun o : Bytes => by simp
  have htu : ¬t.before u = true := fun hb => hself _ (h ▸ (laws.order t u ht hu).2 hb)
  have hut : ¬u.before t = true := fun hb => hself _ (h ▸ (laws.order u t hu ht).2 hb)
  exact Time.eq_of_not_before (Bool.not_eq_true _ ▸ htu) (Bool.not_eq_true _ ▸ hut)

theorem timedKey_inj (tag : UInt8) (ht : t.inYears = true) (hu : u.inYears = true)
    (h : tag :: Γ.formatTimeBytes t ++ (grantee.lengthPrefixed ++ granter.lengthPrefixed) =
      tag :: Γ.formatTimeBytes u ++ (grantee'.lengthPrefixed ++ granter'.lengthPrefixed)) :
    t = u ∧ granter = granter' ∧ grantee = grantee' := by
  have hp := parse_timedKey laws tag ht granter grantee
  rw [h, parse_timedKey laws tag hu granter' grantee'] at hp
  obtain ⟨rfl, rfl⟩ := Prod.mk.inj (Outcome.ok.inj hp)
  refine ⟨formatTimeBytes_inj laws ht hu ?_, rfl, rfl⟩
  exact (List.cons.inj (append_cancel_right h)).2

theorem queueKey_inj (ht : t.inYears = true) (hu : u.inYears = true)
    (h : queueKey Γ t granter grantee = queueKey Γ u granter' grantee') : t = u ∧ granter = granter' ∧ grantee = grantee' :=
  timedKey_inj laws 0x01 ht hu h

theorem before_of_timedKey (tag : UInt8) (ctx : Ctx) (hexp : exp.inYears = true)
    (h : compare (tag :: Γ.formatTimeBytes exp ++ (grantee.lengthPrefixed ++ granter.lengthPrefixed))
      (tag :: Γ.formatTimeBytes ctx.blockTime ++ [0x00]) = .lt) : exp.before ctx.blockTime = true := by
  rw [← laws.order exp ctx.blockTime hexp ctx.inYears]
  have hl : (tag :: Γ.formatTimeBytes exp).length = (tag :: Γ.formatTimeBytes ctx.blockTime).length := by
    simp [laws.length exp hexp, laws.length ctx.blockTime ctx.inYears]
  rw [Bytes.compare_append hl, List.compare_cons_cons, Std.ReflOrd.compare_self] at h
  -- for the time of the block itself the key goes on with a length, which is not zero
  have hrest : compare (grantee.lengthPrefixed ++ granter.lengthPrefixed) [0x00] = .gt := by
    show compare (UInt8.ofNat grantee.bytes.length :: (grantee.bytes ++ granter.lengthPrefixed)) [0x00] = .gt
    rw [List.compare_cons_cons, Bytes.compare_byte, grantee.toNat_length, UInt8.toNat_zero,
      Nat.compare_eq_gt.2 (length_pos_iff.2 grantee.nonempty)]
    rfl
  rw [hrest] at h
  generalize compare (Γ.formatTimeBytes exp) (Γ.formatTimeBytes ctx.blockTime) = o at h ⊢
  cases o with
  | lt => rfl
  | eq => cases h
  | gt => cases h

theorem before_of_queued (ctx : Ctx) (hexp : exp.inYears = true) (h : compare (queueKey Γ exp granter grantee)
      (allowanceByExpTimeKey Γ.formatTimeBytes ctx.blockTime ++ [0x00]) = .lt) : exp.before ctx.blockTime = true :=
  before_of_timedKey laws 0x01 ctx hexp h

/-! ## One step -/

theorem Book.Covered.enqueue {b : Book Γ} (h : b.Covered) {grant : Grant Γ} {exp : Option Time}
    (hexp : grant.allowance.expiresAt = .ok exp) (hm : grant.allowance.marshalable = true)
    (hf : b.Fits granter grantee grant.allowance) :
    Book.Covered ⟨b.grants.set (feeAllowanceKey granter grantee) grant, b.enqueue granter grantee exp⟩ := by
  cases exp with
  | none => exact h.set_grant hf
  | some exp =>
    have hy := Allowance.inYears_of_marshalable hm hexp
    have hs := h.set_grant hf
    refine ⟨fun k hk => ?_, fun granter' grantee' grant' hg exp' hq => ?_⟩
    · rcases (isSome_get_set _ _ _ _).1 hk with hk | rfl
      · exact h.queued k hk
      · exact ⟨exp, granter, grantee, hy, rfl⟩
    · obtain ⟨hy', hk⟩ := hq
      rcases (isSome_get_set _ _ _ _).1 hk with hk | hk
      · exact hs.fits granter' grantee' grant' hg exp' ⟨hy', hk⟩
      · obtain ⟨rfl, rfl, rfl⟩ := queueKey_inj laws hy hy' hk
        obtain rfl : grant = grant' := Option.some.inj ((get_set_self _ _ _).symm.trans hg)
        exact ⟨exp, hexp, Time.not_before_iff.2 (.inr ⟨rfl, Nat.le_refl _⟩)⟩

theorem prunesExpired_of_covered (h : s.book.Covered) (ctx : Ctx) (limit : Int32) :
    PrunesExpired s (.removeExpiredAllowances ctx limit) := by
  intro granter grantee grant hg hnone
  rcases commit_cases (removeExpiredAllowances ctx limit) s with hco | ⟨u, hs⟩
  · rw [step, Step.call, hco, hg] at hnone
    cases hnone
  · have ha := removeExpiredAllowances_ok hs
    obtain ⟨k, hk, hp⟩ := (expireAll_eq_ok ha).2 granter grantee (by rw [show s.book.grants.get _ = _ from hg]; rfl) hnone
    -- the entry that names the grant is that of its pair, for a time before the block
    obtain ⟨hk, hr⟩ := mem_filter.1 (mem_of_mem_take hk)
    obtain ⟨⟨k', _⟩, he, rfl⟩ := mem_map.1 hk
    have hqu : (s.book.queue.get k').isSome = true := by
      rw [(mem_entries _).1 he]
      rfl
    obtain ⟨exp, granter', grantee', hexp, rfl⟩ := h.queued k' hqu
    rw [parse_queueKey laws hexp] at hp
    obtain ⟨rfl, rfl⟩ := Prod.mk.inj (Outcome.ok.inj hp)
    have hb := before_of_queued laws ctx hexp (beq_iff_eq.1 (Bool.and_eq_true_iff.1 hr).2)
    obtain ⟨x, hx, hle⟩ := h.fits granter' grantee' grant hg exp ⟨hexp, hqu⟩
    exact ⟨x, hx, Time.not_before_of_before hb hle⟩

theorem step_covered {c : Step Γ} (h : s.book.Covered) (hf : c.Fits s) : (step s c).book.Covered := by
  refine commit_of_ok (P := fun t : State Γ => t.book.Covered) h fun u t hcall => ?_
  cases c with
  | grantAllowance ctx granter grantee feeAllowance =>
    obtain ⟨exp, grant, hexp, hm, rfl, ht⟩ := grantAllowance_ok hcall
    rw [ht]
    exact h.enqueue laws hexp hm hf
  | updateAllowance ctx granter grantee feeAllowance =>
    obtain ⟨grant, -, rfl, ht⟩ := updateAllowance_ok hcall
    rw [ht]
    exact h.set_grant hf
  | useGrantedFees ctx granter grantee fee msgs =>
    rcases useGrantedFees_ok hcall with hs | ⟨grant, grant', hg, hexp, ht⟩
    · exact h.shrinks hs
    · rw [ht]
      refine h.set_grant fun exp hq => ?_
      obtain ⟨x, hx, hle⟩ := h.fits granter grantee grant hg exp hq
      exact ⟨x, hexp.trans hx, hle⟩
  | revokeAllowance ctx granter grantee =>
    have hs := revokeAllowance_shrinks granter grantee s
    rw [show revokeAllowance granter grantee s = _ from hcall] at hs
    exact h.shrinks hs
  | removeExpiredAllowances ctx limit =>
    exact h.shrinks (expireAll_eq_ok (removeExpiredAllowances_ok hcall)).1

/-! ## Runs -/

/-- In a run in which no grant and no update outlives a time that is still queued for its pair, pruning deletes expired grants
only. -/
theorem pruning_deletes_expired (accounts : Γ.σ) (calls : List (Step Γ))
    (h : Run.AllSteps step (fun s c => c.Fits s) (State.init accounts) calls) :
    Run.AllSteps step PrunesExpired (State.init accounts) calls := by
  refine Run.allSteps_induction step (I := fun s : State Γ => s.book.Covered)
    (fun s c hs hf => ⟨step_covered laws hs hf, ?_⟩) h Book.covered_init
  cases c with
  | removeExpiredAllowances ctx limit => exact prunesExpired_of_covered laws hs ctx limit
  | _ => exact trivial

end Laws

/-! ## A local chain -/

/-- Accounts in a list, coins of one denomination, and times as two numbers. -/
def localFees : Env where
  σ := List Bytes
  hasAccount accounts address := accounts.contains address
  newAccount accounts address := address :: accounts
  blockedAddr _ := false
  accAddressString address := address
  stringToBytes text :=
    match KeyPart.ofBytes text with
    | some address => .ok address
    | none => .error (str "empty address string is not allowed")
  formatTimeBytes t := Bytes.bigEndian 8 t.sec.toNat ++ Bytes.bigEndian 4 t.nsec
  lenTime := 12
  Coins := Int
  safeSub a b := (a - b, decide (a < b))
  isZero a := decide (a = 0)
  empty a := decide (a = 0)

theorem localFees_timeLaws : TimeLaws localFees where
  length t _ := by
    show (Bytes.bigEndian 8 t.sec.toNat ++ Bytes.bigEndian 4 t.nsec).length = 12
    simp
  order t u ht hu := by
    rw [Time.inYears_iff] at ht hu
    show compare (Bytes.bigEndian 8 t.sec.toNat ++ Bytes.bigEndian 4 t.nsec)
      (Bytes.bigEndian 8 u.sec.toNat ++ Bytes.bigEndian 4 u.nsec) = .lt ↔ _
    rw [Bytes.compare_append (by simp), Bytes.compare_bigEndian (by omega) (by omega),
      Bytes.compare_bigEndian (by omega) (by omega), Time.before_iff, Ordering.then_eq_lt, Nat.compare_eq_lt, Nat.compare_eq_eq,
      Nat.compare_eq_lt]
    omega

def alice : KeyPart := ⟨str "alice", by decide, by decide⟩

def bob : KeyPart := ⟨str "bob", by decide, by decide⟩

def blockAt (seconds : Nat) (h : seconds < 315537897600) : Ctx :=
  ⟨⟨seconds, 0⟩, Time.inYears_iff.2 ⟨by simp, Int.ofNat_lt.2 h, show 0 < 1000000000 by decide⟩⟩

/-- The blocks of a grant, of an update, of a use and of a pruning. -/
def grantBlock : Ctx := blockAt 10 (by decide)

def updateBlock : Ctx := blockAt 11 (by decide)

def useBlock : Ctx := blockAt 15 (by decide)

def pruneBlock : Ctx := blockAt 30 (by decide)

/-- A grant that expires is pruned after its time. -/
def expiringGrant : List (Step localFees) :=
  [.grantAllowance grantBlock alice bob (.basic ⟨(5 : Int), some ⟨20, 0⟩⟩),
    .useGrantedFees useBlock alice bob (2 : Int) [],
    .removeExpiredAllowances pruneBlock 200]

/-- A grant that was revoked leaves its entry in the queue; the grant after it, which never expires, is pruned by it. -/
def leftoverEntry : List (Step localFees) :=
  [.grantAllowance grantBlock alice bob (.basic ⟨(5 : Int), some ⟨20, 0⟩⟩),
    .revokeAllowance useBlock alice bob,
    .grantAllowance (blockAt 16 (by decide)) alice bob (.basic ⟨(7 : Int), none⟩),
    .removeExpiredAllowances pruneBlock 200]

/-- The first grant meets an empty queue, and pruning deletes it once it has expired. -/
theorem pruning_deletes_expired_expiringGrant :
    Run.AllSteps step PrunesExpired (State.init ([] : List Bytes)) expiringGrant ∧
      ((Run.run step (State.init (Γ := localFees) ([] : List Bytes)) (expiringGrant.take 2)).grant alice bob).isSome = true ∧
      ((Run.run step (State.init (Γ := localFees) ([] : List Bytes)) expiringGrant).grant alice bob).isNone = true := by
  refine ⟨pruning_deletes_expired localFees_timeLaws ([] : List Bytes) expiringGrant ⟨?_, trivial, trivial, trivial⟩, ?_, ?_⟩
  · exact fun exp hq => nomatch hq.2
  · decide +kernel
  · decide +kernel

/-- Pruning deletes a grant that never expires. -/
theorem pruning_deletes_expired_false : leftoverEntry.Pairwise (fun c d => d.ctx.blockTime.before c.ctx.blockTime = false) ∧
      ¬Run.AllSteps step PrunesExpired (State.init ([] : List Bytes)) leftoverEntry := by
  refine ⟨by decide +kernel, fun h => ?_⟩
  obtain ⟨-, -, -, hp, -⟩ := h
  obtain ⟨exp, hexp, -⟩ := hp alice bob ⟨str "alice", str "bob", .basic ⟨(7 : Int), none⟩⟩ rfl rfl
  cases hexp

end Vera.Feegrant
