import Vera.Feegrant.DIDGrants
import Vera.Lib.Run

/-!
# What a periodic allowance pays in all

A periodic allowance takes a fee from what is left of its period and from what is left in total, and a new period starts with
the lesser of the limit of a period and what is left in total. If both limits are the same amount at first, what is left of
the period and what is left in total stay the same amount: however many periods go by, the allowance pays that amount once,
and then it is revoked.
-/

namespace Vera.Feegrant

open Eff KVStore
open Bytes (str)

/-- Coins of the one denomination credits are counted in, and what `SafeSub` and `IsZero` do on them. -/
structure CreditCoins (Γ : Env) where
  /-- `sdk.NewCoins(sdk.NewCoin("ucredit", n))`. -/
  credits : Nat → Γ.Coins
  safeSub_neg : ∀ m n, (Γ.safeSub (credits m) (credits n)).2 = decide (m < n)
  safeSub : ∀ m n, n ≤ m → (Γ.safeSub (credits m) (credits n)).1 = credits (m - n)
  isZero : ∀ n, Γ.isZero (credits n) = decide (n = 0)
  empty : ∀ n, Γ.empty (credits n) = decide (n = 0)

variable {Γ : Env}

/-! ## The allowance -/

/-- A periodic allowance that never expires, with one amount left both of the period and in total. -/
structure Budget (C : CreditCoins Γ) (limit : Nat) (period : Int) (left : Nat) (a : PeriodicAllowance Γ) : Prop where
  basic : a.basic = ⟨C.credits left, none⟩
  period : a.period = period
  periodSpendLimit : a.periodSpendLimit = C.credits limit
  periodCanSpend : a.periodCanSpend = C.credits left
  periodReset : a.periodReset.inYears = true

theorem periodReset_inYears {blockTime periodReset : Time} {period : Int} (hno : blockTime.inYears = true)
    (hr : periodReset.inYears = true) (hne : (blockTime.add period).inYears = true)
    (hov : blockTime.before periodReset = false) (hw : blockTime.after (periodReset.add period) = false) :
    (periodReset.add period).inYears = true := by
  have hw := Time.not_before_iff.1 (show (periodReset.add period).before blockTime = false from hw)
  rw [Time.not_before_iff] at hov
  rw [Time.inYears_iff] at hno hr hne ⊢
  simp only [Time.add] at hw hne ⊢
  omega

section Budget

variable {C : CreditCoins Γ} {limit : Nat} {period : Int} {left n : Nat} {a : PeriodicAllowance Γ} {blockTime : Time}

theorem Budget.tryResetPeriod (h : Budget C limit period left a) (hp : 0 < left) (hle : left ≤ limit)
    (hno : blockTime.inYears = true) (hne : (blockTime.add period).inYears = true) :
    Budget C limit period left (a.tryResetPeriod blockTime) := by
  unfold PeriodicAllowance.tryResetPeriod
  split
  · exact h
  · rename_i hov
    refine ⟨h.basic, h.period, h.periodSpendLimit, ?_, ?_⟩
    · -- less is left than a period's limit, or nothing was spent yet
      simp only [h.basic, h.periodSpendLimit, C.safeSub_neg, C.empty, Nat.ne_of_gt hp]
      split
      · rfl
      · rename_i hnot
        rw [show left = limit by simp at hnot; omega]
    · dsimp only
      rw [h.period]
      split
      · exact hne
      · rename_i hw
        exact periodReset_inYears hno h.periodReset hne (Bool.not_eq_true _ ▸ hov) (Bool.not_eq_true _ ▸ hw)

/-- A fee up to what is left is accepted; the allowance is to be removed when nothing is left. -/
theorem Budget.accept_of_le (h : Budget C limit period left a) (hp : 0 < left) (hle : left ≤ limit)
    (hno : blockTime.inYears = true) (hne : (blockTime.add period).inYears = true) (hn : n ≤ left) :
    ∃ a', a.accept blockTime (C.credits n) = ⟨decide (left - n = 0), none, a'⟩ ∧ Budget C limit period (left - n) a' := by
  have hr := h.tryResetPeriod hp hle hno hne
  unfold PeriodicAllowance.accept
  rw [h.basic]
  generalize a.tryResetPeriod blockTime = a₁ at hr ⊢
  refine ⟨{ a₁ with periodCanSpend := C.credits (left - n), basic := ⟨C.credits (left - n), none⟩ }, ?_, ?_⟩
  · simp only [Option.any_none, Bool.false_eq_true, if_false, PeriodicAllowance.deduct, hr.periodCanSpend, hr.basic,
      C.safeSub_neg, Nat.not_lt.2 hn, decide_false, C.empty, Nat.ne_of_gt hp, C.safeSub left n hn, C.isZero]
  · exact ⟨rfl, hr.period, hr.periodSpendLimit, rfl, hr.periodReset⟩

theorem Budget.accept_of_lt (h : Budget C limit period left a) (hp : 0 < left) (hle : left ≤ limit)
    (hno : blockTime.inYears = true) (hne : (blockTime.add period).inYears = true) (hn : left < n) :
    ∃ e a', a.accept blockTime (C.credits n) = ⟨false, some e, a'⟩ := by
  have hr := h.tryResetPeriod hp hle hno hne
  unfold PeriodicAllowance.accept
  rw [h.basic]
  generalize a.tryResetPeriod blockTime = a₁ at hr ⊢
  simp only [Option.any_none, Bool.false_eq_true, if_false, PeriodicAllowance.deduct, hr.periodCanSpend, C.safeSub_neg, hn,
    decide_true, if_true]
  exact ⟨_, _, rfl⟩

end Budget

/-! ## The calls on a grant to a DID that does not expire -/

section Calls

variable {granter did : KeyPart} {s t : State Γ} {a a' : Allowance Γ} {u : Unit}

/-- The store after a grant to a DID is stored, with the events of the call. -/
def State.withDIDGrant (s : State Γ) (granter did : KeyPart) (grant : Grant Γ) (events : List Event) : State Γ :=
  { s with
    didBook := { s.didBook with grants := s.didBook.grants.set (feeAllowanceByDIDKey granter did) grant }
    events := s.events ++ events }

/-- The store after a grant to a DID is deleted, with the events of the call. -/
def State.withoutDIDGrant (s : State Γ) (granter did : KeyPart) (events : List Event) : State Γ :=
  { s with
    didBook := { s.didBook with grants := s.didBook.grants.delete (feeAllowanceByDIDKey granter did) }
    events := s.events ++ events }

@[simp] theorem State.didGrant_withDIDGrant (grant : Grant Γ) (events : List Event) :
    (s.withDIDGrant granter did grant events).didGrant granter did = some grant := get_set_self _ _ _

@[simp] theorem State.didGrant_withoutDIDGrant (events : List Event) :
    (s.withoutDIDGrant granter did events).didGrant granter did = none := by
  unfold State.didGrant State.withoutDIDGrant
  rw [get_delete, if_pos rfl]

theorem updateDIDAllowance_of_grant (h : s.didGrant granter did = some (didGrantOf granter did a))
    (ha : a.expiresAt = .ok none) (ha' : a'.expiresAt = .ok none) (hm : a'.marshalable = true) :
    (updateDIDAllowance granter did a').Succeeds s () (s.withDIDGrant granter did (didGrantOf granter did a')
        [.updateDIDFeeGrant (Γ.accAddressString granter.bytes) did.bytes]) := by
  have hap := updateDIDAllowance_apply h ha ha'
  rw [if_pos hm] at hap
  exact hap

theorem revokeDIDAllowance_of_grant (h : s.didGrant granter did = some (didGrantOf granter did a))
    (ha : a.expiresAt = .ok none) :
    (revokeDIDAllowance granter did).Succeeds s ()
      (s.withoutDIDGrant granter did [.revokeDIDFeeGrant (Γ.accAddressString granter.bytes) did.bytes]) :=
  revokeDIDAllowance_apply h ha

theorem grantDIDAllowance_ok {ctx : Ctx} (h : (grantDIDAllowance ctx granter did a).Succeeds s u t) :
    a.marshalable = true ∧ t.didGrant granter did = some (didGrantOf granter did a) := by
  obtain ⟨exp, -, -, hm, _, rfl⟩ := grantDIDAllowance_inv h
  exact ⟨hm, get_set_self _ _ _⟩

theorem updateDIDAllowance_ok (h : (updateDIDAllowance granter did a).Succeeds s u t) :
    a.marshalable = true ∧ t.didGrant granter did = some (didGrantOf granter did a) := by
  obtain ⟨grant, old, new, -, -, -, hm, _, rfl⟩ := updateDIDAllowance_inv h
  exact ⟨hm, get_set_self _ _ _⟩

end Calls

/-! ## Payments -/

/-- A fee to be paid for a DID: the block, the amount in credits and the messages of the transaction. -/
structure Payment where
  ctx : Ctx
  amount : Nat
  msgs : List Bytes
  deriving Repr, DecidableEq

/-- A payment of a positive amount, in a block from which a period ends in the range of a protobuf timestamp. -/
def Payment.Regular (period : Int) (q : Payment) : Prop := 0 < q.amount ∧ (q.ctx.blockTime.add period).inYears = true

/-- Pay from the grant of one granter: `UseGrantedFeesByDID`. -/
def payFrom (C : CreditCoins Γ) (granter did : KeyPart) (q : Payment) : M Γ Unit :=
  useGrantedFeesByDID q.ctx granter did (C.credits q.amount) q.msgs

/-- Pay from the first grant that can be used: `UseFirstAvailableDIDGrant`. -/
def payFirst (C : CreditCoins Γ) (did : KeyPart) (q : Payment) : M Γ KeyPart :=
  useFirstAvailableDIDGrant q.ctx did (C.credits q.amount) q.msgs

/-- What is left of a granter's grant to a DID; a grant with nothing left is not there. -/
def Left (C : CreditCoins Γ) (limit : Nat) (period : Int) (granter did : KeyPart) (s : State Γ) : Nat → Prop
  | 0 => s.didGrant granter did = none
  | left + 1 => ∃ a, s.didGrant granter did = some (didGrantOf granter did (.periodic a)) ∧
    Budget C limit period (left + 1) a ∧ left + 1 ≤ limit

/-- A DID has no grant but that of one granter. -/
def OnlyGrant (granter did : KeyPart) (s : State Γ) : Prop :=
  ∀ k, (s.didBook.grants.get k).isSome = true → (feeAllowanceScanByDID did).isPrefixOf k = true →
    k = feeAllowanceByDIDKey granter did

section Payments

variable {C : CreditCoins Γ} {limit : Nat} {period : Int} {granter did : KeyPart} {s : State Γ} {left : Nat} {q : Payment}

theorem Left.grant (h : Left C limit period granter did s left) (hp : 0 < left) :
    ∃ a, s.didGrant granter did = some (didGrantOf granter did (.periodic a)) ∧ Budget C limit period left a ∧ left ≤ limit := by
  cases left with
  | zero => exact absurd hp (Nat.lt_irrefl 0)
  | succ left => exact h

variable {a : PeriodicAllowance Γ} {payments : List Payment}

theorem left_of_grant (hg : s.didGrant granter did = some (didGrantOf granter did (.periodic a)))
    (hb : Budget C limit period left a) (hp : 0 < left) (hl : left ≤ limit) :
    Left C limit period granter did s left := by
  cases left with
  | zero => exact absurd hp (Nat.lt_irrefl 0)
  | succ left => exact ⟨a, hg, hb, hl⟩

/-- What the grant answers to a payment up to what is left: it is used up and to be removed, or it is kept with the rest. -/
theorem Budget.spend (granter did : KeyPart) (h : Budget C limit period left a) (hp : 0 < left) (hl : left ≤ limit)
    (hq : q.Regular period) (hle : q.amount ≤ left) :
    (∃ a', Allowance.accept q.ctx.blockTime (C.credits q.amount) q.msgs (.periodic a) = ⟨true, none, a'⟩ ∧
      ∀ t : State Γ, t.didGrant granter did = none → Left C limit period granter did t (left - q.amount)) ∨
    ∃ a', Allowance.accept q.ctx.blockTime (C.credits q.amount) q.msgs (.periodic a) = ⟨false, none, .periodic a'⟩ ∧
      Allowance.marshalable (.periodic a') = true ∧ Allowance.expiresAt (.periodic a') = .ok none ∧
      ∀ t, t.didGrant granter did = some (didGrantOf granter did (.periodic a')) →
        Left C limit period granter did t (left - q.amount) := by
  obtain ⟨a', ha, hb'⟩ := h.accept_of_le hp hl q.ctx.inYears hq.2 hle
  rw [Allowance.accept, ha]
  cases hrest : left - q.amount with
  | zero => exact .inl ⟨.periodic a', by simp, fun t ht => ht⟩
  | succ rest =>
    rw [hrest] at hb'
    refine .inr ⟨a', by simp, ?_, ?_, fun t ht => ⟨a', ht, hb', by omega⟩⟩
    · rw [Allowance.marshalable, hb'.basic]
      exact hb'.periodReset
    · rw [Allowance.expiresAt, hb'.basic]

theorem Budget.expiresAt (h : Budget C limit period left a) : Allowance.expiresAt (.periodic a) = .ok none := by
  rw [Allowance.expiresAt, h.basic]

/-! ### From the grant of one granter -/

theorem payFrom_of_le (h : Left C limit period granter did s left) (hq : q.Regular period) (hle : q.amount ≤ left) :
    ∃ t, (payFrom C granter did q).Succeeds s () t ∧ Left C limit period granter did t (left - q.amount) := by
  have hp : 0 < left := Nat.lt_of_lt_of_le hq.1 hle
  obtain ⟨a, hg, hb, hli⟩ := h.grant hp
  unfold payFrom useGrantedFeesByDID Eff.Succeeds
  rw [(mapErr_ok.2 (getDIDAllowance_of_grant hg)).bind_eq]
  rcases hb.spend granter did hp hli hq hle with
    ⟨a', ha, hl⟩ | ⟨a', ha, hm, hexp, hl⟩
  · rw [ha]
    dsimp only
    rw [if_pos rfl, (revokeDIDAllowance_of_grant hg hb.expiresAt).attempt.bind_eq]
    exact ⟨_, rfl, hl _ (State.didGrant_withoutDIDGrant (s := s) [])⟩
  · rw [ha]
    dsimp only
    rw [if_neg Bool.false_ne_true, emit, modify_bind]
    exact ⟨_, updateDIDAllowance_of_grant (a := .periodic a) hg hb.expiresAt hexp hm,
      hl _ (State.didGrant_withDIDGrant _ _)⟩

theorem payFrom_of_lt (h : Left C limit period granter did s left) (hq : q.Regular period) (hlt : left < q.amount) :
    (payFrom C granter did q s).1.isOk = false := by
  unfold payFrom useGrantedFeesByDID
  cases left with
  | zero =>
    have hget : ∀ f : Error → Error, (getDIDAllowance granter did).mapErr f s =
        (.err (f ⟨.notFound, str "fee-grant not found for DID"⟩), s) := by
      intro f
      rw [mapErr_apply, getDIDAllowance_of_none h]
      rfl
    rw [bind_of_err (hget _)]
    rfl
  | succ left =>
    obtain ⟨a, hg, hb, hl⟩ := h
    obtain ⟨e, a', ha⟩ := hb.accept_of_lt (Nat.succ_pos _) hl q.ctx.inYears hq.2 hlt
    rw [(mapErr_ok.2 (getDIDAllowance_of_grant hg)).bind_eq, Allowance.accept, ha]
    rfl

/-- Payments from a grant are all accepted exactly when they sum to at most what is left of it. -/
theorem payFrom_all_iff (h : Left C limit period granter did s left) (hp : ∀ q ∈ payments, q.Regular period) :
    Run.AllSteps (fun s q => (payFrom C granter did q).commit s) (fun s q => (payFrom C granter did q s).1.isOk = true) s
        payments ↔ (payments.map (·.amount)).sum ≤ left := by
  have hta : ∀ s left q, Left C limit period granter did s left → q.Regular period →
      ((payFrom C granter did q s).1.isOk = true ↔ q.amount ≤ left) := by
    intro s left q h hq
    by_cases hle : q.amount ≤ left
    · obtain ⟨t, ht, -⟩ := payFrom_of_le h hq hle
      simp [hle, show payFrom C granter did q s = _ from ht, Outcome.isOk]
    · simp [hle, payFrom_of_lt h hq (Nat.lt_of_not_le hle)]
  refine Run.allSteps_iff_sum_le _ hta (fun s left q h hq hle => ?_) h hp
  obtain ⟨t, ht, hl⟩ := payFrom_of_le h hq hle
  rw [ht.commit_eq]
  exact hl

/-! ### From the first grant that can be used -/

theorem OnlyGrant.withDIDGrant (h : OnlyGrant granter did s) (grant : Grant Γ) (events : List Event) :
    OnlyGrant granter did (s.withDIDGrant granter did grant events) := by
  intro k hk hs
  rcases (isSome_get_set _ _ _ _).1 hk with hk | rfl
  · exact h k hk hs
  · rfl

theorem OnlyGrant.withoutDIDGrant (h : OnlyGrant granter did s) (events : List Event) :
    OnlyGrant granter did (s.withoutDIDGrant granter did events) :=
  fun k hk hs => h k ((isSome_get_delete _ _ _).1 hk).1 hs

theorem OnlyGrant.didGrants (h : OnlyGrant granter did s) : s.didGrants did = (s.didGrant granter did).toList := by
  have hs : (feeAllowanceScanByDID did).isPrefixOf (feeAllowanceByDIDKey granter did) = true :=
    List.isPrefixOf_iff_prefix.2 (List.prefix_append _ _)
  have hf : s.didBook.grants.entries.filter (fun e => (feeAllowanceScanByDID did).isPrefixOf e.1) =
      s.didBook.grants.entries.filter (fun e => e.1 = feeAllowanceByDIDKey granter did) := by
    refine List.filter_congr fun e he => ?_
    have hso : (s.didBook.grants.get e.1).isSome = true := by
      rw [(mem_entries _).1 he]
      rfl
    rw [Bool.eq_iff_iff, decide_eq_true_eq]
    exact ⟨h e.1 hso, fun hke => hke ▸ hs⟩
  unfold State.didGrants State.didGrant
  rw [hf, entries_filter_key]
  cases s.didBook.grants.get (feeAllowanceByDIDKey granter did) <;> rfl

theorem payFirst_eq (ha : Γ.stringToBytes (Γ.accAddressString granter.bytes) = .ok granter)
    (hon : OnlyGrant granter did s) {a : Allowance Γ} (hg : s.didGrant granter did = some (didGrantOf granter did a)) :
    payFirst C did q s = (do
      match ← settleDIDGrant granter did (Γ.accAddressString granter.bytes)
        (a.accept q.ctx.blockTime (C.credits q.amount) q.msgs) with
      | some granter => pure granter
      | none => Eff.fail ⟨.notFound, str "no usable fee-grant found for DID"⟩ : M Γ KeyPart) s := by
  unfold payFirst useFirstAvailableDIDGrant
  rw [read_bind, hon.didGrants, hg, Option.toList_some, tryDIDGrants, tryDIDGrant,
    show (didGrantOf granter did a).granter = Γ.accAddressString granter.bytes from rfl, ha]
  rfl

theorem payFirst_of_le (had : Γ.stringToBytes (Γ.accAddressString granter.bytes) = .ok granter)
    (h : OnlyGrant granter did s ∧ Left C limit period granter did s left) (hq : q.Regular period) (hle : q.amount ≤ left) :
    ∃ t, (payFirst C did q).Succeeds s granter t ∧ OnlyGrant granter did t ∧
      Left C limit period granter did t (left - q.amount) := by
  obtain ⟨hon, h⟩ := h
  have hp : 0 < left := Nat.lt_of_lt_of_le hq.1 hle
  obtain ⟨a, hg, hb, hli⟩ := h.grant hp
  unfold Eff.Succeeds
  rw [payFirst_eq had hon hg]
  rcases hb.spend granter did hp hli hq hle with ⟨a', ha, hl⟩ | ⟨a', ha, hm, hexp, hl⟩
  · have hr := (revokeDIDAllowance_of_grant hg hb.expiresAt).attempt
    obtain ⟨t, ht, hbo⟩ : ∃ t, (settleDIDGrant granter did (Γ.accAddressString granter.bytes)
        ⟨true, none, a'⟩).Succeeds s (some granter) t ∧ t.didBook = (s.withoutDIDGrant granter did []).didBook := by
      unfold settleDIDGrant Eff.Succeeds
      rw [if_pos rfl, hr.bind_eq]
      exact ⟨_, rfl, rfl⟩
    rw [ha, ht.bind_eq]
    refine ⟨t, rfl, ?_, hl t ?_⟩
    · unfold OnlyGrant
      rw [hbo]
      exact hon.withoutDIDGrant []
    · rw [State.didGrant, hbo]
      exact State.didGrant_withoutDIDGrant (s := s) []
  · have hu := (updateDIDAllowance_of_grant hg hb.expiresAt hexp hm).attempt
    obtain ⟨t, ht, hbo⟩ : ∃ t, (settleDIDGrant granter did (Γ.accAddressString granter.bytes)
        ⟨false, none, .periodic a'⟩).Succeeds s (some granter) t ∧
        t.didBook = (s.withDIDGrant granter did (didGrantOf granter did (.periodic a')) []).didBook := by
      unfold settleDIDGrant Eff.Succeeds
      rw [if_neg Bool.false_ne_true]
      dsimp only
      rw [hu.bind_eq]
      exact ⟨_, rfl, rfl⟩
    rw [ha, ht.bind_eq]
    refine ⟨t, rfl, ?_, hl t ?_⟩
    · unfold OnlyGrant
      rw [hbo]
      exact hon.withDIDGrant _ []
    · rw [State.didGrant, hbo]
      exact State.didGrant_withDIDGrant (s := s) _ []

theorem payFirst_of_lt (had : Γ.stringToBytes (Γ.accAddressString granter.bytes) = .ok granter)
    (h : OnlyGrant granter did s ∧ Left C limit period granter did s left) (hq : q.Regular period) (hlt : left < q.amount) :
    (payFirst C did q s).1.isOk = false := by
  obtain ⟨hon, h⟩ := h
  cases left with
  | zero =>
    unfold payFirst useFirstAvailableDIDGrant
    rw [read_bind, hon.didGrants, show s.didGrant granter did = none from h]
    rfl
  | succ left =>
    obtain ⟨a, hg, hb, hl⟩ := h
    obtain ⟨e, a', ha⟩ := hb.accept_of_lt (Nat.succ_pos _) hl q.ctx.inYears hq.2 hlt
    rw [payFirst_eq had hon hg, Allowance.accept, ha]
    rfl

/-- If a DID has no other grant, the payments from the first grant that can be used are all accepted exactly when they sum to
at most what is left of the grant. -/
theorem payFirst_all_iff (ha : Γ.stringToBytes (Γ.accAddressString granter.bytes) = .ok granter)
    (hon : OnlyGrant granter did s) (h : Left C limit period granter did s left)
    (hp : ∀ q ∈ payments, q.Regular period) :
    Run.AllSteps (fun s q => (payFirst C did q).commit s) (fun s q => (payFirst C did q s).1.isOk = true) s payments ↔
      (payments.map (·.amount)).sum ≤ left := by
  have hta : ∀ s left q, OnlyGrant granter did s ∧ Left C limit period granter did s left → q.Regular period →
      ((payFirst C did q s).1.isOk = true ↔ q.amount ≤ left) := by
    intro s left q h hq
    by_cases hle : q.amount ≤ left
    · obtain ⟨t, ht, -⟩ := payFirst_of_le ha h hq hle
      simp [hle, show payFirst C did q s = _ from ht, Outcome.isOk]
    · simp [hle, payFirst_of_lt ha h hq (Nat.lt_of_not_le hle)]
  refine Run.allSteps_iff_sum_le _ hta (fun s left q h hq hle => ?_) ⟨hon, h⟩ hp
  obtain ⟨t, ht, hl⟩ := payFirst_of_le ha h hq hle
  rw [ht.commit_eq]
  exact hl

end Payments

end Vera.Feegrant
