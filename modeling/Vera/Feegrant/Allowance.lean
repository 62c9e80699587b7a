import Vera.Feegrant.Keys

/-!
# Fee allowances

The three kinds of allowance of `x/feegrant`: a basic one, one that is renewed every period, and one for some messages only.
An allowance asked for a fee says whether it is used up, whether it refuses, and what is left of it
(`basic_fee.go`, `periodic_fee.go`, `filtered_fee.go`).
-/

namespace Vera.Feegrant

open Bytes (str)

/-- What the fee grants use of other modules. -/
structure Env where
  /-- The accounts. -/
  σ : Type
  hasAccount : σ → Bytes → Bool
  newAccount : σ → Bytes → σ
  /-- `bankKeeper.BlockedAddr`. -/
  blockedAddr : Bytes → Bool
  accAddressString : Bytes → Bytes
  /-- `AddressCodec().StringToBytes`; it gives no empty address and none longer than 255 bytes. -/
  stringToBytes : Bytes → Except Bytes KeyPart
  /-- `sdk.FormatTimeBytes`, and the length of what it gives for the time of the machine. -/
  formatTimeBytes : Time → Bytes
  lenTime : Nat
  /-- `sdk.Coins`. -/
  Coins : Type
  /-- `SafeSub`: the difference, and whether an amount of it is negative. -/
  safeSub : Coins → Coins → Coins × Bool
  isZero : Coins → Bool
  /-- `Empty`: there are no coins. An empty list of coins is `nil` once it was stored. -/
  empty : Coins → Bool

/-- The sentinel errors the fee grants return. -/
inductive Sentinel where
  | invalidRequest
  | unauthorized
  | notFound
  | feeLimitExceeded
  | feeLimitExpired
  | noAllowance
  | messageNotAllowed
  /-- An error that wraps no sentinel. -/
  | plain
  deriving Repr, DecidableEq

/-- An error: the sentinel it wraps and its message. -/
structure Error where
  sentinel : Sentinel
  msg : Bytes
  deriving Repr, DecidableEq

/-- A limit in total, and a time of expiry. Allowances are asked as they are read from the store, where a missing limit and an
empty one are the same. -/
structure BasicAllowance (Γ : Env) where
  spendLimit : Γ.Coins
  expiration : Option Time

/-- A limit in every period besides the one in total. The period is in nanoseconds. -/
structure PeriodicAllowance (Γ : Env) where
  basic : BasicAllowance Γ
  period : Int
  periodSpendLimit : Γ.Coins
  periodCanSpend : Γ.Coins
  periodReset : Time

/-- An allowance: `FeeAllowanceI`. -/
inductive Allowance (Γ : Env) where
  | basic (a : BasicAllowance Γ)
  | periodic (a : PeriodicAllowance Γ)
  /-- An allowance for transactions with no messages but those named. -/
  | allowedMsg (allowance : Allowance Γ) (allowedMessages : List Bytes)
  /-- The same with no allowance in it. -/
  | emptyAllowedMsg (allowedMessages : List Bytes)

/-- What an allowance answers: whether it is to be removed, the error it refuses with, and the allowance after the answer. -/
structure Verdict (α : Type) where
  remove : Bool
  err : Option Error
  allowance : α

variable {Γ : Env}

def BasicAllowance.accept (a : BasicAllowance Γ) (blockTime : Time) (fee : Γ.Coins) : Verdict (BasicAllowance Γ) :=
  if a.expiration.any (·.before blockTime) then ⟨true, some ⟨.feeLimitExpired, str "basic allowance"⟩, a⟩
  else if Γ.empty a.spendLimit then ⟨false, none, a⟩
  else if (Γ.safeSub a.spendLimit fee).2 then ⟨false, some ⟨.feeLimitExceeded, str "basic allowance"⟩, a⟩
  else ⟨Γ.isZero (Γ.safeSub a.spendLimit fee).1, none, { a with spendLimit := (Γ.safeSub a.spendLimit fee).1 }⟩

/-- `tryResetPeriod`: once the period is over, what can be spent is the lesser of both limits again. -/
def PeriodicAllowance.tryResetPeriod (a : PeriodicAllowance Γ) (blockTime : Time) : PeriodicAllowance Γ :=
  if blockTime.before a.periodReset then a
  else
    { a with
      periodCanSpend :=
        if (Γ.safeSub a.basic.spendLimit a.periodSpendLimit).2 && !Γ.empty a.basic.spendLimit then a.basic.spendLimit
        else a.periodSpendLimit
      periodReset :=
        if blockTime.after (a.periodReset.add a.period) then blockTime.add a.period else a.periodReset.add a.period }

/-- `PeriodicAllowance.Accept` after the period was reset: the fee is taken from what is left in the period and in total. -/
def PeriodicAllowance.deduct (a : PeriodicAllowance Γ) (fee : Γ.Coins) : Verdict (PeriodicAllowance Γ) :=
  let periodCanSpend := Γ.safeSub a.periodCanSpend fee
  let a := { a with periodCanSpend := periodCanSpend.1 }
  if periodCanSpend.2 then ⟨false, some ⟨.feeLimitExceeded, str "period limit"⟩, a⟩
  else if Γ.empty a.basic.spendLimit then ⟨false, none, a⟩
  else
    let spendLimit := Γ.safeSub a.basic.spendLimit fee
    let a := { a with basic := { a.basic with spendLimit := spendLimit.1 } }
    if spendLimit.2 then ⟨false, some ⟨.feeLimitExceeded, str "absolute limit"⟩, a⟩
    else ⟨Γ.isZero spendLimit.1, none, a⟩

def PeriodicAllowance.accept (a : PeriodicAllowance Γ) (blockTime : Time) (fee : Γ.Coins) : Verdict (PeriodicAllowance Γ) :=
  if a.basic.expiration.any blockTime.after then ⟨true, some ⟨.feeLimitExpired, str "absolute limit"⟩, a⟩
  else (a.tryResetPeriod blockTime).deduct fee

/-- `ErrNoAllowance`, for an allowance of which nothing can be read. -/
def errNoAllowance : Error := ⟨.noAllowance, str "failed to get allowance"⟩

/-- `Accept`. The messages are given by their type URLs. -/
def Allowance.accept (blockTime : Time) (fee : Γ.Coins) (msgs : List Bytes) : Allowance Γ → Verdict (Allowance Γ)
  | .basic a => ⟨(a.accept blockTime fee).remove, (a.accept blockTime fee).err, .basic (a.accept blockTime fee).allowance⟩
  | .periodic a =>
    ⟨(a.accept blockTime fee).remove, (a.accept blockTime fee).err, .periodic (a.accept blockTime fee).allowance⟩
  | .allowedMsg allowance allowedMessages =>
    if msgs.all allowedMessages.contains then
      let v := allowance.accept blockTime fee msgs
      -- the inner allowance is packed again only if it is kept
      if v.err = none ∧ v.remove = false then ⟨false, none, .allowedMsg v.allowance allowedMessages⟩
      else ⟨v.remove, v.err, .allowedMsg allowance allowedMessages⟩
    else
      ⟨false, some ⟨.messageNotAllowed, str "message does not exist in allowed messages"⟩,
        .allowedMsg allowance allowedMessages⟩
  | .emptyAllowedMsg allowedMessages =>
    if msgs.all allowedMessages.contains then ⟨false, some errNoAllowance, .emptyAllowedMsg allowedMessages⟩
    else
      ⟨false, some ⟨.messageNotAllowed, str "message does not exist in allowed messages"⟩, .emptyAllowedMsg allowedMessages⟩

def Allowance.expiresAt : Allowance Γ → Outcome Error (Option Time)
  | .basic a => .ok a.expiration
  | .periodic a => .ok a.basic.expiration
  | .allowedMsg allowance _ => allowance.expiresAt
  | .emptyAllowedMsg _ => .err errNoAllowance

/-- Whether an allowance can be stored: its times must be in the range of a protobuf timestamp. -/
def Allowance.marshalable : Allowance Γ → Bool
  | .basic a => a.expiration.all (·.inYears)
  | .periodic a => a.basic.expiration.all (·.inYears) && a.periodReset.inYears
  | .allowedMsg allowance _ => allowance.marshalable
  | .emptyAllowedMsg _ => true

/-! ### A fee does not change the time of expiry -/

theorem BasicAllowance.accept_expiration (a : BasicAllowance Γ) (blockTime : Time) (fee : Γ.Coins) :
    (a.accept blockTime fee).allowance.expiration = a.expiration := by
  unfold BasicAllowance.accept
  split
  · rfl
  split
  · rfl
  split <;> rfl

theorem PeriodicAllowance.tryResetPeriod_basic (a : PeriodicAllowance Γ) (blockTime : Time) :
    (a.tryResetPeriod blockTime).basic = a.basic := by
  unfold PeriodicAllowance.tryResetPeriod
  split <;> rfl

theorem PeriodicAllowance.deduct_expiration (a : PeriodicAllowance Γ) (fee : Γ.Coins) :
    (a.deduct fee).allowance.basic.expiration = a.basic.expiration := by
  simp only [PeriodicAllowance.deduct]
  split
  · rfl
  split
  · rfl
  split <;> rfl

theorem PeriodicAllowance.accept_expiration (a : PeriodicAllowance Γ) (blockTime : Time) (fee : Γ.Coins) :
    (a.accept blockTime fee).allowance.basic.expiration = a.basic.expiration := by
  unfold PeriodicAllowance.accept
  split
  · rfl
  · rw [deduct_expiration, tryResetPeriod_basic]

theorem Allowance.accept_expiresAt (a : Allowance Γ) (blockTime : Time) (fee : Γ.Coins) (msgs : List Bytes) :
    (a.accept blockTime fee msgs).allowance.expiresAt = a.expiresAt := by
  induction a with
  | basic a => exact congrArg Outcome.ok (a.accept_expiration blockTime fee)
  | periodic a => exact congrArg Outcome.ok (a.accept_expiration blockTime fee)
  | allowedMsg allowance allowedMessages ih =>
    simp only [Allowance.accept]
    split
    · split
      · exact ih
      · rfl
    · rfl
  | emptyAllowedMsg allowedMessages =>
    simp only [Allowance.accept]
    split <;> rfl

theorem Allowance.inYears_of_marshalable {a : Allowance Γ} {exp : Time} (hm : a.marshalable = true)
    (hexp : a.expiresAt = .ok (some exp)) : exp.inYears = true := by
  induction a with
  | basic a =>
    have hm : a.expiration.all (·.inYears) = true := hm
    rw [Outcome.ok.inj hexp] at hm
    exact hm
  | periodic a =>
    have hm := (Bool.and_eq_true_iff.1 hm).1
    rw [Outcome.ok.inj hexp] at hm
    exact hm
  | allowedMsg allowance allowedMessages ih => exact ih hm hexp
  | emptyAllowedMsg allowedMessages => cases hexp

end Vera.Feegrant
