import Vera.Feegrant.FirstGrant

/-!
# A grant pays no more than its limit

However a grant is used (between accounts, by the name of a DID, or as the first grant of a DID that can pay), a fee that is
accepted is taken from its limit, and the grant is deleted when nothing is left. So the fees it pays sum to at most the limit
it was given with, in each denomination, and it pays none after its time of expiry.
-/

namespace Vera.Feegrant

open Eff KVStore
open Bytes (str)

variable {Γ : Env}

/-- What is asked of `sdk.Coins`: the amounts of a difference that has no negative one, and that no coins are zero coins. -/
structure CoinLaws (Γ : Env) where
  Denom : Type
  amountOf : Γ.Coins → Denom → Int
  safeSub : ∀ a b, (Γ.safeSub a b).2 = false → ∀ denom,
    amountOf (Γ.safeSub a b).1 denom = amountOf a denom - amountOf b denom ∧ 0 ≤ amountOf (Γ.safeSub a b).1 denom
  isZero_of_empty : ∀ a, Γ.empty a = true → Γ.isZero a = true

def Allowance.spendLimit : Allowance Γ → Option Γ.Coins
  | .basic a => some a.spendLimit
  | .periodic a => some a.basic.spendLimit
  | .allowedMsg allowance _ => allowance.spendLimit
  | .emptyAllowedMsg _ => none

/-! ## What an accepted fee does to the limit -/

/-- The limit of an allowance is at hand, and is not the empty one, which stands for none. -/
def Allowance.HasLimit (a : Allowance Γ) (limit : Γ.Coins) : Prop := a.spendLimit = some limit ∧ Γ.empty limit = false

section Accept

variable (C : CoinLaws Γ) {blockTime : Time} {fee limit : Γ.Coins} {msgs : List Bytes}

/-- What is known of the limit after a fee: it is lowered by the fee, and there is one unless nothing is left. -/
def Deducted (limit fee : Γ.Coins) (remove : Bool) (left : Γ.Coins) : Prop :=
  (∀ denom, C.amountOf left denom = C.amountOf limit denom - C.amountOf fee denom ∧ 0 ≤ C.amountOf left denom) ∧
    (remove = false → Γ.empty left = false)

theorem deducted_of_safeSub (h : (Γ.safeSub limit fee).2 = false) :
    Deducted C limit fee (Γ.isZero (Γ.safeSub limit fee).1) (Γ.safeSub limit fee).1 := by
  refine ⟨C.safeSub limit fee h, fun hz => ?_⟩
  by_contra hempty
  rw [C.isZero_of_empty _ (Bool.not_eq_false _ ▸ hempty)] at hz
  cases hz

theorem BasicAllowance.accept_deducts {a : BasicAllowance Γ} (hl : Γ.empty a.spendLimit = false)
    (h : (a.accept blockTime fee).err = none) :
    Deducted C a.spendLimit fee (a.accept blockTime fee).remove (a.accept blockTime fee).allowance.spendLimit := by
  unfold BasicAllowance.accept at h ⊢
  split at h
  · cases h
  · rename_i hexpired
    rw [if_neg hexpired, hl, if_neg Bool.false_ne_true]
    rw [hl, if_neg Bool.false_ne_true] at h
    split at h
    · cases h
    · rename_i hne
      rw [if_neg hne]
      exact deducted_of_safeSub C (Bool.not_eq_true _ ▸ hne)

variable {a : PeriodicAllowance Γ}

theorem PeriodicAllowance.deduct_deducts (hl : Γ.empty a.basic.spendLimit = false) (h : (a.deduct fee).err = none) :
    Deducted C a.basic.spendLimit fee (a.deduct fee).remove (a.deduct fee).allowance.basic.spendLimit := by
  simp only [PeriodicAllowance.deduct, hl, Bool.false_eq_true, if_false] at h ⊢
  split at h
  · cases h
  · rename_i hp
    rw [if_neg hp]
    split at h
    · cases h
    · rename_i hne
      rw [if_neg hne]
      exact deducted_of_safeSub C (Bool.not_eq_true _ ▸ hne)

theorem PeriodicAllowance.accept_deducts (hl : Γ.empty a.basic.spendLimit = false)
    (h : (a.accept blockTime fee).err = none) :
    Deducted C a.basic.spendLimit fee (a.accept blockTime fee).remove (a.accept blockTime fee).allowance.basic.spendLimit := by
  unfold PeriodicAllowance.accept at h ⊢
  split at h
  · cases h
  · rename_i hexpired
    have hb := a.tryResetPeriod_basic blockTime
    rw [if_neg hexpired, ← hb]
    exact deduct_deducts C (hb ▸ hl) h

/-- An allowance with a limit that accepts a fee lowers the limit by it, and keeps one unless it is to be removed. -/
theorem Allowance.accept_deducts {a : Allowance Γ} (ha : a.HasLimit limit) (h : (a.accept blockTime fee msgs).err = none) :
    ∃ left, Deducted C limit fee (a.accept blockTime fee msgs).remove left ∧
      ((a.accept blockTime fee msgs).remove = false → (a.accept blockTime fee msgs).allowance.HasLimit left) := by
  induction a with
  | basic a =>
    obtain ⟨hl, hempty⟩ := ha
    obtain rfl : a.spendLimit = limit := Option.some.inj hl
    have hd := a.accept_deducts C hempty h
    exact ⟨_, hd, fun hke => ⟨rfl, hd.2 hke⟩⟩
  | periodic a =>
    obtain ⟨hl, hempty⟩ := ha
    obtain rfl : a.basic.spendLimit = limit := Option.some.inj hl
    have hd := a.accept_deducts C hempty h
    exact ⟨_, hd, fun hke => ⟨rfl, hd.2 hke⟩⟩
  | allowedMsg allowance allowedMessages ih =>
    simp only [Allowance.accept] at h ⊢
    split at h
    · rename_i hm
      rw [if_pos hm]
      split at h
      · rename_i hke
        rw [if_pos hke]
        obtain ⟨left, hd, hlef⟩ := ih ha hke.1
        exact ⟨left, hke.2 ▸ hd, fun _ => hlef hke.2⟩
      · rename_i hnot
        rw [if_neg hnot]
        obtain ⟨left, hd, hlef⟩ := ih ha h
        -- it accepts and is not kept, so it is to be removed
        refine ⟨left, hd, fun hke => absurd ⟨h, hke⟩ hnot⟩
    · cases h
  | emptyAllowedMsg allowedMessages => cases ha.1

end Accept

theorem Allowance.expiredAt_of_accept {a : Allowance Γ} {blockTime : Time} {fee : Γ.Coins} {msgs : List Bytes}
    (h : (a.accept blockTime fee msgs).err = none) : a.expiredAt blockTime = false := by
  have hexpired := a.accept_expired blockTime fee msgs
  rw [h, Option.isSome_none, Bool.and_false] at hexpired
  have ha : a.allows msgs = true := by
    clear hexpired
    induction a with
    | basic a => rfl
    | periodic a => rfl
    | allowedMsg allowance allowedMessages ih =>
      simp only [Allowance.accept] at h
      simp only [Allowance.allows]
      split at h
      · rename_i hm
        rw [hm, Bool.true_and]
        split at h
        · rename_i hke
          exact ih hke.1
        · exact ih h
      · cases h
    | emptyAllowedMsg allowedMessages => rfl
  rw [ha, Bool.true_and] at hexpired
  exact hexpired.symm

/-! ## The three ways to pay -/

/-- One of the grants: between two accounts, or of an account to a DID. -/
inductive GrantRef where
  | account (granter grantee : KeyPart)
  | did (granter granteeDID : KeyPart)
  deriving Repr, DecidableEq

def GrantRef.give (ctx : Ctx) (a : Allowance Γ) : GrantRef → M Γ Unit
  | .account granter grantee => grantAllowance ctx granter grantee a
  | .did granter granteeDID => grantDIDAllowance ctx granter granteeDID a

def State.allowanceOf (s : State Γ) : GrantRef → Option (Allowance Γ)
  | .account granter grantee => (s.grant granter grantee).map Grant.allowance
  | .did granter granteeDID => (s.didGrant granter granteeDID).map Grant.allowance

/-- A call that pays a fee. -/
inductive Use (Γ : Env) where
  | useGrantedFees (ctx : Ctx) (granter grantee : KeyPart) (fee : Γ.Coins) (msgs : List Bytes)
  | useGrantedFeesByDID (ctx : Ctx) (granter granteeDID : KeyPart) (fee : Γ.Coins) (msgs : List Bytes)
  | useFirstAvailableDIDGrant (ctx : Ctx) (granteeDID : KeyPart) (fee : Γ.Coins) (msgs : List Bytes)

namespace Use

def ctx : Use Γ → Ctx
  | useGrantedFees ctx .. | useGrantedFeesByDID ctx .. | useFirstAvailableDIDGrant ctx .. => ctx

def fee : Use Γ → Γ.Coins
  | useGrantedFees _ _ _ fee _ | useGrantedFeesByDID _ _ _ fee _ | useFirstAvailableDIDGrant _ _ fee _ => fee

def msgs : Use Γ → List Bytes
  | useGrantedFees _ _ _ _ msgs | useGrantedFeesByDID _ _ _ _ msgs | useFirstAvailableDIDGrant _ _ _ msgs => msgs

def call : Use Γ → M Γ GrantRef
  | useGrantedFees ctx granter grantee fee msgs => do
    Feegrant.useGrantedFees ctx granter grantee fee msgs
    pure (.account granter grantee)
  | useGrantedFeesByDID ctx granter granteeDID fee msgs => do
    Feegrant.useGrantedFeesByDID ctx granter granteeDID fee msgs
    pure (.did granter granteeDID)
  | useFirstAvailableDIDGrant ctx granteeDID fee msgs => do
    let granter ← Feegrant.useFirstAvailableDIDGrant ctx granteeDID fee msgs
    pure (.did granter granteeDID)

/-- The grant that pays the fee, if it is accepted. -/
def paidBy (u : Use Γ) (s : State Γ) : Option GrantRef :=
  match (u.call s).1 with
  | .ok ref => some ref
  | _ => none

end Use

/-- The state after a call that pays a fee, and whether the writes of the call are undone if it fails. -/
def useStep (s : State Γ) (u : Use Γ × Bool) : State Γ := if u.2 then u.1.call.commit s else (u.1.call s).2

/-- A call either pays from a grant, which is then left with what its answer says, or not; then the grant stays as it is or is
deleted. -/
def Use.Treats (u : Use Γ) (s t : State Γ) (ref : GrantRef) : Prop :=
  (u.paidBy s ≠ some ref ∧ (t.allowanceOf ref = s.allowanceOf ref ∨ t.allowanceOf ref = none)) ∨
    u.paidBy s = some ref ∧ ∃ a, s.allowanceOf ref = some a ∧ (a.accept u.ctx.blockTime u.fee u.msgs).err = none ∧
      t.allowanceOf ref = if (a.accept u.ctx.blockTime u.fee u.msgs).remove then none
        else some (a.accept u.ctx.blockTime u.fee u.msgs).allowance

/-! ### Between accounts -/

section Account

variable {granter grantee : KeyPart} {s : State Γ} {grant : Grant Γ} {a : Allowance Γ}

theorem revokeAllowance_apply (hg : s.grant granter grantee = some grant) {exp : Option Time}
    (hexp : grant.allowance.expiresAt = .ok exp) :
    ∃ t, revokeAllowance granter grantee s = (.ok (), t) ∧
      t.book.grants = s.book.grants.delete (feeAllowanceKey granter grantee) := by
  have hget : (getAllowance granter grantee).Succeeds s grant.allowance s := by
    unfold getAllowance
    exact bind_ok.2 ⟨grant, s, getGrant_ok.2 ⟨hg, rfl⟩, rfl⟩
  unfold revokeAllowance
  rw [hget.bind_eq, modifyBook, modify_bind, (lift_ok.2 ⟨hexp, rfl⟩).bind_eq]
  cases exp with
  | none => exact ⟨_, rfl, rfl⟩
  | some exp => exact ⟨_, rfl, rfl⟩

/-- `UpdateAllowance` on a grant that is there: it fails only if the allowance cannot be stored. -/
theorem updateAllowance_apply (hg : s.grant granter grantee = some grant) :
    (a.marshalable = true ∧ ∃ t grant', updateAllowance granter grantee a s = (.ok (), t) ∧ grant'.allowance = a ∧
      t.book.grants = s.book.grants.set (feeAllowanceKey granter grantee) grant') ∨
    a.marshalable = false ∧ updateAllowance granter grantee a s = (.err ⟨.plain, []⟩, s) := by
  unfold updateAllowance
  rw [(getGrant_ok.2 ⟨hg, rfl⟩).bind_eq]
  unfold newGrant
  cases hm : a.marshalable with
  | true => exact .inl ⟨rfl, _, _, rfl, rfl, rfl⟩
  | false => exact .inr ⟨rfl, rfl⟩

variable {t : State Γ}

theorem allowanceOf_of_get {g : Option (Grant Γ)}
    (ht : ∀ key, t.book.grants.get key = if key = feeAllowanceKey granter grantee then g else s.book.grants.get key)
    (granter' grantee' : KeyPart) : t.allowanceOf (.account granter' grantee') =
      if granter' = granter ∧ grantee' = grantee then g.map Grant.allowance else s.allowanceOf (.account granter' grantee') := by
  unfold State.allowanceOf State.grant
  dsimp only
  rw [ht]
  by_cases hsame : granter' = granter ∧ grantee' = grantee
  · rw [if_pos (by rw [hsame.1, hsame.2]), if_pos hsame]
  · rw [if_neg (fun hke => hsame (feeAllowanceKey_inj hke)), if_neg hsame]

/-- `UseGrantedFees` settles the grant it names; it returns no error if the fee can be paid. -/
theorem useGrantedFees_apply (ctx : Ctx) (fee : Γ.Coins) (msgs : List Bytes) (hg : s.grant granter grantee = some grant) :
    (useGrantedFees ctx granter grantee fee msgs s).1.isOk = (grant.allowance.accept ctx.blockTime fee msgs).usable ∧
      (∀ granter' grantee', (useGrantedFees ctx granter grantee fee msgs s).2.allowanceOf (.account granter' grantee') =
        if granter' = granter ∧ grantee' = grantee then (grant.allowance.accept ctx.blockTime fee msgs).leaves grant.allowance
        else s.allowanceOf (.account granter' grantee')) := by
  have hexp := grant.allowance.expiresAt_of_accept ctx.blockTime fee msgs
  have hsame : ∀ key, s.book.grants.get key =
      if key = feeAllowanceKey granter grantee then some grant else s.book.grants.get key := by
    intro key
    split
    · rename_i heq
      exact heq ▸ hg
    · rfl
  have hget : (getAllowance granter grantee).Succeeds s grant.allowance s := by
    unfold getAllowance
    exact bind_ok.2 ⟨grant, s, getGrant_ok.2 ⟨hg, rfl⟩, rfl⟩
  unfold useGrantedFees
  rw [hget.bind_eq]
  generalize grant.allowance.accept ctx.blockTime fee msgs = v at hexp
  obtain ⟨remove, err, allowance⟩ := v
  unfold Verdict.leaves
  cases remove with
  | true =>
    obtain ⟨t, hr, ht⟩ := revokeAllowance_apply hg (hexp (.inl rfl))
    dsimp only
    rw [if_pos rfl, if_pos rfl, (show (revokeAllowance granter grantee).Succeeds s () t from hr).attempt.bind_eq]
    have hl := allowanceOf_of_get (s := s) (t := t) (g := none) fun key => by rw [ht, get_delete]
    cases err with
    | some e => exact ⟨rfl, hl⟩
    | none => exact ⟨rfl, hl⟩
  | false =>
    dsimp only
    rw [if_neg Bool.false_ne_true, if_neg Bool.false_ne_true]
    cases err with
    | some e => exact ⟨rfl, allowanceOf_of_get hsame⟩
    | none =>
      dsimp only
      rw [emit, modify_bind]
      rcases updateAllowance_apply (a := allowance) (s := { s with events := s.events ++
          [.useFeeGrant (Γ.accAddressString granter.bytes) (Γ.accAddressString grantee.bytes)] }) hg with
        ⟨hm, t, grant', hu, rfl, ht⟩ | ⟨hm, hu⟩
      · rw [hu]
        simp only [Verdict.usable, hm, Option.isNone_none, Bool.or_true, Bool.and_true, if_true]
        exact ⟨rfl, allowanceOf_of_get (s := s) (g := some grant') fun key => by rw [ht, get_set]⟩
      · rw [hu]
        simp only [Verdict.usable, hm, Option.isNone_none, Bool.or_false, Bool.and_false, Bool.false_eq_true, if_false]
        exact ⟨rfl, allowanceOf_of_get hsame⟩

end Account

/-! ### One call -/

section Treats

variable {s : State Γ}

variable {a : Allowance Γ} {v : Verdict (Allowance Γ)}

theorem Verdict.leaves_of_usable (h : v.usable = true) :
    v.err = none ∧ v.leaves a = if v.remove then none else some v.allowance := by
  refine ⟨Option.isNone_iff_eq_none.1 (Bool.and_eq_true_iff.1 h).1, ?_⟩
  rw [Verdict.leaves, h]
  rfl

theorem Verdict.leaves_of_not_usable (h : v.usable = false) : v.leaves a = some a ∨ v.leaves a = none := by
  rw [Verdict.leaves, h]
  cases v.remove with
  | true => exact .inr rfl
  | false => exact .inl rfl

theorem paidBy_of_call {α : Type} {x : M Γ α} {f : α → GrantRef} (u : Use Γ) (hu : u.call = (do let a ← x; pure (f a))) :
    (∀ a, (x s).1 = .ok a → u.paidBy s = some (f a)) ∧ ((x s).1.isOk = false → u.paidBy s = none) ∧
      (u.call s).2 = (x s).2 := by
  have hcall : u.call s = Eff.andThen x (fun a => pure (f a)) s := congrFun hu s
  unfold Use.paidBy
  rw [hcall]
  unfold Eff.andThen
  generalize x s = r
  obtain ⟨o, t⟩ := r
  cases o with
  | ok a => exact ⟨fun b hb => Outcome.ok.inj hb ▸ rfl, fun h => (nomatch h), rfl⟩
  | err e => exact ⟨fun b hb => (nomatch hb), fun _ => rfl, rfl⟩
  | panic m => exact ⟨fun b hb => (nomatch hb), fun _ => rfl, rfl⟩

theorem paidBy_of_isOk {x : M Γ Unit} {ref : GrantRef} (u : Use Γ) (hu : u.call = (do x; pure ref)) :
    u.paidBy s = (if (x s).1.isOk then some ref else none) ∧ (u.call s).2 = (x s).2 := by
  obtain ⟨hok, hf, hs⟩ := paidBy_of_call (s := s) (f := fun _ => ref) u hu
  refine ⟨?_, hs⟩
  cases hx : (x s).1.isOk with
  | true => exact hok () (congrArg Prod.fst (ok_unit_of_isOk hx))
  | false => exact hf hx

theorem treats_of_settle {t : State Γ} {u : Use Γ} (target : GrantRef) (ha : s.allowanceOf target = some a)
    (hp : u.paidBy s = if (a.accept u.ctx.blockTime u.fee u.msgs).usable then some target else none)
    (ht : ∀ ref, t.allowanceOf ref =
      if ref = target then (a.accept u.ctx.blockTime u.fee u.msgs).leaves a else s.allowanceOf ref) (ref : GrantRef) :
    u.Treats s t ref := by
  have hl := ht ref
  by_cases hsame : ref = target
  · subst hsame
    rw [if_pos rfl] at hl
    cases hu : (a.accept u.ctx.blockTime u.fee u.msgs).usable with
    | true =>
      obtain ⟨her, hlea⟩ := Verdict.leaves_of_usable (a := a) hu
      rw [hu] at hp
      exact .inr ⟨hp, a, ha, her, hl.trans hlea⟩
    | false =>
      rw [hu] at hp
      refine .inl ⟨by rw [hp]; simp, ?_⟩
      rw [hl, ha]
      exact Verdict.leaves_of_not_usable hu
  · rw [if_neg hsame] at hl
    refine .inl ⟨?_, .inl hl⟩
    rw [hp]
    split
    · exact fun heq => hsame (Option.some.inj heq).symm
    · exact fun heq => nomatch heq

end Treats

section Calls

variable (laws : TimeLaws Γ) (addr : AddressLaws Γ) {s : State Γ}

theorem useGrantedFees_treats (ctx : Ctx) (granter grantee : KeyPart) (fee : Γ.Coins) (msgs : List Bytes) (ref : GrantRef) :
    (Use.useGrantedFees ctx granter grantee fee msgs).Treats s
      ((Use.useGrantedFees ctx granter grantee fee msgs).call s).2 ref := by
  obtain ⟨hp, hs⟩ := paidBy_of_isOk (s := s) (.useGrantedFees ctx granter grantee fee msgs) rfl
  rw [hs]
  cases hg : s.grant granter grantee with
  | none =>
    have hf : useGrantedFees ctx granter grantee fee msgs s = (.err ⟨.notFound, str "fee-grant not found"⟩, s) := by
      unfold useGrantedFees getAllowance getGrant
      refine bind_of_err (bind_of_err ?_)
      rw [Eff.query, hg]
      rfl
    rw [hf] at hp ⊢
    exact .inl ⟨by simp [hp, Outcome.isOk], .inl rfl⟩
  | some grant =>
    obtain ⟨hok, hl⟩ := useGrantedFees_apply ctx fee msgs hg
    rw [hok] at hp
    refine treats_of_settle (.account granter grantee) (by rw [State.allowanceOf, hg]; rfl) hp ?_ ref
    intro ref
    cases ref with
    | account granter' grantee' =>
      rw [hl granter' grantee']
      simp only [GrantRef.account.injEq]
      rfl
    | did granter' did' =>
      rw [if_neg (by simp)]
      unfold State.allowanceOf State.didGrant
      rw [useGrantedFees_leavesDIDs]

variable {did : KeyPart}

theorem allowanceOf_settle {granter : KeyPart} {a : Allowance Γ}
    (hg : s.didGrant granter did = some (didGrantOf granter did a)) (v : Verdict (Allowance Γ)) (events : List Event)
    (granter' did' : KeyPart) : (s.onDID (s.didBook.settle granter did a v) events).allowanceOf (.did granter' did') =
      if granter' = granter ∧ did' = did then v.leaves a else s.allowanceOf (.did granter' did') := by
  unfold State.allowanceOf State.didGrant
  dsimp only
  rw [State.onDID_didBook, Book.get_settle hg]
  by_cases hsame : granter' = granter ∧ did' = did
  · rw [if_pos (by rw [hsame.1, hsame.2]), if_pos hsame, Option.map_map]
    exact Option.map_id'
  · rw [if_neg (fun hke => hsame (feeAllowanceByDIDKey_inj hke)), if_neg hsame]

theorem useGrantedFeesByDID_treats (h : s.didBook.Agrees) (ctx : Ctx) (granter did : KeyPart) (fee : Γ.Coins)
    (msgs : List Bytes) (ref : GrantRef) :
    (Use.useGrantedFeesByDID ctx granter did fee msgs).Treats s
      ((Use.useGrantedFeesByDID ctx granter did fee msgs).call s).2 ref := by
  obtain ⟨hp, hs⟩ := paidBy_of_isOk (s := s) (.useGrantedFeesByDID ctx granter did fee msgs) rfl
  rw [hs]
  cases hg : s.didGrant granter did with
  | none =>
    have hf : (useGrantedFeesByDID ctx granter did fee msgs s).1.isOk = false ∧
        (useGrantedFeesByDID ctx granter did fee msgs s).2 = s := by
      unfold useGrantedFeesByDID
      have hget : ∀ f : Error → Error, (getDIDAllowance granter did).mapErr f s =
          (.err (f ⟨.notFound, str "fee-grant not found for DID"⟩), s) := by
        intro f
        rw [mapErr_apply, getDIDAllowance_of_none hg]
        rfl
      rw [bind_of_err (hget _)]
      exact ⟨rfl, rfl⟩
    rw [hf.1] at hp
    rw [hf.2]
    exact .inl ⟨by simp [hp, Outcome.isOk], .inl rfl⟩
  | some grant =>
    obtain ⟨a, rfl, -, -⟩ := h.grant hg
    obtain ⟨hok, events, hl⟩ := useGrantedFeesByDID_apply ctx fee msgs hg
    rw [hok] at hp
    refine treats_of_settle (.did granter did) (by rw [State.allowanceOf, hg]; rfl) hp ?_ ref
    intro ref
    rw [hl]
    cases ref with
    | account granter' grantee' =>
      rw [if_neg (by simp)]
      rfl
    | did granter' did' =>
      simp only [GrantRef.did.injEq]
      exact allowanceOf_settle hg _ events granter' did'

theorem LeavesOthers.allowanceOf {ctx : Ctx} {msgs : List Bytes} {t : State Γ}
    {asked : List (KeyPart × Allowance Γ)} {used : Option KeyPart} (h : LeavesOthers ctx did msgs s t asked used) {ref : GrantRef}
    (hne : ∀ granter, ref = .did granter did → used ≠ some granter) :
    t.allowanceOf ref = s.allowanceOf ref ∨ t.allowanceOf ref = none := by
  cases ref with
  | account granter grantee =>
    refine .inl ?_
    unfold State.allowanceOf State.grant
    rw [h.accounts.1]
  | did granter did' =>
    by_cases hot : did' = did → granter ∉ asked.map Prod.fst ∧ used ≠ some granter
    · refine .inl ?_
      unfold State.allowanceOf
      dsimp only
      rw [h.others granter did' hot]
    · obtain ⟨rfl, hnot⟩ := not_forall.1 hot
      have hmem : granter ∈ asked.map Prod.fst := by
        by_contra hmem
        exact hnot ⟨hmem, hne granter rfl⟩
      obtain ⟨g, hg, rfl⟩ := List.mem_map.1 hmem
      unfold State.allowanceOf
      dsimp only
      rw [h.passed g hg]
      split
      · exact .inr rfl
      · exact .inl rfl

include laws addr

theorem useFirstAvailableDIDGrant_treats (h : s.didBook.Agrees) (ctx : Ctx) (did : KeyPart) (fee : Γ.Coins) (msgs : List Bytes)
    (ref : GrantRef) :
    (Use.useFirstAvailableDIDGrant ctx did fee msgs).Treats s
      ((Use.useFirstAvailableDIDGrant ctx did fee msgs).call s).2 ref := by
  have hpa := paysFirst_of_agrees laws addr h ctx did fee msgs
  obtain ⟨hp, hun, hst⟩ := paidBy_of_call (s := s) (f := fun granter => .did granter did)
    (.useFirstAvailableDIDGrant ctx did fee msgs) rfl
  rw [hst]
  cases hok : (useFirstAvailableDIDGrant ctx did fee msgs s).1.isOk with
  | true =>
    obtain ⟨granter, hs⟩ := succeeds_of_isOk hok
    have hr : (useFirstAvailableDIDGrant ctx did fee msgs s).1 = .ok granter := congrArg Prod.fst hs
    obtain ⟨earlier, a, later, hsp, -, hus, hch, hot⟩ := hpa.charged granter hr
    have hg : s.didGrant granter did = some (didGrantOf granter did a) :=
      (mem_grantsTo addr h did).1 (hsp ▸ List.mem_append_right _ List.mem_cons_self)
    by_cases hsame : ref = .did granter did
    · subst hsame
      refine .inr ⟨hp granter hr, a, by rw [State.allowanceOf, hg]; rfl, (Verdict.leaves_of_usable (a := a) hus).1, ?_⟩
      rw [State.allowanceOf, hch]
      show Option.map Grant.allowance (if (a.accept ctx.blockTime fee msgs).remove then none
          else some (didGrantOf granter did (a.accept ctx.blockTime fee msgs).allowance)) =
        if (a.accept ctx.blockTime fee msgs).remove then none else some (a.accept ctx.blockTime fee msgs).allowance
      cases (a.accept ctx.blockTime fee msgs).remove <;> rfl
    · refine .inl ⟨fun heq => hsame (Option.some.inj ((hp granter hr).symm.trans heq)).symm, ?_⟩
      exact hot.allowanceOf fun granter' heq hu => hsame (Option.some.inj hu ▸ heq)
  | false =>
    refine .inl ⟨fun heq => ?_, (hpa.refused hok).allowanceOf fun _ _ hu => nomatch hu⟩
    cases (hun hok).symm.trans heq

theorem use_treats (h : s.didBook.Agrees) (u : Use Γ) (ref : GrantRef) : u.Treats s (u.call s).2 ref := by
  cases u with
  | useGrantedFees ctx granter grantee fee msgs => exact useGrantedFees_treats ctx granter grantee fee msgs ref
  | useGrantedFeesByDID ctx granter did fee msgs => exact useGrantedFeesByDID_treats h ctx granter did fee msgs ref
  | useFirstAvailableDIDGrant ctx did fee msgs => exact useFirstAvailableDIDGrant_treats laws addr h ctx did fee msgs ref

/-- A step treats every grant as its call does, whether the call is undone or not if it fails. -/
theorem useStep_treats (h : s.didBook.Agrees) (u : Use Γ × Bool) (ref : GrantRef) : u.1.Treats s (useStep s u) ref := by
  have hcall := use_treats laws addr h u.1 ref
  unfold useStep
  split
  · rcases commit_cases u.1.call s with hu | ⟨r, hok⟩
    · rw [hu]
      by_cases hp : u.1.paidBy s = some ref
      · -- a call that pays is not undone
        have hok : ((u.1.call s).1).isOk = true := by
          unfold Use.paidBy at hp
          generalize (u.1.call s).1 = o at hp ⊢
          cases o with
          | ok ref => rfl
          | err e => cases hp
          | panic m => cases hp
        obtain ⟨r, hs⟩ := succeeds_of_isOk hok
        rw [← hs.commit_eq, hu] at hcall
        exact hcall
      · exact .inl ⟨hp, .inl rfl⟩
    · rw [← show (u.1.call s).2 = u.1.call.commit s from congrArg Prod.snd hok]
      exact hcall
  · exact hcall

omit addr in
theorem useStep_agrees (h : s.didBook.Agrees) (u : Use Γ × Bool) : (useStep s u).didBook.Agrees := by
  have hke : Eff.Respects (fun s t : State Γ => s.didBook.Agrees → t.didBook.Agrees) u.1.call := by
    obtain ⟨u, undone⟩ := u
    intro s hs
    cases u with
    | useGrantedFees ctx granter grantee fee msgs =>
      have hsame : LeavesDIDs (Use.useGrantedFees ctx granter grantee fee msgs).call :=
        LeavesDIDs.bind (useGrantedFees_leavesDIDs ctx granter grantee fee msgs) fun _ _ => rfl
      exact hsame s ▸ hs
    | useGrantedFeesByDID ctx granter did fee msgs =>
      exact ((useGrantedFeesByDID_keeps laws ctx granter did fee msgs).bind (fun _ => .of_unchanged fun s => rfl) s hs).1
    | useFirstAvailableDIDGrant ctx did fee msgs =>
      exact ((useFirstAvailableDIDGrant_keeps laws ctx did fee msgs).bind (fun _ => .of_unchanged fun s => rfl) s hs).1
  unfold useStep
  split
  · exact Eff.Respects.commit (fun _ hs => hs) hke s h
  · exact hke s h

end Calls

/-! ## Runs -/

/-- What is left of a grant in a denomination: a grant that is there has it as its limit. -/
structure LimitLeft (C : CoinLaws Γ) (ref : GrantRef) (denom : C.Denom) (s : State Γ) (left : Int) : Prop where
  agrees : s.didBook.Agrees
  nonneg : 0 ≤ left
  limit : s.allowanceOf ref = none ∨
    ∃ a limit, s.allowanceOf ref = some a ∧ a.HasLimit limit ∧ C.amountOf limit denom = left

/-- A grant expires at its time as long as it is there. -/
structure StillExpires (ref : GrantRef) (exp : Option Time) (s : State Γ) : Prop where
  agrees : s.didBook.Agrees
  expiry : s.allowanceOf ref = none ∨ ∃ a, s.allowanceOf ref = some a ∧ a.expiry = exp

/-- What a step costs a grant in a denomination: the fee, if the grant pays it. -/
def paidUnder (C : CoinLaws Γ) (ref : GrantRef) (denom : C.Denom) (s : State Γ) (u : Use Γ × Bool) : Int :=
  if u.1.paidBy s = some ref then C.amountOf u.1.fee denom else 0

section Runs

variable (laws : TimeLaws Γ) (addr : AddressLaws Γ) {s : State Γ} {ref : GrantRef}

include laws addr

theorem LimitLeft.step {C : CoinLaws Γ} {denom : C.Denom} {left : Int} (h : LimitLeft C ref denom s left)
    (u : Use Γ × Bool) : LimitLeft C ref denom (useStep s u) (left - paidUnder C ref denom s u) := by
  have hag := useStep_agrees laws h.agrees u
  rcases useStep_treats laws addr h.agrees u ref with ⟨hu, hsame⟩ | ⟨hp, a, ha, her, hlef⟩
  · rw [paidUnder, if_neg hu, Int.sub_zero]
    refine ⟨hag, h.nonneg, ?_⟩
    rcases hsame with hsame | hg
    · rw [hsame]
      exact h.limit
    · exact .inl hg
  · rw [paidUnder, if_pos hp]
    rcases h.limit with hnone | ⟨a', limit, ha', hl, ham⟩
    · cases hnone.symm.trans ha
    · obtain rfl : a = a' := Option.some.inj (ha.symm.trans ha')
      obtain ⟨rest, ⟨hd, -⟩, hke⟩ := Allowance.accept_deducts C hl her
      obtain ⟨hrest, hno⟩ := hd denom
      rw [← ham, ← hrest]
      refine ⟨hag, hno, ?_⟩
      rw [hlef]
      split
      · exact .inl rfl
      · rename_i hr
        exact .inr ⟨_, rest, rfl, hke (Bool.not_eq_true _ ▸ hr), rfl⟩

/-- A step keeps the time of expiry of a grant, and the grant pays in it only before that time. -/
theorem StillExpires.step {exp : Option Time} (h : StillExpires ref exp s) (u : Use Γ × Bool) :
    StillExpires ref exp (useStep s u) ∧ (u.1.paidBy s = some ref → exp.any (·.before u.1.ctx.blockTime) = false) := by
  have hag := useStep_agrees laws h.agrees u
  rcases useStep_treats laws addr h.agrees u ref with ⟨hu, hsame⟩ | ⟨-, a, ha, her, hl⟩
  · refine ⟨⟨hag, ?_⟩, fun hp => absurd hp hu⟩
    rcases hsame with hsame | hg
    · rw [hsame]
      exact h.expiry
    · exact .inl hg
  · rcases h.expiry with hnone | ⟨a', ha', rfl⟩
    · cases hnone.symm.trans ha
    · obtain rfl : a = a' := Option.some.inj (ha.symm.trans ha')
      refine ⟨⟨hag, ?_⟩, fun _ => Allowance.expiredAt_of_accept her⟩
      rw [hl]
      split
      · exact .inl rfl
      · refine .inr ⟨_, rfl, ?_⟩
        unfold Allowance.expiry
        rw [Allowance.accept_expiresAt]

omit addr in
theorem allowanceOf_give (accounts : Γ.σ) (his : List (Step Γ ⊕ DIDCall Γ)) {ctx : Ctx} {a : Allowance Γ}
    (hg : (ref.give ctx a).Succeeds (Run.run anyStep (State.init accounts) his) () s) :
    s.didBook.Agrees ∧ s.allowanceOf ref = some a := by
  have ha := anyRun_agrees laws accounts his
  cases ref with
  | account granter grantee =>
    have hsame := grantAllowance_leavesDIDs ctx granter grantee a (Run.run anyStep (State.init accounts) his)
    rw [show grantAllowance ctx granter grantee a _ = _ from hg] at hsame
    obtain ⟨exp, grant, -, -, rfl, ht⟩ := grantAllowance_ok hg
    refine ⟨hsame ▸ ha, ?_⟩
    unfold State.allowanceOf State.grant
    rw [ht]
    exact congrArg (Option.map Grant.allowance) (get_set_self _ _ _)
  | did granter did =>
    have hs := didStep_agrees laws ha (.grantDIDAllowance ctx granter did a)
    rw [show didStep _ (.grantDIDAllowance ctx granter did a) = s from Eff.Succeeds.commit_eq hg] at hs
    obtain ⟨exp, -, -, -, _, rfl⟩ := grantDIDAllowance_inv hg
    refine ⟨hs.1, ?_⟩
    exact congrArg (Option.map Grant.allowance) (get_set_self _ _ _)

/-- A grant given with a limit, at any time and whatever calls came before: the fees it pays after that sum to at most the limit
in each denomination, and it pays none once its time of expiry is before the block. -/
theorem fees_within_limit (C : CoinLaws Γ) (accounts : Γ.σ) (history : List (Step Γ ⊕ DIDCall Γ)) (ref : GrantRef) (ctx : Ctx)
    (a : Allowance Γ) (s : State Γ)
    (hgive : (ref.give ctx a).Succeeds (Run.run anyStep (State.init accounts) history) () s) (limit : Γ.Coins)
    (hlimit : a.HasLimit limit) (hvalid : ∀ denom, 0 ≤ C.amountOf limit denom) (uses : List (Use Γ × Bool)) :
    (∀ denom, Run.total useStep (paidUnder C ref denom) s uses ≤ C.amountOf limit denom) ∧
      Run.AllSteps useStep (fun s u => u.1.paidBy s = some ref → a.expiredAt u.1.ctx.blockTime = false) s uses := by
  obtain ⟨ha, ht⟩ := allowanceOf_give laws accounts history hgive
  refine ⟨fun denom => ?_, ?_⟩
  · exact Run.total_le useStep (L := LimitLeft C ref denom) (fun _ _ h => h.nonneg) (fun _ _ u h => h.step laws addr u)
      ⟨ha, hvalid denom, .inr ⟨a, limit, ht, hlimit, rfl⟩⟩ uses
  · exact Run.allSteps_invariant useStep (I := StillExpires ref a.expiry) (fun _ u h => h.step laws addr u)
      ⟨ha, .inr ⟨a, ht, rfl⟩⟩ uses

end Runs

/-! ## A local chain -/

/-- The coins of the local chain have one denomination. -/
def localCoins : CoinLaws localFees where
  Denom := Unit
  amountOf n _ := n
  safeSub := fun (a b : Int) (h : decide (a < b) = false) _ => ⟨rfl, Int.sub_nonneg.2 (Int.not_lt.1 (of_decide_eq_false h))⟩
  isZero_of_empty _ h := h

/-- Uses of a grant of five to a DID: two are paid, one that is too large and one after the grant is used up are not. -/
def fiveUses : List (Use localFees × Bool) :=
  [(.useGrantedFeesByDID updateBlock alice localDid (2 : Int) [], true),
    (.useFirstAvailableDIDGrant (blockAt 12 (by decide)) localDid (4 : Int) [], false),
    (.useFirstAvailableDIDGrant (blockAt 13 (by decide)) localDid (3 : Int) [], true),
    (.useGrantedFeesByDID (blockAt 14 (by decide)) alice localDid (1 : Int) [], false)]

/-- The grant pays five in all, its limit. -/
theorem fees_within_limit_five : (∀ denom, Run.total useStep (paidUnder localCoins (.did alice localDid) denom)
        (grantedBy [(alice, .basic ⟨(5 : Int), some ⟨20, 0⟩⟩)]) fiveUses ≤ localCoins.amountOf (5 : Int) denom) ∧
      Run.total useStep (paidUnder localCoins (.did alice localDid) ())
        (grantedBy [(alice, .basic ⟨(5 : Int), some ⟨20, 0⟩⟩)]) fiveUses = 5 := by
  refine ⟨(fees_within_limit localFees_timeLaws localFees_addressLaws localCoins ([] : List Bytes) [] (.did alice localDid)
    (blockAt 10 (by decide)) (.basic ⟨(5 : Int), some ⟨20, 0⟩⟩) _ ?_ (5 : Int) ⟨rfl, by decide⟩ (fun _ => ?_) fiveUses).1, ?_⟩
  · rfl
  · exact Int.le.intro 5 rfl
  · decide +kernel

end Vera.Feegrant
