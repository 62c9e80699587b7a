import Vera.Tier.SlashingRate

/-!
# What the insurance pool covers

When a validator missed signatures, the insurance pool delegates an amount to it and the lockups get insurance lockups in
proportion. The proportion is taken of the module's stake after the slash, but given to the lockups as they were before, so
together the lockups can be promised more than was paid in. How much more shows in one lockup of the whole stake: no set of
lockups within the stake is promised more than that one.
-/

namespace Vera.Tier

open Eff KVStore List
open Bytes (str)

section

variable {Γ : Env}

/-- Whether a key is read as that of a lockup with a validator. -/
def isWith (valAddr key : Bytes) : Bool :=
  match (lockupKeyToAddresses key : Outcome Error (Bytes × Bytes)) with
  | .ok (_, v) => v = valAddr
  | _ => false

/-- The amounts of the lockups with a validator, summed. -/
def State.lockedWith (s : State Γ) (valAddr : Bytes) : Int :=
  s.lockups.sumBy fun key l => if isWith valAddr key then l.amount else 0

/-- The amounts of the insurance lockups with a validator, summed. -/
def State.insuredWith (s : State Γ) (valAddr : Bytes) : Int :=
  s.insurance.sumBy fun key l => if isWith valAddr key then l.amount else 0

/-- Lockups have positive amounts, and insured amounts are not negative. -/
structure AmountsSound (s : State Γ) : Prop where
  positive : ∀ key lockup, s.lockups.get key = some lockup → 0 < lockup.amount
  insured : ∀ key lockup, s.insurance.get key = some lockup → 0 ≤ lockup.amount

end

/-- A slash for missing signatures: `slashed` tokens were taken from a validator, and the state of the other modules tells
what is left. Balances and shares are not negative, and the pool can delegate what it holds. -/
structure MissedSlash {Γ : StakingEnv} (s₀ : State Γ.toEnv) where
  validatorAddr : Bytes
  slashedAmount : Bytes
  slashed : Int
  stake : SlashedStake Γ
  shares : Γ.Shares
  found : slashedStake validatorAddr slashedAmount s₀ = .ok stake
  delegation : Γ.getDelegation s₀.env stake.valAddr = .ok shares
  totalSlashed : stake.totalSlashed = Dec.ofInt slashed
  slashed_pos : 0 < slashed
  tokens_pos : 0 < Γ.tokens stake.validator
  shares_pos : 0 < (Γ.sharesDec shares).raw
  delegatorShares_pos : 0 < (Γ.delegatorShares stake.validator).raw
  pool_nonneg : 0 ≤ Γ.getBalance s₀.env Γ.insurancePoolAddress .uopen
  pool_delegates : ((Γ.delegateInsurance (stake.coveredAmount s₀) stake.validator) s₀.env).1.isOk = true

namespace MissedSlash

variable {Γ : StakingEnv} {s₀ : State Γ.toEnv} (m : MissedSlash s₀)

def covered : Int := m.stake.coveredAmount s₀

def slashingRate : Dec := m.stake.slashingRate (Dec.ofInt m.stake.tierSlashedTokens)

def coverageRate : Dec := (Dec.ofInt m.covered).quo m.stake.tierStake

/-- The whole tokens of the module's stake before the slash: its shares of the tokens that were there. -/
def stakeBefore : Int :=
  (Γ.sharesDec m.shares).raw * (Γ.tokens m.stake.validator + m.slashed) / (Γ.delegatorShares m.stake.validator).raw

/-- The lockups with the validator sum to at most the module's stake before the slash. -/
def Within (st : State Γ.toEnv) : Prop :=
  st.lockedWith m.stake.valAddr * (Γ.delegatorShares m.stake.validator).raw ≤
    (Γ.sharesDec m.shares).raw * (Γ.tokens m.stake.validator + m.slashed)

/-- In every state with lockups within the stake, no more is promised than the pool delegates, and that is no more than it
holds. -/
def Covered : Prop :=
  ∀ st : State Γ.toEnv, st.env = s₀.env → AmountsSound st → m.Within st →
    ((handleMissingSignature m.validatorAddr m.slashedAmount).attempt.commit st).insuredWith m.stake.valAddr -
        st.insuredWith m.stake.valAddr ≤ m.covered ∧
      m.covered ≤ Γ.getBalance st.env Γ.insurancePoolAddress .uopen

end MissedSlash

namespace InsuranceCoverAux

/-! ## Rates -/

theorem amountAtRate_zero (rate : Dec) : amountAtRate 0 rate = 0 := by
  rw [amountAtRate_eq, zero_mul, Int.zero_tdiv]

variable {amount a b : Int} {rate slashingRate coverageRate : Dec} {amounts : List Int}

theorem amountAtRate_lt (ha : 0 < amount) (hr : rate.raw < Dec.precision) : amountAtRate amount rate < amount := by
  rw [amountAtRate_eq]
  rcases le_or_gt 0 (amount * rate.raw) with hno | hne
  · rw [Int.tdiv_eq_ediv_of_nonneg hno]
    exact Int.ediv_lt_of_lt_mul Dec.precision_pos (mul_lt_mul_of_pos_left hr ha)
  · have hp : 0 ≤ (-(amount * rate.raw)).tdiv Dec.precision := Int.tdiv_nonneg (by omega) Dec.precision_pos.le
    rw [Int.neg_tdiv] at hp
    omega

theorem amountAtRate_ne_zero {larger : Int} (ha : 0 < amount) (hle : amount ≤ larger)
    (h : amountAtRate amount rate ≠ 0) : amountAtRate larger rate ≠ 0 := by
  rw [amountAtRate_eq] at h ⊢
  rw [← Int.natAbs_ne_zero, Int.natAbs_tdiv] at h ⊢
  have hm : (amount * rate.raw).natAbs ≤ (larger * rate.raw).natAbs := by
    rw [Int.natAbs_mul, Int.natAbs_mul]
    exact Nat.mul_le_mul_right _ (by omega)
  have hd : (amount * rate.raw).natAbs.div Dec.precision.natAbs ≤ (larger * rate.raw).natAbs.div Dec.precision.natAbs :=
    Nat.div_le_div_right hm
  omega

theorem amountAtRate_add_le (ha : 0 ≤ a) (hb : 0 ≤ b) (hr : 0 ≤ rate.raw) :
    amountAtRate a rate + amountAtRate b rate ≤ amountAtRate (a + b) rate := by
  simp only [amountAtRate_eq]
  have ha' := mul_nonneg ha hr
  have hb' := mul_nonneg hb hr
  rw [add_mul, Int.tdiv_eq_ediv_of_nonneg ha', Int.tdiv_eq_ediv_of_nonneg hb', Int.tdiv_eq_ediv_of_nonneg (add_nonneg ha' hb'),
    Int.le_ediv_iff_mul_le Dec.precision_pos, add_mul]
  exact add_le_add (Int.ediv_mul_le _ Dec.precision_pos.ne') (Int.ediv_mul_le _ Dec.precision_pos.ne')

theorem amountAtRate_mono (ha : 0 ≤ a) (hab : a ≤ b) (hr : 0 ≤ rate.raw) : amountAtRate a rate ≤ amountAtRate b rate := by
  have hrest : 0 ≤ amountAtRate (b - a) rate := amountAtRate_nonneg (by omega) hr
  have had := amountAtRate_add_le (a := a) (b := b - a) ha (by omega) hr
  rw [add_sub_cancel] at had
  omega

/-- What an adjustment adds to the insurance of a lockup. -/
def insuredPart (slashingRate coverageRate : Dec) (amount : Int) : Int :=
  if amountAtRate amount slashingRate = amount ∨ amountAtRate amount slashingRate = 0 then 0
  else amountAtRate amount coverageRate

theorem insuredPart_le (ha : 0 ≤ amount)
    (hco : 0 ≤ coverageRate.raw) : insuredPart slashingRate coverageRate amount ≤ amountAtRate amount coverageRate := by
  unfold insuredPart
  split
  · exact amountAtRate_nonneg ha hco
  · exact le_refl _

/-! ## The loop over the lockups -/

section

variable {Γ : Env}

variable {d v : Bytes} {s t : State Γ} {slashingRate coverageRate : Dec} {u : Unit}

theorem isWith_lockupKey (hd : d.length = 20) (hv : v.length = 20) : isWith v (lockupKey d v) = true := by
  unfold isWith
  rw [lockupKeyToAddresses_eq_ok.2 ⟨hd, hv, rfl⟩]
  exact decide_eq_true rfl

theorem length_of_isWith {key : Bytes} (h : isWith v key = true) : v.length = 20 := by
  unfold isWith at h
  split at h
  · rename_i d v' hr
    rw [← of_decide_eq_true h]
    exact (lockupKeyToAddresses_eq_ok.1 hr).2.1
  · cases h

theorem insuredWith_key (hke : isWith v (lockupKey d v) = true) :
    ((s.insurance.get (lockupKey d v)).map fun l => if isWith v (lockupKey d v) then l.amount else 0).getD 0 =
      s.getInsuranceLockupAmount d v := by
  unfold State.getInsuranceLockupAmount State.getInsuranceLockup
  rw [hke]
  rfl

theorem insuredWith_set {insurance : Lockup} (hke : isWith v (lockupKey d v) = true)
    (ht : t.insurance = s.insurance.set (lockupKey d v) insurance) :
    t.insuredWith v = s.insuredWith v - s.getInsuranceLockupAmount d v + insurance.amount := by
  have hs := sumBy_set (fun key l => if isWith v key then Lockup.amount l else 0) s.insurance (lockupKey d v) insurance
  rw [insuredWith_key hke, if_pos hke, ← ht] at hs
  unfold State.insuredWith
  omega

theorem insuredWith_delete (hke : isWith v (lockupKey d v) = true) (ht : t.insurance = s.insurance.delete (lockupKey d v)) :
    t.insuredWith v = s.insuredWith v - s.getInsuranceLockupAmount d v := by
  have hs := sumBy_delete (fun key l => if isWith v key then Lockup.amount l else 0) s.insurance (lockupKey d v)
  rw [insuredWith_key hke, ← ht] at hs
  unfold State.insuredWith
  omega

/-- What an adjustment does to what is insured with the validator, and to the lockups under other keys. -/
theorem adjustLockup_insuredWith {lockup : Lockup}
    (h : (adjustLockup d v slashingRate coverageRate).Succeeds s u t) (hkey : isWith v (lockupKey d v) = true)
    (hl : s.getLockup d v = some lockup) (ham : 0 ≤ lockup.amount) (hcov : 0 ≤ coverageRate.raw)
    (hin : ∀ key l, s.insurance.get key = some l → 0 ≤ l.amount) :
    t.insuredWith v ≤ s.insuredWith v + insuredPart slashingRate coverageRate lockup.amount ∧
      (∀ key l, t.insurance.get key = some l → 0 ≤ l.amount) ∧
      ∀ key, key ≠ lockupKey d v → t.lockups.get key = s.lockups.get key := by
  obtain ⟨lockup', after, hl', ha, hca⟩ := adjustLockup_ok h
  obtain rfl := Option.some.inj (hl'.symm.trans hl)
  have hcove : 0 ≤ amountAtRate lockup'.amount coverageRate := amountAtRate_nonneg ham hcov
  have hold : 0 ≤ s.getInsuranceLockupAmount d v := by
    unfold State.getInsuranceLockupAmount State.getInsuranceLockup
    cases hget : s.insurance.get (lockupKey d v) with
    | none => exact le_refl 0
    | some l => exact hin _ l hget
  unfold insuredPart
  rcases hca with ⟨heq, rfl⟩ | ⟨-, hz, rfl⟩ | ⟨hne, hno, hco⟩
  · rw [if_pos (.inl (ha ▸ heq))]
    exact ⟨by omega, hin, fun _ _ => rfl⟩
  · rw [if_pos (.inr (ha ▸ hz)), insuredWith_delete hkey rfl]
    refine ⟨by omega, All.delete hin _, fun key hke => ?_⟩
    rw [get_delete, if_neg hke]
  · rw [if_neg (by rw [← ha]; exact not_or.2 ⟨hne, hno⟩)]
    rw [coverLockup_ok] at hco
    split at hco
    · subst hco
      rw [insuredWith_set hkey rfl]
      dsimp only
      refine ⟨?_, All.set hin (add_nonneg hcove hold), fun key hke => ?_⟩
      · show s.insuredWith v - s.getInsuranceLockupAmount d v +
          (amountAtRate lockup'.amount coverageRate + s.getInsuranceLockupAmount d v) ≤ _
        omega
      · rw [State.withLockup, get_set_of_ne _ _ hke]
    · subst hco
      refine ⟨?_, hin, fun key hke => ?_⟩
      · show s.insuredWith v ≤ _
        omega
      · rw [State.withLockup, get_set_of_ne _ _ hke]

/-- The amounts in a list of records that are lockups with a validator. -/
def amountsWith (v : Bytes) (entries : List (Bytes × Lockup)) : List Int :=
  (entries.filter fun e => isWith v e.1).map fun e => e.2.amount

theorem adjustEntry_ok {e : Bytes × Lockup} (h : (adjustEntry v slashingRate coverageRate e).Succeeds s u t) :
    isWith v e.1 = false ∧ t = s ∨
      isWith v e.1 = true ∧ ∃ d, e.1 = lockupKey d v ∧ (adjustLockup d v slashingRate coverageRate).Succeeds s () t := by
  unfold adjustEntry at h
  obtain ⟨⟨d, v'⟩, s₁, hl, hrest⟩ := bind_ok.1 h
  obtain ⟨hr, hs₁⟩ := lift_ok.1 hl
  subst hs₁
  have hw : isWith v e.1 = decide (v' = v) := by
    unfold isWith
    rw [hr]
  obtain ⟨-, -, hke⟩ := lockupKeyToAddresses_eq_ok.1 hr
  dsimp only at hrest
  split at hrest
  · rename_i hne
    exact .inl ⟨hw.trans (decide_eq_false hne), (pure_ok.1 hrest).2⟩
  · rename_i heq
    obtain rfl := not_not.1 heq
    exact .inr ⟨hw.trans (decide_eq_true rfl), d, hke, hrest⟩

theorem adjustEntry_err {e : Bytes × Lockup} {err : Error}
    (h : adjustEntry v slashingRate coverageRate e s = (.err err, t)) : t = s := by
  rcases bind_eq_err h with hr | ⟨⟨d, v'⟩, s₁, hl, hrest⟩
  · exact (congrArg Prod.snd hr).symm
  · rw [(lift_ok.1 hl).2] at hrest
    dsimp only at hrest
    by_cases hne : v' ≠ v
    · rw [if_pos hne] at hrest
      cases hrest
    · rw [if_neg hne] at hrest
      exact (adjustLockup_err hrest).2

theorem insuredPart_nonneg {amount : Int} (ha : 0 ≤ amount)
    (hco : 0 ≤ coverageRate.raw) : 0 ≤ insuredPart slashingRate coverageRate amount := by
  unfold insuredPart
  split
  · exact le_refl 0
  · exact amountAtRate_nonneg ha hco

/-- The loop: what is insured with the validator grows by at most the parts of the lockups with it. -/
theorem forEach_adjust_insuredWith (hco : 0 ≤ coverageRate.raw)
    (entries : List (Bytes × Lockup)) (hd : entries.Pairwise fun a b => a.1 ≠ b.1)
    (hp : ∀ e ∈ entries, 0 ≤ e.2.amount) {bound : Int} (s : State Γ) (hmem : ∀ e ∈ entries, s.lockups.get e.1 = some e.2)
    (hin : ∀ key l, s.insurance.get key = some l → 0 ≤ l.amount)
    (hbo : s.insuredWith v + ((amountsWith v entries).map (insuredPart slashingRate coverageRate)).sum ≤ bound) :
    Eff.KeepsAt (fun t => t.insuredWith v ≤ bound) (Eff.forEach entries (adjustEntry v slashingRate coverageRate)) s := by
  induction entries generalizing s with
  | nil => exact Eff.Keeps.pure () s
  | cons e rest ih =>
    obtain ⟨hne, hd⟩ := pairwise_cons.1 hd
    have hrest : 0 ≤ ((amountsWith v rest).map (insuredPart slashingRate coverageRate)).sum := by
      refine sum_nonneg fun x hx => ?_
      simp only [amountsWith, mem_map, mem_filter] at hx
      obtain ⟨_, ⟨e', ⟨he', -⟩, rfl⟩, rfl⟩ := hx
      exact insuredPart_nonneg (hp e' (mem_cons_of_mem _ he')) hco
    -- one step: the bound on the rest, the signs and the records not yet met carry over
    have hst : ∀ t, (adjustEntry v slashingRate coverageRate e).Succeeds s () t →
        t.insuredWith v + ((amountsWith v rest).map (insuredPart slashingRate coverageRate)).sum ≤ bound ∧
        (∀ key l, t.insurance.get key = some l → 0 ≤ l.amount) ∧ ∀ e' ∈ rest, t.lockups.get e'.1 = some e'.2 := by
      intro t ht
      have hget := hmem e mem_cons_self
      rcases adjustEntry_ok ht with ⟨hw, rfl⟩ | ⟨hw, d, hke, ha⟩
      · have hsk : amountsWith v (e :: rest) = amountsWith v rest := by
          simp [amountsWith, hw]
        rw [hsk] at hbo
        exact ⟨hbo, hin, fun e' he' => hmem e' (mem_cons_of_mem _ he')⟩
      · have hta : amountsWith v (e :: rest) = e.2.amount :: amountsWith v rest := by
          simp [amountsWith, hw]
        rw [hta, map_cons, sum_cons] at hbo
        rw [hke] at hget hw
        obtain ⟨hg, hins, hot⟩ := adjustLockup_insuredWith ha hw hget (hp e mem_cons_self) hco hin
        refine ⟨by omega, hins, fun e' he' => ?_⟩
        rw [hot e'.1 (by rw [← hke]; exact (hne e' he').symm)]
        exact hmem e' (mem_cons_of_mem _ he')
    refine Eff.KeepsAt.bind (Eff.KeepsAt.of_cases (fun _ t _ ht => ?_) fun _ t hs ht => adjustEntry_err ht ▸ hs)
      fun _ t ht => ?_
    · have hl := (hst t ht).1
      omega
    · obtain ⟨hb, hins, hr⟩ := hst t ht
      exact ih hd (fun e' he' => hp e' (mem_cons_of_mem _ he')) t hr hins hb

theorem lockedWith_eq (s : State Γ) (v : Bytes) : s.lockedWith v = (amountsWith v s.lockups.entries).sum := by
  unfold State.lockedWith KVStore.sumBy amountsWith
  induction s.lockups.entries with
  | nil => rfl
  | cons e rest ih =>
    rw [map_cons, sum_cons, ih, filter_cons]
    by_cases hw : isWith v e.1 = true
    · simp [hw]
    · simp [hw]

end

/-! ## One lockup of the whole stake is the worst case -/

/-- The insured parts of lockups, summed, are at most the insured part of one lockup of all. -/
theorem sum_amountAtRate_le (hr : 0 ≤ rate.raw) (hp : ∀ x ∈ amounts, 0 ≤ x) :
    (amounts.map fun x => amountAtRate x rate).sum ≤ amountAtRate amounts.sum rate := by
  induction amounts with
  | nil => exact (amountAtRate_zero rate).ge
  | cons x rest ih =>
    have hrest := fun y hy => hp y (mem_cons_of_mem _ hy)
    rw [map_cons, sum_cons, sum_cons]
    calc amountAtRate x rate + (rest.map fun x => amountAtRate x rate).sum
        ≤ amountAtRate x rate + amountAtRate rest.sum rate := add_le_add_right (ih hrest) _
      _ ≤ amountAtRate (x + rest.sum) rate :=
        amountAtRate_add_le (hp x mem_cons_self) (sum_nonneg hrest) hr

theorem sum_insuredPart_le (hs : slashingRate.raw ≤ Dec.precision)
    (hco : 0 ≤ coverageRate.raw) (hpo : ∀ x ∈ amounts, 0 < x) {whole covered : Int}
    (hsu : amounts.sum ≤ whole) (hcov : 0 ≤ covered)
    (hw : amountAtRate whole slashingRate = 0 ∨ amountAtRate whole slashingRate = whole ∨
      amountAtRate whole coverageRate ≤ covered) :
    (amounts.map (insuredPart slashingRate coverageRate)).sum ≤ covered := by
  have hno : ∀ x ∈ amounts, 0 ≤ x := fun x hx => (hpo x hx).le
  by_cases ha : ∀ x ∈ amounts, insuredPart slashingRate coverageRate x = 0
  · rw [sum_eq_zero fun y hy => ?_]
    · exact hcov
    · obtain ⟨x, hx, rfl⟩ := mem_map.1 hy
      exact ha x hx
  -- a lockup that is adjusted and stays: then one of the whole stake would be adjusted and stay as well
  simp only [not_forall] at ha
  obtain ⟨x, hx, hp⟩ := ha
  unfold insuredPart at hp
  split at hp
  · exact absurd rfl hp
  rename_i hch
  obtain ⟨hne, hnon⟩ := not_or.1 hch
  have hxl : x ≤ whole := (single_le_sum hno x hx).trans hsu
  have hr : slashingRate.raw ≠ Dec.precision := by
    intro heq
    refine hne ?_
    rw [amountAtRate_eq, heq]
    exact Int.mul_tdiv_cancel _ Dec.precision_pos.ne'
  have hlt : amountAtRate whole slashingRate < whole :=
    amountAtRate_lt ((hpo x hx).trans_le hxl) (lt_of_le_of_ne hs hr)
  rcases hw with hz | hsame | hle
  · exact absurd hz (amountAtRate_ne_zero (hpo x hx) hxl hnon)
  · exact absurd hsame hlt.ne
  · calc (amounts.map (insuredPart slashingRate coverageRate)).sum
        ≤ (amounts.map fun x => amountAtRate x coverageRate).sum :=
          sum_le_sum fun y hy => insuredPart_le (hno y hy) hco
      _ ≤ amountAtRate amounts.sum coverageRate := sum_amountAtRate_le hco hno
      _ ≤ amountAtRate whole coverageRate := amountAtRate_mono (sum_nonneg hno) hsu hco
      _ ≤ covered := hle

/-! ## The handler -/

section

variable {Γ : StakingEnv} {s₀ : State Γ.toEnv} (m : MissedSlash s₀)

variable {s t : State Γ.toEnv}

theorem slashedStake_congr {validatorAddr slashedAmount : Bytes} (h : t.env = s.env) :
    slashedStake validatorAddr slashedAmount t = slashedStake validatorAddr slashedAmount s := by
  unfold slashedStake
  rw [h]

theorem coveredAmount_congr (d : SlashedStake Γ) (h : t.env = s.env) : d.coveredAmount t = d.coveredAmount s := by
  unfold SlashedStake.coveredAmount
  rw [h]

theorem tierStake_nonneg : 0 ≤ m.stake.tierStake.raw := by
  obtain ⟨-, -, -, -, -, -, shares, hs, -, -, hst⟩ := slashedStake_eq_ok.1 m.found
  obtain rfl := Except.ok.inj (m.delegation.symm.trans hs)
  rw [hst]
  exact Dec.quoTruncate_nonneg (mul_nonneg m.shares_pos.le m.tokens_pos.le) m.delegatorShares_pos.le

theorem tierSlashedTokens_nonneg : 0 ≤ m.stake.tierSlashedTokens := by
  obtain ⟨-, -, -, -, hs, -⟩ := slashedStake_eq_ok.1 m.found
  refine Dec.truncateInt_ceil_nonneg (Dec.chopRound_nonneg (mul_nonneg ?_ (Dec.quo_nonneg (tierStake_nonneg m) ?_)))
  · rw [m.totalSlashed]
    exact mul_nonneg m.slashed_pos.le Dec.precision_pos.le
  · rw [hs]
    exact mul_nonneg m.tokens_pos.le Dec.precision_pos.le

theorem slashingRate_le : m.slashingRate.raw ≤ Dec.precision := by
  refine Dec.quo_le_one (tierStake_nonneg m) ?_
  have hl : 0 ≤ (Dec.ofInt m.stake.tierSlashedTokens).raw := mul_nonneg (tierSlashedTokens_nonneg m) Dec.precision_pos.le
  show m.stake.tierStake.raw - _ ≤ _
  omega

theorem covered_nonneg : 0 ≤ m.covered := by
  unfold MissedSlash.covered SlashedStake.coveredAmount
  split
  · exact m.pool_nonneg
  · exact tierSlashedTokens_nonneg m

theorem covered_le_pool : m.covered ≤ Γ.getBalance s₀.env Γ.insurancePoolAddress .uopen := by
  unfold MissedSlash.covered SlashedStake.coveredAmount
  split
  · exact le_refl _
  · omega

theorem coverageRate_nonneg : 0 ≤ m.coverageRate.raw :=
  Dec.quo_nonneg (mul_nonneg (covered_nonneg m) Dec.precision_pos.le) (tierStake_nonneg m)

theorem covered_of_whole (hwh : m.stake.valAddr.length = 20 →
      amountAtRate m.stakeBefore m.slashingRate = 0 ∨ amountAtRate m.stakeBefore m.slashingRate = m.stakeBefore ∨
      amountAtRate m.stakeBefore m.coverageRate ≤ m.covered) : m.Covered := by
  intro st hen hs hw
  refine ⟨?_, hen ▸ covered_le_pool m⟩
  suffices ((handleMissingSignature m.validatorAddr m.slashedAmount).attempt.commit st).insuredWith m.stake.valAddr ≤
      st.insuredWith m.stake.valAddr + m.covered by omega
  have hc := covered_nonneg m
  refine Eff.KeepsAt.commit (P := fun t : State Γ.toEnv =>
      t.insuredWith m.stake.valAddr ≤ st.insuredWith m.stake.valAddr + m.covered)
    (Eff.KeepsAt.attempt (Eff.KeepsAt.query_bind fun d hd => Eff.KeepsAt.require_bind fun _ => ?_)) (by omega)
  rw [slashedStake_congr hen] at hd
  obtain rfl := Outcome.ok.inj (m.found.symm.trans hd)
  refine Eff.KeepsAt.read_bind (Eff.KeepsAt.bind (fun h _ => h) fun _ t hcall => ?_)
  obtain ⟨env, -, rfl⟩ := callEnv_ok.1 hcall
  rw [coveredAmount_congr _ hen]
  have hp : ∀ e ∈ st.lockups.entries, 0 < e.2.amount :=
    fun e he => hs.positive e.1 e.2 (st.lockups.mem_entries.1 he)
  refine Eff.KeepsAt.read_bind (forEach_adjust_insuredWith (coverageRate_nonneg m) st.lockups.entries ?_
    (fun e he => (hp e he).le) _ (fun e he => st.lockups.mem_entries.1 he) hs.insured ?_)
  · refine st.lockups.sorted.imp fun {a b} hlt heq => ?_
    rw [heq] at hlt
    simp at hlt
  · have hsu : (amountsWith m.stake.valAddr st.lockups.entries).sum ≤ m.stakeBefore := by
      rw [← lockedWith_eq]
      exact (Int.le_ediv_iff_mul_le m.delegatorShares_pos).2 hw
    refine add_le_add_right ?_ _
    by_cases hl : m.stake.valAddr.length = 20
    · refine sum_insuredPart_le (slashingRate_le m) (coverageRate_nonneg m) (fun x hx => ?_) hsu hc (hwh hl)
      obtain ⟨e, he, rfl⟩ := mem_map.1 hx
      exact hp e (mem_filter.1 he).1
    · have hnone : amountsWith m.stake.valAddr st.lockups.entries = [] := by
        refine map_eq_nil_iff.2 (filter_eq_nil_iff.2 fun e _ hwi => hl (length_of_isWith hwi))
      rw [hnone]
      exact hc

theorem tierSlashedTokens_ne_zero (hz : amountAtRate m.stakeBefore m.slashingRate ≠ 0)
    (hsame : amountAtRate m.stakeBefore m.slashingRate ≠ m.stakeBefore) : m.stake.tierSlashedTokens ≠ 0 := by
  intro hnone
  have hr : m.slashingRate = m.stake.tierStake.quo m.stake.tierStake := by
    unfold MissedSlash.slashingRate SlashedStake.slashingRate
    rw [hnone, Dec.ofInt, zero_mul, Dec.sub, sub_zero]
  by_cases hs : m.stake.tierStake.raw = 0
  · refine hz ?_
    rw [hr, amountAtRate_eq, Dec.quo, hs, zero_mul, Int.zero_tdiv, Dec.chopRound_zero, mul_zero, Int.zero_tdiv]
  · refine hsame ?_
    rw [hr, Dec.quo_self hs, amountAtRate_ofInt, mul_one]

def someAddress : Bytes := List.replicate 20 0

/-- The state with one lockup, of the module's whole stake before the slash. -/
def wholeLockup : State Γ.toEnv :=
  { s₀ with
    lockups := KVStore.empty.set (lockupKey someAddress m.stake.valAddr) ⟨[], [], m.stakeBefore⟩
    insurance := KVStore.empty
    totalLockups := some (m.stakeBefore - amountAtRate m.stakeBefore m.slashingRate) }

theorem stakeBefore_nonneg : 0 ≤ m.stakeBefore := by
  have ht := m.tokens_pos
  have hs := m.slashed_pos
  exact Int.ediv_nonneg (mul_nonneg m.shares_pos.le (by omega)) m.delegatorShares_pos.le

theorem wholeLockup_sound (hp : 0 < m.stakeBefore) : AmountsSound (wholeLockup m) := by
  exact ⟨All.set .empty hp, fun key lockup h => nomatch h⟩

theorem wholeLockup_within (hlen : m.stake.valAddr.length = 20) : m.Within (wholeLockup m) := by
  have hke := isWith_lockupKey (d := someAddress) (by decide) hlen
  have hl : (wholeLockup m).lockedWith m.stake.valAddr = m.stakeBefore := by
    show (if isWith _ _ then m.stakeBefore else 0) + 0 = _
    rw [if_pos hke, add_zero]
  unfold MissedSlash.Within
  rw [hl]
  exact Int.ediv_mul_le _ m.delegatorShares_pos.ne'

/-- The lockup of the whole stake, if it is adjusted and stays, is insured at the coverage rate. -/
theorem wholeLockup_insured (hlen : m.stake.valAddr.length = 20) (hp : 0 < m.stakeBefore)
    (hz : amountAtRate m.stakeBefore m.slashingRate ≠ 0)
    (hsame : amountAtRate m.stakeBefore m.slashingRate ≠ m.stakeBefore) (hco : 0 < m.coverageRate.raw) :
    ((handleMissingSignature m.validatorAddr m.slashedAmount).attempt.commit (wholeLockup m)).insuredWith m.stake.valAddr =
      amountAtRate m.stakeBefore m.coverageRate := by
  have hde : someAddress.length = 20 := by decide
  have hke := isWith_lockupKey hde hlen
  have hr : (lockupKeyToAddresses (lockupKey someAddress m.stake.valAddr) : Outcome Error _) =
      .ok (someAddress, m.stake.valAddr) := lockupKeyToAddresses_eq_ok.2 ⟨hde, hlen, rfl⟩
  obtain ⟨_, hd⟩ := succeeds_of_isOk m.pool_delegates
  generalize ((Γ.delegateInsurance (m.stake.coveredAmount s₀) m.stake.validator) s₀.env).2 = env at hd
  -- the total was chosen such that the new one is zero
  have ht : isInt64 ((wholeLockup m).getTotalLockupsAmount - m.stakeBefore +
      amountAtRate m.stakeBefore m.slashingRate) = true := by
    have hlt := amountAtRate_lt hp (lt_of_le_of_ne (slashingRate_le m) ?_)
    · have hm : (wholeLockup m).getTotalLockupsAmount = m.stakeBefore - amountAtRate m.stakeBefore m.slashingRate :=
        max_eq_right (by show 0 ≤ m.stakeBefore - amountAtRate m.stakeBefore m.slashingRate; omega)
      rw [hm, sub_sub_cancel_left, neg_add_cancel]
      rfl
    · intro heq
      refine hsame ?_
      rw [amountAtRate_eq, heq]
      exact Int.mul_tdiv_cancel _ Dec.precision_pos.ne'
  have ha : ∃ t : State Γ.toEnv,
      (adjustLockup someAddress m.stake.valAddr m.slashingRate m.coverageRate).Succeeds { wholeLockup m with env := env } () t ∧
      t.insurance = KVStore.empty.set (lockupKey someAddress m.stake.valAddr)
        ⟨Γ.accAddressString someAddress, Γ.valAddressString m.stake.valAddr, amountAtRate m.stakeBefore m.coverageRate + 0⟩ := by
    have hl : State.getLockup { wholeLockup m with env := env } someAddress m.stake.valAddr =
        some ⟨[], [], m.stakeBefore⟩ := get_set_self _ _ _
    refine ⟨_, adjustLockup_writes hl hsame hz ht (coverLockup_ok.2 rfl), ?_⟩
    rw [if_pos (show m.coverageRate.isPositive = true from decide_eq_true hco)]
    rfl
  obtain ⟨t, ha, hin⟩ := ha
  have hen : (adjustEntry m.stake.valAddr m.slashingRate m.coverageRate
      (lockupKey someAddress m.stake.valAddr, ⟨[], [], m.stakeBefore⟩)).Succeeds { wholeLockup m with env := env } () t := by
    refine bind_ok.2 ⟨_, _, lift_ok.2 ⟨hr, rfl⟩, ?_⟩
    dsimp only
    rw [if_neg (not_not.2 rfl)]
    exact ha
  have hru : (handleMissingSignature m.validatorAddr m.slashedAmount).Succeeds (wholeLockup m) () t := by
    refine query_bind_ok.2 ⟨m.stake, m.found, require_bind_ok.2
      ⟨tierSlashedTokens_ne_zero m hz hsame, read_bind_ok.2 (callEnv_bind_ok.2 ⟨_, env, hd, ?_⟩)⟩⟩
    exact read_bind_ok.2 (bind_ok.2 ⟨(), t, hen, pure_ok.2 ⟨rfl, rfl⟩⟩)
  rw [attempt_commit_of_ok hru, insuredWith_set (s := wholeLockup m) hke hin]
  show 0 - 0 + (amountAtRate m.stakeBefore m.coverageRate + 0) = _
  omega

end

end InsuranceCoverAux

open InsuranceCoverAux

/-- No more is promised than paid in, in every state, exactly if this is so for one lockup of the whole stake: it is not
adjusted, or nothing is left of it, or its insured part is at most what the pool delegates. No lockup is read with a
validator whose address has not twenty bytes. -/
theorem insurance_covered_iff {Γ : StakingEnv} {s₀ : State Γ.toEnv} (m : MissedSlash s₀) :
    m.Covered ↔ (m.stake.valAddr.length = 20 →
      amountAtRate m.stakeBefore m.slashingRate = 0 ∨ amountAtRate m.stakeBefore m.slashingRate = m.stakeBefore ∨
      amountAtRate m.stakeBefore m.coverageRate ≤ m.covered) := by
  refine ⟨fun hcov hl => ?_, covered_of_whole m⟩
  by_cases hz : amountAtRate m.stakeBefore m.slashingRate = 0
  · exact .inl hz
  by_cases hsame : amountAtRate m.stakeBefore m.slashingRate = m.stakeBefore
  · exact .inr (.inl hsame)
  refine .inr (.inr ?_)
  have hno : 0 ≤ m.stakeBefore := stakeBefore_nonneg m
  have hpo : 0 < m.stakeBefore := by
    refine lt_of_le_of_ne hno fun heq => hz ?_
    rw [← heq, amountAtRate_zero]
  rcases (coverageRate_nonneg m).lt_or_eq with hco | hco
  · have hp := (hcov (wholeLockup m) rfl (wholeLockup_sound m hpo) (wholeLockup_within m hl)).1
    rw [wholeLockup_insured m hl hpo hz hsame hco] at hp
    change _ - 0 ≤ _ at hp
    omega
  · rw [amountAtRate_eq, ← hco, mul_zero, Int.zero_tdiv]
    exact covered_nonneg m

/-! ## A validator of whose stake all is the module's -/

/-- A slash by 100 of 1000 tokens, all of the module's stake, with a pool that holds 1000. -/
def slashedHundred : MissedSlash (lockedShares 900 1000 1000) where
  validatorAddr := operator
  slashedAmount := str "100"
  slashed := 100
  stake := ⟨operator, ⟨operator, 900, Dec.ofInt 1000⟩, Dec.ofInt 100, Dec.ofInt 900, Dec.ofInt 900⟩
  shares := (1000 : Int)
  found := by
    refine slashedStake_eq_ok.2 ⟨?_, ?_, rfl, rfl, rfl, rfl, (1000 : Int), rfl, rfl, rfl, ?_⟩
    · show Chain.parseAddress operator = .ok operator
      decide
    · show parseDigits (str "100") = .ok (Dec.ofInt 100)
      decide
    · show Dec.ofInt 900 = ((Dec.ofInt 1000).mulInt 900).quoTruncate (Dec.ofInt 1000)
      decide
  delegation := rfl
  totalSlashed := rfl
  slashed_pos := by decide
  tokens_pos := by decide
  shares_pos := by decide
  delegatorShares_pos := by decide
  pool_nonneg := by decide +kernel
  pool_delegates := by decide +kernel

/-- One lockup of 1000 would get an insurance of 111. -/
theorem insurance_covered_iff_hundred : ¬slashedHundred.Covered := by
  rw [insurance_covered_iff]
  intro h
  have hw := h (by decide)
  revert hw
  decide +kernel

/-- The pool delegates 100, and the lockups are promised 111. -/
theorem insurance_covered_false :
    AmountsSound (lockedShares 900 1000 1000) ∧ slashedHundred.Within (lockedShares 900 1000 1000) ∧
    slashedHundred.covered = 100 ∧
    ((handleMissingSignature operator (str "100")).attempt.commit (lockedShares 900 1000 1000)).insuredWith operator -
      (lockedShares 900 1000 1000).insuredWith operator = 111 := by
  refine ⟨⟨?_, fun key lockup h => nomatch h⟩, ?_, by decide +kernel, by decide +kernel⟩
  · exact All.set .empty (by decide)
  · unfold MissedSlash.Within
    decide +kernel

end Vera.Tier
