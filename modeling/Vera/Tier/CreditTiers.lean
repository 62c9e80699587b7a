import Vera.Lib.Dec
import Vera.Tier.Params

/-!
# What a tier earns

The loop of `calculateCredit` takes the stake from the top, one rate at a time in the order of the list. A rate earns on what
lies between its amount and the smallest amount listed before it, so the parts of the stake never overlap. Only a list in
descending order gives every tier the part between its amount and the next larger one.
-/

namespace Vera.Tier

open List

variable {L M U top diff rate : Int} {rates : List Rate}

/-! ## The decimals of the source -/

theorem creditAtRate_eq_truncateInt (diff rate : Int) :
    (((Dec.ofInt diff).mul (Dec.ofInt rate)).quo (Dec.ofInt 100)).truncateInt = creditAtRate diff rate := by
  have hnu : diff * (rate * Dec.precision) * (Dec.precision * Dec.precision) =
      diff * rate * 10 ^ 16 * Dec.precision * (100 * Dec.precision) := by
    have hp : Dec.precision = 10 ^ 16 * 100 := by decide
    rw [show diff * (rate * Dec.precision) * (Dec.precision * Dec.precision) =
      diff * rate * Dec.precision * Dec.precision * Dec.precision by ring]
    nth_rewrite 1 [hp]
    ring
  rw [Dec.ofInt_mul, Dec.quo, Dec.ofInt, Dec.ofInt, hnu, Int.mul_tdiv_cancel _ (by decide), Dec.chopRound_mul_precision,
    Dec.truncateInt, show Dec.precision = 100 * 10 ^ 16 by decide, Int.mul_tdiv_mul_of_pos_left _ _ (by decide)]
  rfl

theorem creditAtRate_eq_div (hd : 0 ≤ diff) (hr : 0 ≤ rate) : creditAtRate diff rate = diff * rate / 100 :=
  Int.tdiv_eq_ediv_of_nonneg (mul_nonneg hd hr)

@[simp] theorem creditAtRate_zero (rate : Int) : creditAtRate 0 rate = 0 := by
  rw [creditAtRate, zero_mul, Int.zero_tdiv]

/-! ## The parts of the stake -/

/-- The credit of the rates on the stake between `locked` and `top`, each on the part from its amount up to the smallest
amount before it. -/
def partsCredit (locked : Int) : (top : Int) → List Rate → Int
  | _, [] => 0
  | top, r :: rest =>
    creditAtRate (max 0 (top - max r.amount locked)) r.rate + partsCredit locked (min top r.amount) rest

theorem partsCredit_of_le (h : top ≤ L) : partsCredit L top rates = 0 := by
  induction rates generalizing top with
  | nil => rfl
  | cons r rest ih =>
    rw [partsCredit, max_eq_left (by omega), creditAtRate_zero, zero_add]
    exact ih (by omega)

theorem calculateCreditLoop_eq (credit : Int) (h : L ≤ top) :
    calculateCreditLoop L rates credit top (top - L) = credit + partsCredit L top rates := by
  induction rates generalizing credit top with
  | nil => simp [calculateCreditLoop, partsCredit]
  | cons r rest ih =>
    rw [calculateCreditLoop, partsCredit]
    split
    · rw [ih credit h, max_eq_left (by omega), creditAtRate_zero, zero_add, min_eq_left (by omega)]
    · dsimp only
      rw [max_eq_right (a := (0 : Int)) (by omega)]
      split
      · rw [partsCredit_of_le (show min top r.amount ≤ L by omega), add_zero]
      · -- the amount lies above the locked stake, and what is left reaches up to it
        rw [show top - (top - max r.amount L) = min top r.amount by omega,
          show top - L - (top - max r.amount L) = min top r.amount - L by omega, ih _ (by omega), add_assoc]

theorem calculateCredit_eq (h : 0 ≤ top) : calculateCredit rates L top = partsCredit L (L + top) rates := by
  rw [calculateCredit, ← zero_add (partsCredit _ _ _), ← calculateCreditLoop_eq 0 (by omega), add_sub_cancel_left]

/-! ## Splitting a lock -/

/-- Two truncated parts fall short of the truncated whole by at most one, and by nothing if one of them is empty. -/
theorem creditAtRate_add {x y : Int} (hx : 0 ≤ x) (hy : 0 ≤ y) (hr : 0 ≤ rate) :
    creditAtRate (x + y) rate - creditAtRate x rate - creditAtRate y rate = 0 ∨
      (0 < x ∧ 0 < y ∧ creditAtRate (x + y) rate - creditAtRate x rate - creditAtRate y rate = 1) := by
  rcases hx.eq_or_lt with rfl | hx'
  · simp
  rcases hy.eq_or_lt with rfl | hy'
  · simp
  rw [creditAtRate_eq_div (by omega) hr, creditAtRate_eq_div hx hr, creditAtRate_eq_div hy hr, add_mul]
  generalize x * rate = p
  generalize y * rate = q
  omega

theorem partsCredit_split (hr : ∀ r ∈ rates, 0 ≤ r.rate) (hLM : L ≤ M) (hMU : M ≤ U) (m : Int) :
    partsCredit L (min U m) rates - partsCredit L (min M m) rates - partsCredit M (min U m) rates = 0 ∨
      partsCredit L (min U m) rates - partsCredit L (min M m) rates - partsCredit M (min U m) rates = 1 := by
  induction rates generalizing m with
  | nil => exact Or.inl rfl
  | cons r rest ih =>
    have hrest := ih (fun r' h => hr r' (mem_cons_of_mem _ h)) (min m r.amount)
    have hp : max 0 (min U m - max r.amount L) =
        max 0 (min M m - max r.amount L) + max 0 (min U m - max r.amount M) := by omega
    have hh := creditAtRate_add (le_max_left 0 (min M m - max r.amount L)) (le_max_left 0 (min U m - max r.amount M))
      (hr r mem_cons_self)
    rw [partsCredit, partsCredit, partsCredit, hp, min_assoc, min_assoc]
    rcases hh with hz | ⟨hl, hhi, hon⟩
    · omega
    · -- the cut lies in this part, so below it nothing is cut
      rw [partsCredit_of_le (L := M) (by omega), show min U (min m r.amount) = min M (min m r.amount) by omega] at hrest ⊢
      omega

theorem tdiv_add_le {x y z t d : Int} (hx : 0 ≤ x) (hy : 0 ≤ y) (hz : x + y ≤ z) (ht : 0 ≤ t) (hd : 0 < d) :
    (x * t).tdiv d + (y * t).tdiv d ≤ (z * t).tdiv d := by
  have hxt := mul_nonneg hx ht
  have hyt := mul_nonneg hy ht
  have hle : x * t + y * t ≤ z * t := by
    rw [← add_mul]
    exact mul_le_mul_of_nonneg_right hz ht
  rw [Int.tdiv_eq_ediv_of_nonneg hxt, Int.tdiv_eq_ediv_of_nonneg hyt, Int.tdiv_eq_ediv_of_nonneg (by omega),
    Int.le_ediv_iff_mul_le hd, add_mul]
  have h₁ := Int.ediv_mul_le (x * t) hd.ne'
  have h₂ := Int.ediv_mul_le (y * t) hd.ne'
  omega

theorem partsCredit_nonneg (hr : ∀ r ∈ rates, 0 ≤ r.rate) : 0 ≤ partsCredit L top rates := by
  induction rates generalizing top with
  | nil => exact le_refl 0
  | cons r rest ih =>
    rw [partsCredit, creditAtRate_eq_div (le_max_left _ _) (hr r mem_cons_self)]
    have hh := mul_nonneg (le_max_left 0 (top - max r.amount L)) (hr r mem_cons_self)
    have hrest : 0 ≤ partsCredit L (min top r.amount) rest := ih fun r' h => hr r' (mem_cons_of_mem _ h)
    omega

/-- Locking an amount in two parts earns the credit of the whole, or one less; and the parts' shares of the epoch are not more
than the share of the whole. The order of the list does not matter for this. -/
theorem split_lock_gains_nothing (rates : List Rate) (hrates : ∀ r ∈ rates, 0 < r.rate) (L a b : Int) (ha : 0 ≤ a)
    (hb : 0 ≤ b) :
    (calculateCredit rates L (a + b) - calculateCredit rates L a - calculateCredit rates (L + a) b = 0 ∨
      calculateCredit rates L (a + b) - calculateCredit rates L a - calculateCredit rates (L + a) b = 1) ∧
    ∀ (epochStart blockTime : Time) (epochDuration : Int), 0 ≤ blockTime.sub epochStart →
      calculateProratedCredit rates L a epochStart blockTime epochDuration +
        calculateProratedCredit rates (L + a) b epochStart blockTime epochDuration ≤
      calculateProratedCredit rates L (a + b) epochStart blockTime epochDuration := by
  have hrates' : ∀ r ∈ rates, 0 ≤ r.rate := fun r h => (hrates r h).le
  have hs := partsCredit_split (m := L + a + b) hrates' (show L ≤ L + a by omega) (show L + a ≤ L + a + b by omega)
  rw [min_self, min_eq_left (a := L + a) (by omega)] at hs
  rw [← calculateCredit_eq ha, ← calculateCredit_eq hb, add_assoc L, ← calculateCredit_eq (by omega)] at hs
  refine ⟨hs, fun epochStart blockTime epochDuration hin => ?_⟩
  have hno : ∀ L a, 0 ≤ a → 0 ≤ calculateCredit rates L a := fun L a ha =>
    (partsCredit_nonneg hrates').trans_eq (calculateCredit_eq ha).symm
  have hsi : 0 ≤ Time.milliseconds (blockTime.sub epochStart) := Int.tdiv_nonneg hin (by decide)
  unfold calculateProratedCredit
  dsimp only
  split
  · omega
  · split
    · exact tdiv_add_le (hno L a ha) (hno (L + a) b hb) (by omega) hsi (by omega)
    · omega

theorem split_lock_gains_nothing_one : (∀ r ∈ defaultParams.rewardRates, 0 < r.rate) ∧
    (calculateCredit defaultParams.rewardRates 100 (15 + 9) - calculateCredit defaultParams.rewardRates 100 15 -
      calculateCredit defaultParams.rewardRates (100 + 15) 9 = 1) := by
  have hs := (split_lock_gains_nothing defaultParams.rewardRates (by decide) 100 15 9 (by decide) (by decide)).1
  exact ⟨by decide, hs.resolve_left (by decide)⟩

/-! ## The order of the tiers -/

/-- The end of the part of a tier: the next larger amount, or the end of the stake if that comes first. -/
def tierEnd (amounts : List Int) (top amount : Int) : Int := (amounts.filter (amount < ·)).foldr min top

/-- The credit by tiers: each rate on the part of the stake from its amount to the next larger amount. -/
def tieredCredit (rates : List Rate) (locked locking : Int) : Int :=
  (rates.map fun r =>
    r.rate * max 0 (tierEnd (rates.map Rate.amount) (locked + locking) r.amount - max r.amount locked) / 100).sum

theorem tieredCredit_perm {rates' : List Rate} (h : rates.Perm rates') (locked locking : Int) :
    tieredCredit rates locked locking = tieredCredit rates' locked locking := by
  have hen : ∀ top amount, tierEnd (rates.map Rate.amount) top amount = tierEnd (rates'.map Rate.amount) top amount :=
    fun top amount => ((h.map Rate.amount).filter _).foldr_eq top
  unfold tieredCredit
  simp only [hen]
  exact (h.map _).sum_eq

theorem foldr_min_comm (l : List Int) (a b : Int) : l.foldr min (min a b) = min (l.foldr min b) a := by
  induction l with
  | nil => exact min_comm a b
  | cons x rest ih => rw [foldr_cons, foldr_cons, ih, min_assoc]

theorem partsCredit_eq_sum (before : List Int) (hr : ∀ r ∈ rates, 0 ≤ r.rate)
    (hs : (before ++ rates.map Rate.amount).Pairwise (· > ·)) :
    partsCredit L (before.foldr min top) rates = (rates.map fun r =>
        r.rate * max 0 (tierEnd (before ++ rates.map Rate.amount) top r.amount - max r.amount L) / 100).sum := by
  induction rates generalizing before with
  | nil => rfl
  | cons r rest ih =>
    rw [map_cons] at hs
    obtain ⟨-, hh, hcr⟩ := pairwise_append.1 hs
    have hen : tierEnd (before ++ r.amount :: rest.map Rate.amount) top r.amount = before.foldr min top := by
      have hl : before.filter (r.amount < ·) = before :=
        filter_eq_self.2 fun x hx => decide_eq_true (hcr x hx _ mem_cons_self)
      have hsm : (rest.map Rate.amount).filter (r.amount < ·) = [] :=
        filter_eq_nil_iff.2 fun x hx => by simpa using ((pairwise_cons.1 hh).1 x hx).le
      rw [tierEnd, filter_append, hl, filter_cons_of_neg (by simp), hsm, append_nil]
    have hsp : before ++ r.amount :: rest.map Rate.amount = (before ++ [r.amount]) ++ rest.map Rate.amount := by simp
    have hrest := ih (before ++ [r.amount]) (fun r' h => hr r' (mem_cons_of_mem _ h)) (hsp ▸ hs)
    rw [foldr_append, foldr_cons, foldr_nil, foldr_min_comm] at hrest
    rw [partsCredit, map_cons, map_cons, sum_cons, hen, hrest, hsp,
      creditAtRate_eq_div (le_max_left _ _) (hr r mem_cons_self), mul_comm]

theorem calculateCredit_eq_tieredCredit {locking : Int} (hr : ∀ r ∈ rates, 0 ≤ r.rate) (hl : 0 ≤ locking)
    (hs : (rates.map Rate.amount).Pairwise (· > ·)) :
    calculateCredit rates L locking = tieredCredit rates L locking := by
  rw [calculateCredit_eq hl]
  exact partsCredit_eq_sum [] hr hs

theorem partsCredit_unit (hra : ∀ r ∈ rates, 0 ≤ r.rate) (hL : L + 1 ≤ top) :
    partsCredit L (min top (L + 1)) rates = ((rates.find? (·.amount ≤ L)).map fun r => r.rate / 100).getD 0 := by
  induction rates generalizing top with
  | nil => rfl
  | cons r rest ih =>
    rw [partsCredit, List.find?_cons]
    by_cases hr : r.amount ≤ L
    · rw [decide_eq_true hr, partsCredit_of_le (by omega), max_eq_right (a := r.amount) hr,
        show max 0 (min top (L + 1) - L) = 1 by omega, creditAtRate_eq_div (by decide) (hra r mem_cons_self)]
      simp
    · rw [decide_eq_false hr, max_eq_left (b := min top (L + 1) - _) (by omega), creditAtRate_zero, zero_add,
        show min (min top (L + 1)) r.amount = min (L + 1) (L + 1) by omega]
      exact ih (fun r' h => hra r' (mem_cons_of_mem _ h)) (le_refl _)

theorem le_tierEnd_iff {amounts : List Int} {c amount : Int} :
    c ≤ tierEnd amounts top amount ↔ c ≤ top ∧ ∀ x ∈ amounts, amount < x → c ≤ x := by
  rw [tierEnd]
  induction amounts with
  | nil => simp
  | cons x rest ih =>
    by_cases hx : amount < x
    · rw [filter_cons_of_pos (by simpa using hx), foldr_cons, le_min_iff, ih, forall_mem_cons]
      simp only [hx, forall_const]
      exact and_left_comm
    · simpa [filter_cons_of_neg, hx] using ih

/-- The rate 200 for one amount, 100 for all others. -/
def doubled (b : Int) (amounts : List Int) : List Rate := amounts.map fun x => ⟨x, if x = b then 200 else 100⟩

theorem map_amount_doubled (b : Int) (amounts : List Int) : (doubled b amounts).map Rate.amount = amounts := by
  rw [doubled, map_map]
  exact map_id amounts

theorem tieredCredit_doubled {amounts : List Int} {b : Int} (hno : amounts.Nodup) (hb : b ∈ amounts) :
    tieredCredit (doubled b amounts) b 1 = 2 := by
  have ht : ∀ x ∈ amounts, (if x = b then 200 else 100) * max 0 (tierEnd amounts (b + 1) x - max x b) / 100 =
      if x = b then 2 else (0 : Int) := by
    intro x _
    obtain ⟨hto, hl⟩ := le_tierEnd_iff.1 (le_refl (tierEnd amounts (b + 1) x))
    rcases lt_trichotomy x b with hlt | rfl | hgt
    · rw [max_eq_left (by have := hl b hb hlt; omega), if_neg hlt.ne, if_neg hlt.ne]
      rfl
    · have hen := le_tierEnd_iff.2 ⟨le_refl (x + 1), fun y (_ : y ∈ amounts) (h : x < y) => h⟩
      rw [show max 0 (tierEnd amounts (x + 1) x - max x x) = (1 : Int) by omega, if_pos rfl, if_pos rfl]
      rfl
    · rw [max_eq_left (by omega), if_neg hgt.ne', if_neg hgt.ne']
      rfl
  have hs : (amounts.map fun x => if x = b then 2 else (0 : Int)).sum = 2 := by
    rw [sum_map_ite_eq, count_eq_one_of_mem hno hb]
    simp
  rw [tieredCredit, map_amount_doubled, doubled, map_map, ← hs]
  exact congrArg List.sum (map_congr_left ht)

theorem calculateCredit_doubled {amounts : List Int} {a b : Int} (hno : amounts.Nodup) (hab : a < b)
    (hb : [a, b].Sublist amounts) : calculateCredit (doubled b amounts) b 1 = 1 := by
  obtain ⟨p, q, rfl, ha, hq⟩ := cons_sublist_iff.1 hb
  have hbp : b ∉ p := fun hp => disjoint_of_nodup_append hno hp (singleton_sublist.1 hq)
  have hpo : ∀ r ∈ doubled b (p ++ q), 0 ≤ r.rate := by
    intro r hr
    obtain ⟨x, -, rfl⟩ := mem_map.1 hr
    dsimp only
    split <;> decide
  have hf : ∃ x ∈ p, (p ++ q).find? (· ≤ b) = some x := by
    have hs : (p.find? (· ≤ b)).isSome := List.find?_isSome.2 ⟨a, ha, decide_eq_true hab.le⟩
    obtain ⟨x, hx⟩ := Option.isSome_iff_exists.1 hs
    exact ⟨x, mem_of_find?_eq_some hx, by rw [List.find?_append, hx]; rfl⟩
  obtain ⟨x, hx, hf⟩ := hf
  have hu := partsCredit_unit hpo (le_refl (b + 1))
  rw [min_self, ← calculateCredit_eq (by decide)] at hu
  rw [hu, doubled, List.find?_map]
  simp only [Function.comp_def, hf]
  simp [show x ≠ b from fun h => hbp (h ▸ hx)]

/-- Different amounts that are not negative, in the order of a list: whatever the rates, as long as they pass the validation,
the loop gives every stake the credit by tiers of any permutation of the list if and only if the order is descending. -/
theorem reward_tiers_order_iff (amounts : List Int) (hnonneg : ∀ a ∈ amounts, 0 ≤ a) (hnodup : amounts.Nodup) :
    (∀ rates : List Rate, rates.map Rate.amount = amounts → validateRewardRates rates = .ok () →
      ∀ rates' : List Rate, rates.Perm rates' → ∀ locked locking : Int, 0 ≤ locked → 0 ≤ locking →
        calculateCredit rates locked locking = tieredCredit rates' locked locking) ↔
      amounts.Pairwise (· > ·) := by
  constructor
  · intro h
    refine pairwise_iff_forall_sublist.2 fun {a b} hb => ?_
    by_contra hnot
    have hmem := hb.subset
    have hne : a ≠ b := by simpa using hnodup.sublist hb
    have hv : validateRewardRates (doubled b amounts) = .ok () := by
      refine validateRewardRates_eq_ok.2 fun r hr => ?_
      obtain ⟨x, hx, rfl⟩ := mem_map.1 hr
      refine ⟨hnonneg x hx, ?_⟩
      dsimp only
      split <;> decide
    have heq := h _ (map_amount_doubled b amounts) hv _ (List.Perm.refl _) b 1 (hnonneg b (hmem (by simp))) (by decide)
    rw [calculateCredit_doubled hnodup (by omega) hb, tieredCredit_doubled hnodup (hmem (by simp))] at heq
    exact absurd heq (by decide)
  · rintro hs rates rfl hv rates' hp locked locking - hl
    rw [← tieredCredit_perm hp]
    exact calculateCredit_eq_tieredCredit (fun r hr => (validateRewardRates_eq_ok.1 hv r hr).2.le) hl hs

theorem reward_tiers_order_default : [300, 200, 100, (0 : Int)].Nodup ∧
    ∀ rates' : List Rate, defaultParams.rewardRates.Perm rates' → ∀ locked locking : Int, 0 ≤ locked → 0 ≤ locking →
      calculateCredit defaultParams.rewardRates locked locking = tieredCredit rates' locked locking := by
  have hif := reward_tiers_order_iff [300, 200, 100, 0] (by decide) (by decide)
  exact ⟨by decide, hif.2 (by decide) defaultParams.rewardRates rfl rfl⟩

/-- The default rates in ascending order pass the validation, and a stake of 400 earns 400 instead of 480. -/
theorem reward_tiers_order_false : validateRewardRates defaultParams.rewardRates.reverse = .ok () ∧
      calculateCredit defaultParams.rewardRates 0 400 = 480 ∧
      calculateCredit defaultParams.rewardRates.reverse 0 400 = 400 ∧
      tieredCredit defaultParams.rewardRates.reverse 0 400 = 480 := by
  decide

end Vera.Tier
