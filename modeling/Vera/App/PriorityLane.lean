import Vera.App.MinGasPrices

/-!
# The priority lane

`app/lanes/priority_lane.go`. A transaction is ranked by the modules of its messages, then by its gas price. The rank is a
string: the price is written without its point, cut to 32 characters and padded to as many. Up to `10 ^ 14` coins for a unit of
gas the strings are in the order of the prices; a higher price loses its last digits, and with them its magnitude.
-/

namespace Vera.App

open List
open Bytes (str)

/-- What the lane reads of a transaction: the type URLs of its messages, and its fee if it is a `FeeTx`. -/
structure LaneTx where
  msgs : List Bytes
  feeTx : Option FeeTx

def defaultBondDenom : Bytes := str "uopen"

def reduceTo (priority minPriority : Bytes) : Bytes := if priority < minPriority then priority else minPriority

/-- The loop of `getPriorityGroup`. -/
def lowestGroup (minPriority : Bytes) : List Bytes → Bytes
  | [] => minPriority
  | msgType :: rest =>
    if (str "/vera.acp.").isPrefixOf msgType then lowestGroup minPriority rest
    else if (str "/vera.tier.").isPrefixOf msgType then lowestGroup (reduceTo (str "2") minPriority) rest
    else if (str "/vera.orbis.").isPrefixOf msgType then lowestGroup (reduceTo (str "1") minPriority) rest
    else if (str "/vera.bulletin.").isPrefixOf msgType then lowestGroup (reduceTo (str "1") minPriority) rest
    else if (str "/vera.orbis.").isPrefixOf msgType then lowestGroup (reduceTo (str "1") minPriority) rest
    else str "0"

def getPriorityGroup (msgs : List Bytes) : Bytes := if msgs = [] then str "0" else lowestGroup (str "3") msgs

/-- `formatGasPrice`: the point is removed, and the rest cut and padded to 32 characters. -/
def formatGasPrice (gasPrice : Dec) : Bytes :=
  let gasPriceStr := (gasPrice.string.filter (· ≠ 0x2e)).take 32
  replicate (32 - gasPriceStr.length) 0x30 ++ gasPriceStr

/-- `Compare`. -/
def comparePriority {α : Type} [LT α] [DecidableLT α] (a b : α) : Int := if b < a then 1 else if a < b then -1 else 0

section Priority

variable (amountOf : List (Bytes × Int) → Bytes → Int)

/-- `getGasPrice`, where `amountOf` is `Coins.AmountOf`. The gas limit is converted to a signed number. -/
def getGasPrice : Option FeeTx → Dec
  | none => Dec.ofInt 0
  | some ⟨fee, gasLimit⟩ =>
    if gasLimit = 0 ∨ fee = [] then Dec.ofInt 0
    else (Dec.ofInt (amountOf fee defaultBondDenom)).quo (Dec.ofInt (Int.bmod gasLimit.toNat (2 ^ 64)))

def getTxPriority (tx : LaneTx) : Bytes :=
  getPriorityGroup tx.msgs ++ str ":" ++ formatGasPrice (getGasPrice amountOf tx.feeTx)

/-! ## What the order should be -/

/-- What `Coins.AmountOf` answers for coins of positive amounts. -/
structure AmountLaws : Prop where
  nonneg : ∀ fee denom, (∀ coin ∈ fee, 0 < coin.2) → 0 ≤ amountOf fee denom
  single : ∀ denom amount, amountOf [(denom, amount)] denom = amount

/-- The priority of a module's messages. -/
def msgGroup (msgType : Bytes) : Nat :=
  if (str "/vera.acp.").isPrefixOf msgType then 3
  else if (str "/vera.tier.").isPrefixOf msgType then 2
  else if (str "/vera.orbis.").isPrefixOf msgType || (str "/vera.bulletin.").isPrefixOf msgType then 1
  else 0

/-- The lowest priority of some messages. -/
def txGroup (msgs : List Bytes) : Nat := (msgs.map msgGroup).min?.getD 0

/-- The gas price in the bond denomination, to eighteen places. -/
def gasPrice (tx : FeeTx) : Int := ((Dec.ofInt (amountOf tx.fee defaultBondDenom)).quo (Dec.ofInt tx.gas.toNat)).raw

/-- First the groups are compared, then the prices. -/
def compareRank (msgs : List Bytes) (a : FeeTx) (msgs' : List Bytes) (b : FeeTx) : Int :=
  if txGroup msgs = txGroup msgs' then comparePriority (gasPrice amountOf a) (gasPrice amountOf b)
  else comparePriority (txGroup msgs) (txGroup msgs')

/-- A transaction that pays a fee, with a gas limit and a price up to some bounds. -/
structure Within (maxGas : Nat) (maxPrice : Int) (tx : FeeTx) : Prop where
  fee : tx.fee ≠ []
  positive : ∀ coin ∈ tx.fee, 0 < coin.2
  gas_pos : 0 < tx.gas.toNat
  gas_le : tx.gas.toNat ≤ maxGas
  price_le : gasPrice amountOf tx ≤ maxPrice

end Priority

/-! ## Groups -/

/-- The digit of a group. -/
def groupDigit (g : Nat) : UInt8 := UInt8.ofNat (48 + g)

theorem reduceTo_groupDigit {g h : Nat} (hg : g ≤ 3) (hh : h ≤ 3) :
    reduceTo [groupDigit h] [groupDigit g] = [groupDigit (min g h)] := by
  interval_cases g <;> interval_cases h <;> rfl

theorem lowestGroup_eq {g : Nat} (hg : g ≤ 3) (msgs : List Bytes) :
    lowestGroup [groupDigit g] msgs = [groupDigit ((msgs.map msgGroup).foldl min g)] := by
  induction msgs generalizing g with
  | nil => rfl
  | cons msgType rest ih =>
    have hz : (rest.map msgGroup).foldl min 0 = 0 := by
      rw [foldl_min]
      exact Nat.zero_min _
    have hr : ∀ h ≤ 3, lowestGroup (reduceTo [groupDigit h] [groupDigit g]) rest =
        [groupDigit ((rest.map msgGroup).foldl min (min g h))] := by
      intro h hh
      rw [reduceTo_groupDigit hg hh, ih (by omega)]
    unfold lowestGroup
    rw [map_cons, foldl_cons, msgGroup]
    split
    · rw [ih hg, Nat.min_eq_left hg]
    split
    · exact hr 2 (by decide)
    split
    · rename_i hor
      rw [hor, Bool.true_or, if_pos rfl]
      exact hr 1 (by decide)
    split
    · rename_i hb
      rw [hb, Bool.or_true, if_pos rfl]
      exact hr 1 (by decide)
    · rename_i hor hb
      rw [if_neg (by simp [hor, hb]), Nat.min_zero, hz]
      rfl

theorem getPriorityGroup_eq (msgs : List Bytes) : getPriorityGroup msgs = [groupDigit (txGroup msgs)] ∧ txGroup msgs ≤ 3 := by
  cases msgs with
  | nil => exact ⟨rfl, by decide⟩
  | cons msgType rest =>
    have hle : msgGroup msgType ≤ 3 := by
      unfold msgGroup
      repeat' split
      all_goals decide
    have hg : txGroup (msgType :: rest) = ((msgType :: rest).map msgGroup).foldl min 3 := by
      rw [txGroup, map_cons, min?_cons', Option.getD_some, foldl_cons, Nat.min_eq_right hle]
    constructor
    · rw [hg]
      exact lowestGroup_eq le_rfl _
    · rw [hg, foldl_min]
      exact Nat.min_le_left _ _

/-! ## Prices -/

/-- A price of at most 32 digits is written as a number of 32 digits. -/
theorem formatGasPrice_digits {price : Dec} (hno : 0 ≤ price.raw) (hsm : price.raw < 10 ^ 32) :
    (formatGasPrice price).length = 32 ∧ Decimal.readDigits (formatGasPrice price) 0 = some price.raw.natAbs := by
  have hl : price.digits.length ≤ 32 := by
    have hde : (Decimal.dec price.raw.natAbs).length ≤ 32 := by
      rw [Decimal.dec, length_map, Nat.length_toDigits_le_iff (by decide) (by decide)]
      omega
    simp only [Dec.digits, length_append, length_replicate]
    omega
  have hd : ∀ b ∈ price.digits, decide (b ≠ 0x2e) = true := by
    intro b hb
    rcases mem_append.1 hb with hb | hb
    · rw [eq_of_mem_replicate hb]
      decide
    · refine decide_eq_true fun heq => ?_
      exact absurd (heq ▸ Decimal.isDigit_of_mem_dec hb) (by decide)
  have hs : price.string.filter (· ≠ 0x2e) = price.digits := by
    rw [Dec.string, if_neg (by omega), nil_append, filter_append, filter_append,
      filter_eq_self.2 fun b hb => hd b (mem_of_mem_take hb), filter_eq_self.2 fun b hb => hd b (mem_of_mem_drop hb)]
    simp
  have hf : formatGasPrice price = replicate (32 - price.digits.length) 0x30 ++ price.digits := by
    rw [formatGasPrice, hs, take_of_length_le hl]
  rw [hf, Decimal.readDigits_replicate, Dec.digits, Decimal.readDigits_replicate, ← Dec.digits]
  refine ⟨by simp; omega, ?_⟩
  have hr := Decimal.parseNat_dec price.raw.natAbs
  rwa [Decimal.parseNat, if_neg (Decimal.dec_ne_nil _)] at hr

theorem comparePriority_congr {α β : Type} [LT α] [DecidableLT α] [LT β] [DecidableLT β] {a b : α} {c d : β}
    (hlt : a < b ↔ c < d) (hgt : b < a ↔ d < c) : comparePriority a b = comparePriority c d := by
  simp [comparePriority, hlt, hgt]

theorem compare_groups {g g' : Nat} (hg : g ≤ 3) (hg' : g' ≤ 3) (p q : Bytes) :
    comparePriority ([groupDigit g] ++ str ":" ++ p) ([groupDigit g'] ++ str ":" ++ q) =
      if g = g' then comparePriority p q else comparePriority g g' := by
  split
  · rename_i heq
    subst heq
    refine comparePriority_congr ?_ ?_ <;> simp [cons_lt_cons_iff, show str ":" = [0x3a] from rfl]
  · rename_i hne
    have hd : (groupDigit g < groupDigit g' ↔ g < g') ∧ (groupDigit g' < groupDigit g ↔ g' < g) ∧
        groupDigit g ≠ groupDigit g' := by
      interval_cases g <;> interval_cases g' <;> first | contradiction | decide
    obtain ⟨hlt, hgt, hne⟩ := hd
    refine comparePriority_congr ?_ ?_
    · simp [cons_lt_cons_iff, hlt, hne]
    · simp [cons_lt_cons_iff, hgt, hne.symm]

theorem compare_formatGasPrice {p q : Dec} (hp : 0 ≤ p.raw ∧ p.raw < 10 ^ 32) (hq : 0 ≤ q.raw ∧ q.raw < 10 ^ 32) :
    comparePriority (formatGasPrice p) (formatGasPrice q) = comparePriority p.raw q.raw := by
  obtain ⟨hl, hr⟩ := formatGasPrice_digits hp.1 hp.2
  obtain ⟨hl', hr'⟩ := formatGasPrice_digits hq.1 hq.2
  refine comparePriority_congr ?_ ?_
  · rw [Decimal.lt_iff_of_readDigits (hl.trans hl'.symm) hr hr']
    omega
  · rw [Decimal.lt_iff_of_readDigits (hl'.trans hl.symm) hr' hr]
    omega

/-! ## Transactions -/

section Order

variable {amountOf : List (Bytes × Int) → Bytes → Int} {maxGas : Nat} {maxPrice : Int}

theorem getGasPrice_eq {tx : FeeTx} (h : Within amountOf maxGas maxPrice tx) (hg : maxGas < 2 ^ 63) :
    (getGasPrice amountOf (some tx)).raw = gasPrice amountOf tx := by
  have hle := h.gas_le
  have hne : ¬(tx.gas = 0 ∨ tx.fee = []) := by
    rintro (hz | hempty)
    · exact absurd h.gas_pos (by simp [hz])
    · exact h.fee hempty
  show (if tx.gas = 0 ∨ tx.fee = [] then Dec.ofInt 0 else _ : Dec).raw = _
  rw [if_neg hne, Int.bmod_eq_of_le (by omega) (by omega)]
  rfl

/-- A transaction that pays in one coin. -/
def payment (amount : Int) (gas : UInt64) : FeeTx := ⟨[(defaultBondDenom, amount)], gas⟩

theorem compare_payments (L : AmountLaws amountOf) {gas : UInt64} (hg : 0 < gas.toNat) (hm : gas.toNat ≤ maxGas)
    (h : ∀ a b, Within amountOf maxGas maxPrice a → Within amountOf maxGas maxPrice b →
      comparePriority (getTxPriority amountOf ⟨[], some a⟩) (getTxPriority amountOf ⟨[], some b⟩) = compareRank amountOf [] a [] b)
    (amount amount' : Int) (hpo : 0 < amount ∧ 0 < amount')
    (hle : ∀ n ∈ [amount, amount'], ((Dec.ofInt n).quo (Dec.ofInt gas.toNat)).raw ≤ maxPrice) :
    let priority n := str "0:" ++ formatGasPrice ((Dec.ofInt n).quo (Dec.ofInt (Int.bmod gas.toNat (2 ^ 64))))
    comparePriority (priority amount) (priority amount') =
      comparePriority ((Dec.ofInt amount).quo (Dec.ofInt gas.toNat)).raw ((Dec.ofInt amount').quo (Dec.ofInt gas.toNat)).raw := by
  have hp : ∀ n, getTxPriority amountOf ⟨[], some (payment n gas)⟩ =
      str "0:" ++ formatGasPrice ((Dec.ofInt n).quo (Dec.ofInt (Int.bmod gas.toNat (2 ^ 64)))) := by
    intro n
    have hne : ¬(gas = 0 ∨ [(defaultBondDenom, n)] = []) := by
      rintro (rfl | hempty)
      · exact absurd hg (by decide)
      · cases hempty
    unfold getTxPriority getGasPrice payment
    dsimp only
    rw [if_neg hne, L.single]
    rfl
  have hpr : ∀ n, gasPrice amountOf (payment n gas) = ((Dec.ofInt n).quo (Dec.ofInt gas.toNat)).raw := by
    intro n
    rw [gasPrice, payment, L.single]
  have hpa : ∀ n ∈ [amount, amount'], 0 < n → Within amountOf maxGas maxPrice (payment n gas) := fun n hn hpo =>
    ⟨by simp [payment], by simpa [payment] using hpo, hg, hm, (hpr n).trans_le (hle n hn)⟩
  have heq := h _ _ (hpa amount (by simp) hpo.1) (hpa amount' (by simp) hpo.2)
  rwa [hp, hp, compareRank, if_pos rfl, hpr, hpr] at heq

/-- For transactions up to some gas limit and price, the strings are in the order of the groups and prices just if the gas limit
is a signed number and the price has at most 32 digits. -/
theorem priority_order_iff (L : AmountLaws amountOf) (maxGas : Nat) (maxPrice : Int) (hmaxGas : 0 < maxGas)
    (hmaxPrice : 0 < maxPrice) :
    (∀ (msgs msgs' : List Bytes) (a b : FeeTx), Within amountOf maxGas maxPrice a → Within amountOf maxGas maxPrice b →
      comparePriority (getTxPriority amountOf ⟨msgs, some a⟩) (getTxPriority amountOf ⟨msgs', some b⟩) =
        compareRank amountOf msgs a msgs' b) ↔
    maxGas < 2 ^ 63 ∧ maxPrice < 10 ^ 32 := by
  constructor
  · intro h
    refine ⟨lt_of_not_ge fun hl => ?_, lt_of_not_ge fun hl => ?_⟩
    · -- A gas limit of `2 ^ 63` makes the price negative.
      have hlo : ∀ n ∈ [10, 1], ((Dec.ofInt n).quo (Dec.ofInt (2 ^ 63 : UInt64).toNat)).raw ≤ 1 := by decide +kernel
      exact absurd (compare_payments L (by decide +kernel) ((show (2 ^ 63 : UInt64).toNat = 2 ^ 63 by decide +kernel).trans_le hl)
        (h [] []) 10 1 (by decide) fun n hn => (hlo n hn).trans hmaxPrice) (by decide +kernel)
    · -- A price of 33 digits is written as a tenth of it is.
      have hh : ∀ n ∈ [10 ^ 14, 10 ^ 13], ((Dec.ofInt n).quo (Dec.ofInt (1 : UInt64).toNat)).raw ≤ 10 ^ 32 := by decide +kernel
      exact absurd (compare_payments L (by decide +kernel) hmaxGas (h [] []) (10 ^ 14) (10 ^ 13) (by decide)
        fun n hn => (hh n hn).trans hl) (by decide +kernel)
  · rintro ⟨hga, hp⟩ msgs msgs' a b ha hb
    have hr : ∀ {tx}, Within amountOf maxGas maxPrice tx →
        0 ≤ (getGasPrice amountOf (some tx)).raw ∧ (getGasPrice amountOf (some tx)).raw < 10 ^ 32 := by
      intro tx htx
      rw [getGasPrice_eq htx hga]
      refine ⟨Dec.quo_nonneg (mul_nonneg (L.nonneg _ _ htx.positive) (by decide)) (mul_nonneg (by omega) (by decide)), ?_⟩
      exact htx.price_le.trans_lt hp
    obtain ⟨hg, hle⟩ := getPriorityGroup_eq msgs
    obtain ⟨hg', hle'⟩ := getPriorityGroup_eq msgs'
    unfold getTxPriority compareRank
    rw [hg, hg', compare_groups hle hle', compare_formatGasPrice (hr ha) (hr hb), getGasPrice_eq ha hga,
      getGasPrice_eq hb hga]

end Order

/-- A fee of one coin. -/
def firstAmount (fee : List (Bytes × Int)) (_ : Bytes) : Int := (fee.head?.map Prod.snd).getD 0

theorem firstAmount_laws : AmountLaws firstAmount where
  nonneg fee _ hp := by
    cases fee with
    | nil => exact le_rfl
    | cons coin rest => exact (hp coin mem_cons_self).le
  single _ _ := rfl

/-- One message of the policy module that pays half a coin for a unit of gas, and one that pays one. -/
theorem priority_order_iff_ordinary :
    comparePriority (getTxPriority firstAmount ⟨[str "/vera.acp.MsgDirectPolicyCmd"], some (payment 50 100)⟩)
        (getTxPriority firstAmount ⟨[str "/vera.acp.MsgDirectPolicyCmd"], some (payment 100 100)⟩) = -1 := by
  refine ((priority_order_iff firstAmount_laws 100 (10 ^ 18) (by decide) (by decide)).2 (by decide) _ _ _ _
    ⟨?_, ?_, ?_, ?_, ?_⟩ ⟨?_, ?_, ?_, ?_, ?_⟩).trans ?_ <;> decide +kernel

/-- Of two transactions with a gas limit of `2 ^ 63` the one that pays more comes last, and `10 ^ 14` coins for a unit of gas
count as much as `10 ^ 13`. -/
theorem priority_order_false :
    let priority (amount : Int) (gas : UInt64) := getTxPriority firstAmount ⟨[], some (payment amount gas)⟩
    let price (amount : Int) (gas : UInt64) := gasPrice firstAmount (payment amount gas)
    (price 1 (2 ^ 63) < price 10 (2 ^ 63) ∧ comparePriority (priority 10 (2 ^ 63)) (priority 1 (2 ^ 63)) = -1) ∧
      price (10 ^ 13) 1 < price (10 ^ 14) 1 ∧ comparePriority (priority (10 ^ 14) 1) (priority (10 ^ 13) 1) = 0 := by
  decide +kernel

end Vera.App
