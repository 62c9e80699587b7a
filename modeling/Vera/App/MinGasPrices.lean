import Mathlib
import Vera.App.DeductFee
import Vera.Lib.Dec

/-!
# The fee a node asks for

`checkTxFeeWithMinGasPrices` (`app/ante/fee.go`), the fee checker of the chain. The price of a denomination is looked up with a
function that answers zero for one that is not listed, so such a fee pays at the default price. The gas limit is read as a signed
number, so a limit of `2 ^ 63` or more asks for nothing.
-/

namespace Vera.App

open Bytes (str)

/-- What the checker and the priority lane read of a transaction that pays a fee: its coins, each with its denomination and its
amount, and its gas limit. -/
structure FeeTx where
  fee : List (Bytes × Int)
  gas : UInt64
  deriving Repr, DecidableEq

/-- The prices of the SDK. -/
structure Prices where
  DecCoins : Type
  /-- `DecCoins.AmountOf`, where none is a nil decimal. -/
  amountOf : DecCoins → Bytes → Option Dec
  decCoinsString : DecCoins → Bytes
  coinsString : List (Bytes × Int) → Bytes

variable {P : Prices}

/-- What the checker reads of the context, and of the configuration of the chain if there is a keeper for it. -/
structure FeeCtx (P : Prices) where
  isCheckTx : Bool
  minGasPrices : P.DecCoins
  allowZeroFeeTxs : Option Bool

def microCreditDenom : Bytes := str "ucredit"

/-- `DefaultMinGasPrice`, 0.001. -/
def defaultMinGasPrice : Dec := ⟨10 ^ 15⟩

def creditFeeMultiplier : Int := 10

def denomFeeMultiplier (denom : Bytes) : Int := if denom = microCreditDenom then creditFeeMultiplier else 1

/-- The price that counts: the default one in place of zero. -/
def enforced (minGasPrice : Dec) : Dec := if minGasPrice.isZero then defaultMinGasPrice else minGasPrice

/-- The fee that is asked for; the gas limit is converted to a signed number. -/
def requiredAmount (denom : Bytes) (minGasPrice : Dec) (gas : UInt64) : Int :=
  (((enforced minGasPrice).mul (Dec.ofInt (Int.bmod gas.toNat (2 ^ 64)))).mul (Dec.ofInt (denomFeeMultiplier denom))).ceil.roundInt

/-- `checkTxFeeWithMinGasPrices`: the fee, and the priority, which is always zero. A transaction that pays no fee is none. -/
def checkTxFeeWithMinGasPrices (P : Prices) (ctx : FeeCtx P) (tx : Option FeeTx) : Outcome Error (List (Bytes × Int) × Int) :=
  match tx with
  | none => .err ⟨.txDecode, str "tx must be a FeeTx"⟩
  | some ⟨[], _⟩ =>
    if ctx.allowZeroFeeTxs = some true then .ok ([], 0)
    else .err ⟨.insufficientFee, str "zero fees are not allowed"⟩
  | some ⟨[(denom, amount)], gas⟩ =>
    if ctx.isCheckTx then
      match P.amountOf ctx.minGasPrices denom with
      | none => .err ⟨.invalidCoins, str "invalid fee denom: " ++ denom ++ str " is not supported, available fee denoms: " ++
          P.decCoinsString ctx.minGasPrices⟩
      | some minGasPrice =>
        if amount < requiredAmount denom minGasPrice gas then
          .err ⟨.insufficientFee, str "insufficient fee; got: " ++ P.coinsString [(denom, amount)] ++ str " required: " ++
            P.coinsString [(denom, requiredAmount denom minGasPrice gas)]⟩
        else .ok ([(denom, amount)], 0)
    else .ok ([(denom, amount)], 0)
  | some ⟨fees, _⟩ => .err ⟨.invalidCoins, str "only one fee denomination is allowed, got: " ++ P.coinsString fees⟩

/-! ## What a node should admit -/

/-- The listed prices, none of which is negative. The price of a denomination that is not listed is answered as zero, which is
what a node without prices relies on. -/
structure PriceLaws (P : Prices) where
  listed : P.DecCoins → Bytes → Option Dec
  nonneg : ∀ {prices denom price}, listed prices denom = some price → 0 ≤ price.raw
  amountOf : ∀ prices denom, P.amountOf prices denom = some ((listed prices denom).getD ⟨0⟩)

/-- The least whole fee that pays the price of the gas, as a number: the configured price or, when that is zero, 0.001, times the
gas limit, and ten times that in credits. -/
def requiredFee (denom : Bytes) (price : Dec) (gas : UInt64) : Int :=
  ⌈(if price.raw = 0 then 1 / 1000 else price.raw / 10 ^ 18 : ℚ) * gas.toNat * (if denom = microCreditDenom then 10 else 1)⌉

/-- The fee is one coin of a listed denomination and pays at least what is required. -/
def Admissible (L : PriceLaws P) (prices : P.DecCoins) (tx : FeeTx) : Prop :=
  ∃ denom amount price, tx.fee = [(denom, amount)] ∧ L.listed prices denom = some price ∧
    requiredFee denom price tx.gas ≤ amount

variable {denom : Bytes} {price : Dec} {gas : UInt64} {n : Int}

theorem requiredFee_le_iff :
    requiredFee denom price gas ≤ n ↔ (enforced price).raw * gas.toNat * denomFeeMultiplier denom ≤ n * 10 ^ 18 := by
  have hp : (if price.raw = 0 then 1 / 1000 else price.raw / 10 ^ 18 : ℚ) = (enforced price).raw / 10 ^ 18 := by
    unfold enforced Dec.isZero
    by_cases hz : price.raw = 0
    · norm_num [hz, defaultMinGasPrice]
    · simp [hz]
  have hm : (if denom = microCreditDenom then 10 else 1 : ℚ) = denomFeeMultiplier denom := by
    unfold denomFeeMultiplier creditFeeMultiplier
    split <;> simp
  rw [requiredFee, Int.ceil_le, hp, hm, div_mul_eq_mul_div, div_mul_eq_mul_div, div_le_iff₀ (by norm_num)]
  exact_mod_cast Iff.rfl

theorem requiredAmount_le_iff : requiredAmount denom price gas ≤ n ↔
    (enforced price).raw * Int.bmod gas.toNat (2 ^ 64) * denomFeeMultiplier denom ≤ n * 10 ^ 18 := by
  rw [requiredAmount, Dec.mul_ofInt, Dec.mul_ofInt, Dec.roundInt_ceil_le_iff]
  rfl

theorem enforced_pos (h : 0 ≤ price.raw) : 0 < (enforced price).raw := by
  unfold enforced Dec.isZero
  split
  · decide
  · rename_i hz
    exact lt_of_le_of_ne h fun heq => hz (by simp [← heq])

theorem denomFeeMultiplier_pos (denom : Bytes) : 0 < denomFeeMultiplier denom := by
  unfold denomFeeMultiplier
  split <;> decide

/-- Below `2 ^ 63` the checker asks for what is required. -/
theorem requiredAmount_eq (hg : gas.toNat < 2 ^ 63) : requiredAmount denom price gas = requiredFee denom price gas := by
  refine eq_of_forall_ge_iff fun n => ?_
  rw [requiredAmount_le_iff, requiredFee_le_iff, Int.bmod_eq_of_le (by omega) (by omega)]

/-- From `2 ^ 63` on it asks for nothing, where more than one coin is required. -/
theorem requiredAmount_of_large (denom : Bytes) (hp : 0 ≤ price.raw) (hg : 2 ^ 63 ≤ gas.toNat) :
    requiredAmount denom price gas ≤ 1 ∧ ¬requiredFee denom price gas ≤ 1 := by
  have hp := enforced_pos hp
  have hm := denomFeeMultiplier_pos denom
  have hb := gas.toNat_lt
  rw [requiredAmount_le_iff, requiredFee_le_iff, not_le]
  constructor
  · have hne : Int.bmod gas.toNat (2 ^ 64) ≤ 0 := by
      rw [Int.bmod_def]
      split <;> omega
    have hle := mul_nonpos_of_nonpos_of_nonneg (mul_nonpos_of_nonneg_of_nonpos hp.le hne) hm.le
    omega
  · have hg' : (2 ^ 63 : Int) ≤ gas.toNat := by exact_mod_cast hg
    have hco : (2 ^ 63 : Int) ≤ (enforced price).raw * gas.toNat := by nlinarith
    calc (1 * 10 ^ 18 : Int) < 2 ^ 63 := by decide
      _ ≤ (enforced price).raw * gas.toNat := hco
      _ ≤ (enforced price).raw * gas.toNat * denomFeeMultiplier denom := by nlinarith

variable {ctx : FeeCtx P} {amount : Int}

theorem checkTxFee_single (hcheck : ctx.isCheckTx = true) (h : P.amountOf ctx.minGasPrices denom = some price) :
    (checkTxFeeWithMinGasPrices P ctx (some ⟨[(denom, amount)], gas⟩)).isOk = true ↔ requiredAmount denom price gas ≤ amount := by
  simp only [checkTxFeeWithMinGasPrices, hcheck, h, if_true]
  split
  · rename_i hlt
    simp [Outcome.isOk, hlt]
  · rename_i hlt
    simpa [Outcome.isOk] using hlt

/-- In `CheckTx`, for every gas limit and all prices: the fees whose first coin has a denomination are admitted
exactly when they should be if and only if the denomination is listed and the gas limit is less than `2 ^ 63`. -/
theorem fee_admission_iff (L : PriceLaws P) (ctx : FeeCtx P) (hcheck : ctx.isCheckTx = true) (denom : Bytes) (gas : UInt64) :
    (∀ fee, fee.head?.map Prod.fst = some denom →
      ((checkTxFeeWithMinGasPrices P ctx (some ⟨fee, gas⟩)).isOk = true ↔ Admissible L ctx.minGasPrices ⟨fee, gas⟩)) ↔
    (L.listed ctx.minGasPrices denom).isSome = true ∧ gas.toNat < 2 ^ 63 := by
  have ha := L.amountOf ctx.minGasPrices denom
  constructor
  · intro h
    have hl : (L.listed ctx.minGasPrices denom).isSome = true := by
      -- otherwise a large fee is admitted
      have hf := (h [(denom, _)] rfl).1 ((checkTxFee_single hcheck ha).2 le_rfl)
      obtain ⟨denom', _, price, hco, hp, -⟩ := hf
      obtain ⟨⟨rfl, -⟩, -⟩ := by simpa using hco
      rw [hp]
      rfl
    obtain ⟨price, hp⟩ := Option.isSome_iff_exists.1 hl
    refine ⟨hl, lt_of_not_ge fun hla => ?_⟩
    obtain ⟨hon, hm⟩ := requiredAmount_of_large denom (L.nonneg hp) hla
    rw [hp, Option.getD_some] at ha
    obtain ⟨denom', _, price', hco, hp', hle⟩ := (h [(denom, 1)] rfl).1 ((checkTxFee_single hcheck ha).2 hon)
    obtain ⟨rfl, rfl⟩ := by simpa using hco
    obtain rfl := Option.some.inj (hp.symm.trans hp')
    exact hm hle
  · rintro ⟨hl, hs⟩ fee hf
    obtain ⟨price, hp⟩ := Option.isSome_iff_exists.1 hl
    rw [hp, Option.getD_some] at ha
    match fee, hf with
    | [(d, amount)], hf =>
      obtain rfl : d = denom := by simpa using hf
      rw [checkTxFee_single hcheck ha, requiredAmount_eq hs]
      refine ⟨fun hle => ⟨d, amount, price, rfl, hp, hle⟩, ?_⟩
      rintro ⟨_, _, price', hco, hp', hle⟩
      obtain ⟨rfl, rfl⟩ := by simpa using hco
      obtain rfl := Option.some.inj (hp.symm.trans hp')
      exact hle
    | _ :: _ :: _, _ =>
      simp [checkTxFeeWithMinGasPrices, Outcome.isOk, Admissible]

/-! ## A node with two prices -/

/-- Prices in the units of the last place. -/
def localPrices : Prices where
  DecCoins := Bytes → Option Nat
  amountOf prices denom := some ⟨(prices denom).getD 0⟩
  decCoinsString _ := []
  coinsString _ := []

def localPrices_laws : PriceLaws localPrices where
  listed prices denom := (prices denom).map fun units : Nat => ⟨units⟩
  nonneg := by
    intro prices denom price h
    obtain ⟨units, -, rfl⟩ := Option.map_eq_some_iff.1 h
    exact Int.natCast_nonneg units
  amountOf prices denom := by
    cases h : prices denom <;> simp [localPrices, h]

/-- A price of 0.001 for `uopen` and for credits. -/
def twoPrices : FeeCtx localPrices where
  isCheckTx := true
  minGasPrices denom := if denom = str "uopen" ∨ denom = microCreditDenom then some (10 ^ 15) else none
  allowZeroFeeTxs := none

/-- With a gas limit of 20000, 200 credits are admitted and 199 are not. -/
theorem fee_admission_iff_credits : [200, 199].map (fun amount => (checkTxFeeWithMinGasPrices localPrices twoPrices
      (some ⟨[(microCreditDenom, amount)], 20000⟩)).isOk) = [true, false] ∧
    ∀ fee, fee.head?.map Prod.fst = some microCreditDenom →
      ((checkTxFeeWithMinGasPrices localPrices twoPrices (some ⟨fee, 20000⟩)).isOk = true ↔
        Admissible localPrices_laws twoPrices.minGasPrices ⟨fee, 20000⟩) :=
  ⟨by decide +kernel, (fee_admission_iff localPrices_laws twoPrices rfl microCreditDenom 20000).2 ⟨by decide, by decide⟩⟩

/-- A coin that is not listed is admitted, and so is a fee of one for a gas limit of `2 ^ 63`. -/
theorem fee_admission_false :
    ((checkTxFeeWithMinGasPrices localPrices twoPrices (some ⟨[(str "uatom", 20)], 20000⟩)).isOk = true ∧
      ¬Admissible localPrices_laws twoPrices.minGasPrices ⟨[(str "uatom", 20)], 20000⟩) ∧
    (checkTxFeeWithMinGasPrices localPrices twoPrices (some ⟨[(str "uopen", 1)], 2 ^ 63⟩)).isOk = true ∧
      ¬Admissible localPrices_laws twoPrices.minGasPrices ⟨[(str "uopen", 1)], 2 ^ 63⟩ := by
  refine ⟨⟨by decide +kernel, ?_⟩, by decide +kernel, ?_⟩
  · rintro ⟨_, _, price, hco, hp, -⟩
    obtain ⟨rfl, rfl⟩ := by simpa using hco
    cases hp
  · rintro ⟨_, _, price, hco, hp, hle⟩
    obtain ⟨rfl, rfl⟩ := by simpa using hco
    have hl : 2 ^ 63 ≤ (2 ^ 63 : UInt64).toNat := by decide +kernel
    exact (requiredAmount_of_large _ (localPrices_laws.nonneg hp) hl).2 hle

end Vera.App
