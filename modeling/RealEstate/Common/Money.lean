import RealEstate.Systems.DecimalArithmetic

/-!
# Money (`common/money.py`)

- `toMoney`, `percentageOf`, `commissionAmount`, `monthlyPayment`: the functions, at the default
  precision.
- `percentageOf_spec`: when the product fits the precision, the only rounding is the last one.
-/

namespace RealEstate

namespace Common

open RealEstate.Core Systems

/-- `to_money`. -/
def toMoney (value : DecimalNumber) : Except DecimalSignal DecimalNumber :=
  defaultContext.quantize .halfUp (-2) value

/-- `percentage_of`. -/
def percentageOf (base percent : DecimalNumber) : Except DecimalSignal DecimalNumber := do
  let product ← defaultContext.mul base percent
  let share ← defaultContext.div product (.ofInt 100)
  toMoney share

/-- `commission_amount`. -/
def commissionAmount (price ratePercent : DecimalNumber) : Except DecimalSignal DecimalNumber :=
  percentageOf price ratePercent

/-- `principal * monthly_rate * factor / (factor - 1)`, or the principal spread over the term. -/
def unroundedPayment (principal annualRatePercent : DecimalNumber) (months : Nat) :
    Except DecimalSignal DecimalNumber :=
  let ctx := defaultContext
  if annualRatePercent.coefficient = 0 then ctx.div principal (.ofInt months)
  else do
    let rate ← ctx.div annualRatePercent (.ofInt 100)
    let monthlyRate ← ctx.div rate (.ofInt 12)
    let base ← ctx.add (.ofInt 1) monthlyRate
    let factor ← ctx.pow base months
    let interest ← ctx.mul principal monthlyRate
    let numerator ← ctx.mul interest factor
    let denominator ← ctx.sub factor (.ofInt 1)
    ctx.div numerator denominator

/-- Why `monthly_payment` raises. -/
inductive PaymentError where
  | valueError
  | decimal (signal : DecimalSignal)
  deriving DecidableEq, Repr

/-- `monthly_payment`. -/
def monthlyPayment (principal annualRatePercent : DecimalNumber) (months : Int) :
    Except PaymentError DecimalNumber :=
  if months ≤ 0 then .error .valueError
  else ((unroundedPayment principal annualRatePercent months.toNat) >>= toMoney).mapError .decimal

/-- The two-decimal half-up rounding of a number that is not negative. -/
def cents (q : ℚ) : ℚ := round (q * 100) / 100

/-- Rounding to cents is monotone. -/
theorem cents_mono {p q : ℚ} (h : p ≤ q) : cents p ≤ cents q := by
  have hround : round (p * 100) ≤ round (q * 100) := by
    rw [round_eq, round_eq]
    exact Int.floor_mono (by linarith)
  rw [cents, cents]
  exact div_le_div_of_nonneg_right (by exact_mod_cast hround) (by norm_num)

/-- It is off by half a cent at most. -/
theorem abs_cents_sub_le (q : ℚ) : |cents q - q| ≤ 1 / 200 := by
  have hhalf := abs_sub_round (q * 100)
  have hscale : cents q - q = -(q * 100 - round (q * 100)) / 100 := by
    rw [cents]
    ring
  rw [hscale, abs_div, abs_neg, abs_of_pos (by norm_num : (0 : ℚ) < 100)]
  linarith

/-- What has two places already is not moved. -/
theorem cents_of_int (n : Int) : cents (n / 100) = n / 100 := by
  rw [cents, div_mul_cancel₀ _ (by norm_num), round_intCast]

theorem cents_eq_zero {q : ℚ} (h : |q| < 1 / 200) : cents q = 0 := by
  obtain ⟨hlow, hup⟩ := abs_lt.1 h
  have hround : round (q * 100) = 0 := by
    rw [round_eq, Int.floor_eq_iff]
    push_cast
    constructor <;> linarith
  rw [cents, hround, Int.cast_zero, zero_div]

/-- An amount below half a cent is zero. -/
theorem toMoney_tiny {x : DecimalNumber} (h : |x.toRat| < 1 / 200) :
    ∃ amount, toMoney x = .ok amount ∧ amount.exponent = -2 ∧ amount.toRat = cents x.toRat := by
  have hhalf : |x.toRat| < 1 / 2 * 10 ^ (-2 : Int) := by
    norm_num at h ⊢
    exact h
  exact ⟨_, quantize_tiny .halfUp hhalf (by decide) (by decide), rfl,
    by rw [toRat_zero, cents_eq_zero h]⟩

theorem cents_nonneg {q : ℚ} (h : 0 ≤ q) : 0 ≤ cents q := by
  have hzero : cents 0 = 0 := by rw [cents, zero_mul, round_zero, Int.cast_zero, zero_div]
  exact hzero ▸ cents_mono h

/-- Rounding half up keeps what every tie keeps. -/
theorem cents_le_cents_of_ties {p q : ℚ} (hp : 0 ≤ p)
    (h : ∀ k : Nat, (10 * k + 5) / 1000 ≤ p → (10 * k + 5) / 1000 ≤ q)
    (hq : 0 ≤ cents q) : cents p ≤ cents q := by
  by_cases hlow : p < 1 / 200
  · rwa [cents_eq_zero (by rwa [abs_of_nonneg hp])]
  · obtain ⟨k, hk⟩ : ∃ k : Nat, ⌊p * 100 - 1 / 2⌋ = k :=
      ⟨_, (Int.toNat_of_nonneg (Int.floor_nonneg.2 (by linarith))).symm⟩
    obtain ⟨hfrom, hto⟩ := Int.floor_eq_iff.1 hk
    rw [Int.cast_natCast] at hfrom hto
    have hround : ∀ t : ℚ, (k : ℚ) + 1 / 2 ≤ t * 100 → t * 100 < k + 3 / 2 →
        cents t = (k + 1) / 100 := by
      intro t hlow hhigh
      have hround : round (t * 100) = k + 1 := by
        rw [round_eq, Int.floor_eq_iff]
        push_cast
        constructor <;> linarith
      rw [cents, hround]
      push_cast
      rfl
    have hle := cents_mono (h k (by linarith))
    rwa [hround _ (by linarith) (by linarith), ← hround p (by linarith) (by linarith)] at hle

/-- `to_money` rounds to cents, for all amounts that have 28 digits. -/
theorem toMoney_spec {x : DecimalNumber} (h0 : 0 ≤ x.toRat) (h : x.toRat < 10 ^ 25) :
    ∃ amount, toMoney x = .ok amount ∧ amount.exponent = -2 ∧ amount.toRat = cents x.toRat := by
  have hgrid : toMoney x = .ok ⟨round (x.toRat / 10 ^ (-2 : Int)), -2⟩ :=
    quantize_halfUp h0 (by norm_cast) (by decide) (by decide)
  have hpow : (10 : ℚ) ^ (-2 : Int) = 1 / 100 := by norm_num
  refine ⟨_, hgrid, rfl, ?_⟩
  rw [DecimalNumber.toRat, cents, hpow, div_div_eq_mul_div, div_one, mul_one_div]

/-- The precision holds a number of at most 28 digits, wherever its point is. -/
theorem fits_of_scaled {m : Nat} {e : Int} (hm : m < 10 ^ 28) (hlow : -999999 ≤ e) (hhigh : e ≤ 0) :
    defaultContext.Fits (m * 10 ^ e) := by
  have hle : (10 : ℚ) ^ e ≤ 1 := zpow_le_one_of_nonpos₀ (by norm_num) hhigh
  have hnonneg : (0 : ℚ) ≤ m * 10 ^ e :=
    mul_nonneg (Nat.cast_nonneg m) (zpow_nonneg (by norm_num) _)
  have hm' : (m : ℚ) < 10 ^ (28 : Int) := by exact_mod_cast hm
  have htiny : defaultContext.etiny ≤ -999999 := by decide
  refine ⟨m, e, abs_of_nonneg hnonneg, hm, htiny.trans hlow, ?_⟩
  rw [abs_of_nonneg hnonneg]
  calc (m : ℚ) * 10 ^ e ≤ m := mul_le_of_le_one_right (Nat.cast_nonneg m) hle
    _ < 10 ^ (28 : Int) := hm'
    _ ≤ 10 ^ (defaultContext.emax + 1) := zpow_le_zpow_right₀ (by norm_num) (by decide)

/-- **A percentage is rounded once.** -/
theorem percentageOf_spec {base percent : DecimalNumber} (hbase : 0 ≤ base.toRat)
    (hpercent : 0 ≤ percent.toRat) (hproduct : defaultContext.Fits (base.toRat * percent.toRat))
    (hshare : defaultContext.Fits (base.toRat * percent.toRat / 100))
    (hsmall : base.toRat * percent.toRat / 100 < 10 ^ 25) :
    ∃ product share amount,
      defaultContext.mul base percent = .ok product ∧
      product.toRat = base.toRat * percent.toRat ∧
      defaultContext.div product (.ofInt 100) = .ok share ∧
      share.toRat = base.toRat * percent.toRat / 100 ∧
      percentageOf base percent = .ok amount ∧ amount.exponent = -2 ∧
      amount.toRat = cents (base.toRat * percent.toRat / 100) := by
  have hhundred : (DecimalNumber.ofInt 100).toRat = 100 := by
    rw [DecimalNumber.toRat, DecimalNumber.ofInt]
    norm_num
  -- Product and quotient are exact; only `toMoney` rounds.
  obtain ⟨product, hmul, hproduct⟩ := mul_exact hproduct
  rw [← hproduct, ← hhundred] at hshare
  obtain ⟨share, hdiv, hvalue⟩ := div_exact (by rw [hhundred]; norm_num) hshare
  rw [hproduct, hhundred] at hvalue
  have hshare0 : 0 ≤ share.toRat := by
    rw [hvalue]
    positivity
  obtain ⟨amount, hmoney, hexponent, hamount⟩ := toMoney_spec hshare0 (hvalue ▸ hsmall)
  refine ⟨product, share, amount, hmul, hproduct, hdiv, hvalue, ?_, hexponent, hvalue ▸ hamount⟩
  unfold percentageOf
  rw [hmul]
  show defaultContext.div product (.ofInt 100) >>= toMoney = _
  rw [hdiv]
  exact hmoney

end Common

end RealEstate
