import RealEstate.Common.Money
import RealEstate.Systems.Annuity
import RealEstate.Systems.DecimalErrors

/-!
# Amortization (`common/money.py`)

What twenty-eight digits leave of the annuity formula.

- `leastRate`: the rates up to it disappear in `1 + monthly_rate`; `unroundedPayment_raises`.
- `Due`: what a payment may come to, in cents: the formula at a monthly rate and a power of
  twenty-seven places.
- `monthlyPayment_due`: at all other rates the payment is returned, and is due.
- `Due.covers`, `Due.mono`: at rates that are not tiny it covers its part of the loan, and does not
  decrease when the rate grows.
-/

namespace RealEstate

namespace Common

open RealEstate.Core Systems

/-! ### The default context -/

theorem unit_default : defaultContext.unit = 5 / 10 ^ 28 := by
  show (5 : ℚ) * 10 ^ (-28 : Int) = 5 / 10 ^ 28
  norm_num

theorem unit_work_le (n : Nat) :
    ((n - 1 : Nat) : ℚ) * (defaultContext.work n).unit ≤ 5 / 10 ^ 30 := by
  have hn : ((n - 1 : Nat) : ℚ) ≤ 10 ^ digitCount n := by
    exact_mod_cast (Nat.sub_le n 1).trans (lt_pow_digitCount n).le
  have hunit : (defaultContext.work n).unit = 5 / 10 ^ 30 / 10 ^ digitCount n := by
    show (5 : ℚ) * 10 ^ (-((28 + digitCount n + 2 : Nat) : Int)) = _
    rw [zpow_neg, zpow_natCast, show 28 + digitCount n + 2 = 30 + digitCount n by omega, pow_add]
    field_simp
  rw [hunit]
  calc ((n - 1 : Nat) : ℚ) * (5 / 10 ^ 30 / 10 ^ digitCount n)
      ≤ 10 ^ digitCount n * (5 / 10 ^ 30 / 10 ^ digitCount n) := by gcongr
    _ = 5 / 10 ^ 30 := by field_simp

theorem range_default : defaultContext.emin < defaultContext.emax := by decide

theorem tiny_default : (10 : ℚ) ^ defaultContext.etiny ≤ 1 / 10 ^ 100 := by
  have hle : (10 : ℚ) ^ defaultContext.etiny ≤ 10 ^ (-100 : Int) :=
    zpow_le_zpow_right₀ (by norm_num) (by decide)
  rwa [zpow_neg, ← one_div] at hle

theorem room_default : (10 : ℚ) ^ 100 ≤ 10 ^ defaultContext.emax := by
  have hle : (10 : ℚ) ^ (100 : Int) ≤ 10 ^ defaultContext.emax :=
    zpow_le_zpow_right₀ (by norm_num) (by decide)
  exact_mod_cast hle

/-- Two hundred orders of magnitude are far from the ends of the range. -/
theorem roomy_default {k : Nat} {q : ℚ} (hk : k ≤ 200) (h : Sized k q) :
    defaultContext.Roomy q := by
  rcases h with hzero | ⟨hlow, hup⟩
  · exact .inl hzero
  · have hmin : (10 : ℚ) ^ (-999999 + 1 : Int) ≤ 10 ^ (-k : Int) :=
      zpow_le_zpow_right₀ (by norm_num) (by omega)
    have hmax : (10 : ℚ) ^ (k : Int) < 10 ^ (999999 - 1 : Int) :=
      zpow_lt_zpow_right₀ (by norm_num) (by omega)
    refine .inr ⟨hmin.trans ?_, lt_of_le_of_lt ?_ hmax⟩
    · rw [zpow_neg, ← one_div]
      exact_mod_cast hlow
    · exact_mod_cast hup

theorem ofInt_toRat (n : Int) : (DecimalNumber.ofInt n).toRat = n := by
  rw [DecimalNumber.toRat, DecimalNumber.ofInt, zpow_zero, mul_one]

section Operations

variable {x y : DecimalNumber} {k : Nat} {q : ℚ}

/-- A product of sizes that occur. -/
theorem mul_default (hq : q = x.toRat * y.toRat)
    (hk : k ≤ 200) (h : Sized k q) :
    ∃ z, defaultContext.mul x y = .ok z ∧ Near (5 / 10 ^ 28) q z.toRat := by
  subst hq
  rw [← unit_default]
  exact mul_near (roomy_default hk h)

theorem add_default (hq : q = x.toRat + y.toRat)
    (hk : k ≤ 200) (h : Sized k q) :
    ∃ z, defaultContext.add x y = .ok z ∧ Near (5 / 10 ^ 28) q z.toRat := by
  subst hq
  rw [← unit_default]
  exact add_near (roomy_default hk h)

theorem sub_default (hq : q = x.toRat - y.toRat)
    (hk : k ≤ 200) (h : Sized k q) :
    ∃ z, defaultContext.sub x y = .ok z ∧ Near (5 / 10 ^ 28) q z.toRat := by
  subst hq
  rw [← unit_default]
  exact sub_near (roomy_default hk h)

theorem div_default (hq : q = x.toRat / y.toRat) (hy : y.toRat ≠ 0)
    (hk : k ≤ 200) (h : Sized k q) :
    ∃ z, defaultContext.div x y = .ok z ∧ Near (7 / 10 ^ 28) q z.toRat := by
  subst hq
  have hunit : (7 : ℚ) / 10 ^ 28 = 7 * 10 ^ (-defaultContext.prec : Int) := by
    show (7 : ℚ) / 10 ^ 28 = 7 * 10 ^ (-28 : Int)
    norm_num
  rw [hunit]
  exact div_near hy (roomy_default hk h)

/-- Rounding at most doubles what is not smaller than the smallest numbers. -/
theorem fix_small {a : ℚ} (h : |x.toRat| ≤ a) (hlow : 1 / 10 ^ 60 ≤ a) (hup : a ≤ 1) :
    ∃ z, defaultContext.fix x = .ok z ∧ |z.toRat| ≤ 2 * a := by
  have htiny := tiny_default
  have hroom := room_default
  obtain ⟨z, hz, hclose⟩ := @fix_close defaultContext x range_default (by linarith)
  have htri := abs_sub_abs_le_abs_sub z.toRat x.toRat
  rw [unit_default] at hclose
  exact ⟨z, hz, by linarith only [h, hlow, htiny, hclose, htri]⟩

/-- A difference, wherever it lies. -/
theorem sub_close (h : |x.toRat - y.toRat| ≤ 10 ^ 99) :
    ∃ z, defaultContext.sub x y = .ok z ∧
      |z.toRat - (x.toRat - y.toRat)| ≤ 5 / 10 ^ 28 * |x.toRat - y.toRat| + 1 / 10 ^ 60 := by
  have htiny := tiny_default
  have hroom := room_default
  rw [sub_eq_add_neg, ← neg_toRat, ← sum_toRat x y.neg le_rfl] at h ⊢
  obtain ⟨z, hz, hclose⟩ := fix_close range_default (h.trans_lt (by linarith))
  rw [unit_default] at hclose
  exact ⟨z, hz, by linarith⟩

/-- A product too small to have all its digits. -/
theorem mul_small {a : ℚ} (h : |x.toRat * y.toRat| ≤ a) (hlow : 1 / 10 ^ 60 ≤ a) (hup : a ≤ 1) :
    ∃ z, defaultContext.mul x y = .ok z ∧ |z.toRat| ≤ 2 * a := by
  rw [← product_toRat] at h
  exact fix_small h hlow hup

/-- A quotient too small to have all its digits. -/
theorem div_small {a : ℚ} (hy : y.toRat ≠ 0) (h : |x.toRat / y.toRat| ≤ a) (hlow : 1 / 10 ^ 60 ≤ a)
    (hup : a ≤ 1 / 2) : ∃ z, defaultContext.div x y = .ok z ∧ |z.toRat| ≤ 4 * a := by
  have hunit : (10 : ℚ) ^ (-defaultContext.prec : Int) ≤ 1 := zpow_le_one_of_nonpos₀
    (by norm_num) (by decide)
  obtain ⟨w, hw, hnear⟩ := @div_fix defaultContext x y hy
  have hle := (hnear.mono hunit).abs.le (abs_nonneg _)
  obtain ⟨z, hz, hsmall⟩ := @fix_small w (2 * a) (by linarith only [h, hle])
    (by linarith only [hlow]) (by linarith only [hup])
  exact ⟨z, hw.trans hz, by linarith only [hsmall]⟩

end Operations

/-! ### The rate -/

/-- The largest rate that disappears in `1 + monthly_rate`: half a unit of the twenty-seventh place,
a year and in percent, and the halves that the two divisions before round down. -/
def leastRate : ℚ := 6 / 10 ^ 25 + 5 / 10 ^ 53

/-- The rate a month, and one and that rate. -/
theorem base_near {R : DecimalNumber} (hlow : 6 / 10 ^ 25 ≤ R.toRat) (hup : R.toRat ≤ 100) :
    ∃ rate monthlyRate base,
      defaultContext.div R (.ofInt 100) = .ok rate ∧
      defaultContext.div rate (.ofInt 12) = .ok monthlyRate ∧
      defaultContext.add (.ofInt 1) monthlyRate = .ok base ∧
      Near (15 / 10 ^ 28) (R.toRat / 1200) monthlyRate.toRat ∧
      Near (5 / 10 ^ 28) (1 + monthlyRate.toRat) base.toRat := by
  have hhundred : (DecimalNumber.ofInt 100).toRat = 100 := ofInt_toRat 100
  have htwelve : (DecimalNumber.ofInt 12).toRat = 12 := ofInt_toRat 12
  have hone : (DecimalNumber.ofInt 1).toRat = 1 := ofInt_toRat 1
  -- The three operations in turn, each within a unit of its last digit.
  obtain ⟨rate, hrate, hrateNear⟩ := @div_default R (.ofInt 100) 27 (R.toRat / 100)
    (by rw [hhundred]) (by rw [hhundred]; norm_num) (by decide) (by
      rw [Sized, abs_of_pos (by linarith)]
      exact .inr ⟨by linarith, by linarith⟩)
  rw [Near, abs_of_pos (by linarith only [hlow] : 0 < R.toRat / 100), abs_le] at hrateNear
  have hrate0 : 5 / 10 ^ 27 ≤ rate.toRat := by linarith only [hlow, hrateNear]
  obtain ⟨monthlyRate, hmonthly, hmonthlyNear⟩ := @div_default rate (.ofInt 12) 28 (rate.toRat / 12)
    (by rw [htwelve]) (by rw [htwelve]; norm_num) (by decide) (by
      rw [Sized, abs_of_pos (by linarith only [hlow, hrateNear])]
      exact .inr ⟨by linarith only [hlow, hrateNear], by linarith only [hup, hrateNear]⟩)
  rw [Near, abs_of_pos (by linarith only [hlow, hrateNear] : 0 < rate.toRat / 12), abs_le]
    at hmonthlyNear
  obtain ⟨base, hbase, hbaseNear⟩ := @add_default (.ofInt 1) monthlyRate 1
    (1 + monthlyRate.toRat) (by rw [hone]) (by decide) (by
      rw [Sized, abs_of_pos (by linarith only [hmonthlyNear])]
      exact .inr ⟨by linarith only [hmonthlyNear], by linarith only [hup, hrateNear, hmonthlyNear]⟩)
  refine ⟨rate, monthlyRate, base, hrate, hmonthly, hbase, ?_, hbaseNear⟩
  rw [Near, abs_of_pos (by linarith only [hlow] : 0 < R.toRat / 1200), abs_le]
  constructor <;> linarith only [hrateNear, hmonthlyNear]

section Base

variable {R rate monthlyRate base : DecimalNumber}

/-- A number of full length, for the rounding of a half. -/
theorem full_default {M : Nat} (hlow : 10 ^ 27 ≤ M) (hhigh : M < 10 ^ 28) :
    10 ^ (defaultContext.prec - 1) ≤ M ∧ M < 10 ^ defaultContext.prec := ⟨hlow, hhigh⟩

/-- **Up to the least rate** nothing is added to one. -/
theorem base_eq_one (hrate : defaultContext.div R (.ofInt 100) = .ok rate)
    (hmonthly : defaultContext.div rate (.ofInt 12) = .ok monthlyRate)
    (hbase : defaultContext.add (.ofInt 1) monthlyRate = .ok base) (h0 : 0 ≤ R.toRat)
    (hle : R.toRat ≤ leastRate) : base.toRat = 1 := by
  have hhundred : (DecimalNumber.ofInt 100).toRat = 100 := ofInt_toRat 100
  have htwelve : (DecimalNumber.ofInt 12).toRat = 12 := ofInt_toRat 12
  have hone : (DecimalNumber.ofInt 1).toRat = 1 := ofInt_toRat 1
  obtain ⟨hlow6, hhigh6⟩ := @full_default (6 * 10 ^ 27) (by decide) (by decide)
  obtain ⟨hlow5, hhigh5⟩ := @full_default (5 * 10 ^ 27) (by decide) (by decide)
  obtain ⟨hlow1, hhigh1⟩ := @full_default (10 ^ 27) (by decide) (by decide)
  rw [leastRate] at hle
  have hrate0 := div_nonneg_of_ok hrate h0 (by rw [hhundred]; norm_num)
  have hmonthly0 := div_nonneg_of_ok hmonthly hrate0 (by rw [htwelve]; norm_num)
  -- Up to the least rate every operation rounds down, the last one to one.
  have hrateLe := @div_le_of_half defaultContext _ _ _ (6 * 10 ^ 27) (-54) hrate h0
    (by rw [hhundred]; norm_num) hlow6 (by decide) hhigh6 (by decide) (by
      rw [hhundred]
      norm_num
      linarith only [hle])
  norm_num at hrateLe
  have hmonthlyLe := @div_le_of_half defaultContext _ _ _ (5 * 10 ^ 27) (-55) hmonthly hrate0
    (by rw [htwelve]; norm_num) hlow5 (by decide) hhigh5 (by decide) (by
      rw [htwelve]
      norm_num
      linarith only [hrateLe])
  norm_num at hmonthlyLe
  have hbaseLe := @add_le_of_half defaultContext _ _ _ (10 ^ 27) (-27) hbase
    (by rw [hone]; linarith only [hmonthly0]) hlow1 (by decide) hhigh1 (by decide) (by
      rw [hone]
      norm_num
      linarith only [hmonthlyLe])
  norm_num at hbaseLe
  have hfits := @fits_one defaultContext (by decide) (by decide)
  refine le_antisymm hbaseLe (le_add_of_fits hbase hfits zero_le_one ?_)
  rw [hone]
  linarith only [hmonthly0]

/-- **Above it** at least a unit of the last place is. -/
theorem le_base (hrate : defaultContext.div R (.ofInt 100) = .ok rate)
    (hmonthly : defaultContext.div rate (.ofInt 12) = .ok monthlyRate)
    (hbase : defaultContext.add (.ofInt 1) monthlyRate = .ok base) (hlt : leastRate < R.toRat) :
    1 + 1 / 10 ^ 27 ≤ base.toRat := by
  have hhundred : (DecimalNumber.ofInt 100).toRat = 100 := ofInt_toRat 100
  have htwelve : (DecimalNumber.ofInt 12).toRat = 12 := ofInt_toRat 12
  have hone : (DecimalNumber.ofInt 1).toRat = 1 := ofInt_toRat 1
  obtain ⟨hlow6, hhigh6⟩ := @full_default (6 * 10 ^ 27) (by decide) (by decide)
  obtain ⟨hlow5, hhigh5⟩ := @full_default (5 * 10 ^ 27) (by decide) (by decide)
  obtain ⟨hlow1, hhigh1⟩ := @full_default (10 ^ 27) (by decide) (by decide)
  rw [leastRate] at hlt
  have h0 : 0 ≤ R.toRat := by linarith only [hlt]
  have hrate0 := div_nonneg_of_ok hrate h0 (by rw [hhundred]; norm_num)
  -- Above it every operation rounds up.
  have hrateLe := @le_div_of_half defaultContext _ _ _ (6 * 10 ^ 27) (-54) hrate h0
    (by rw [hhundred]; norm_num) hlow6 hhigh6 (by decide) (by
      rw [hhundred]
      norm_num
      linarith only [hlt])
  norm_num at hrateLe
  have hmonthlyLe := @le_div_of_half defaultContext _ _ _ (5 * 10 ^ 27) (-55) hmonthly hrate0
    (by rw [htwelve]; norm_num) hlow5 hhigh5 (by decide) (by
      rw [htwelve]
      norm_num
      linarith only [hrateLe])
  norm_num at hmonthlyLe
  have hbaseLe := @le_add_of_half defaultContext _ _ _ (10 ^ 27) (-27) hbase hlow1 hhigh1
    (by decide) (by
      rw [hone]
      norm_num
      linarith only [hmonthlyLe])
  norm_num at hbaseLe
  linarith only [hbaseLe]

end Base

/-- The power, over at most 480 months. -/
theorem factor_near {base : DecimalNumber} {n : Nat} (h1 : 1 ≤ base.toRat) (h2 : base.toRat ≤ 2)
    (hn : 1 ≤ n) (hmax : n ≤ 480) :
    ∃ factor, defaultContext.pow base n = .ok factor ∧
      Near (51 / 10 / 10 ^ 28) (base.toRat ^ n) factor.toRat := by
  have hmin : (2 * n : Int) < 999999 := by omega
  -- The working precision of `pow` leaves its error below one unit of the result.
  obtain ⟨power, factor, hpower, hfactor, hnear⟩ := @pow_near defaultContext base n h1 h2 hn
    (by show (2 * n : Int) < -(-999999); omega) hmin
  have hwork := unit_work_le n
  have hunit := (defaultContext.work n).unit_pos
  have hunit1 : (defaultContext.work n).unit < 1 := by
    have hle : (10 : ℚ) ^ (-((28 + digitCount n + 2 : Nat) : Int)) ≤ 10 ^ (-1 : Int) :=
      zpow_le_zpow_right₀ (by norm_num) (by omega)
    show (5 : ℚ) * 10 ^ (-((28 + digitCount n + 2 : Nat) : Int)) < 1
    rw [zpow_neg_one] at hle
    linarith only [hle]
  have hbase : 0 < base.toRat := by linarith only [h1]
  have hF : 0 < base.toRat ^ n := by positivity
  have hpower0 := hpower.pos hunit1 hbase
  have hforth := hpower.ge hunit1.le hbase.le
  have hback := hpower.le hunit.le hunit1 hbase
  have hdown := mul_le_mul_of_nonneg_right hwork hF.le
  have hupper := mul_le_mul_of_nonneg_right hwork hpower0.le
  refine ⟨factor, hfactor, ?_⟩
  rw [unit_default, Near, abs_of_pos hpower0, abs_le] at hnear
  rw [Near, abs_of_pos hF, abs_le]
  constructor <;> linarith only [hnear, hforth, hdown, hback, hupper]

theorem pow_eq_one_add {base : DecimalNumber} (n : Nat) :
    base.toRat ^ n = (1 + (base.toRat - 1)) ^ n := by
  rw [add_sub_cancel]

/-! ### The formula, to twenty-seven places -/

/-- A monthly rate `x` and a power `f` of `1 + x`, rounded to the twenty-seventh place. -/
structure Computed (rate : ℚ) (n : Nat) (x f : ℚ) : Prop where
  pos : 0 < x
  places : ∃ k : Nat, x = k / 10 ^ 27
  close : |x - rate / 1200| ≤ 5 / 10 ^ 28 + 3 / 10 ^ 27 * (rate / 1200)
  powerPlaces : ∃ k : Nat, f = k / 10 ^ 27
  power : Near (51 / 10 / 10 ^ 28) ((1 + x) ^ n) f

/-- `monthly_rate * factor / (factor - 1)`: a month's share of the loan. -/
def share (rate f : ℚ) : ℚ := rate / 1200 * f / (f - 1)

/-- What a payment may come to: the cents of a number that twenty-six digits do not tell from the
formula. -/
def Due (principal rate : ℚ) (n : Nat) (c : ℚ) : Prop :=
  ∃ r, c = cents r ∧
    ((rate = 0 ∧ Near (1 / 10 ^ 26) (principal / n) r ∧ cents (principal / n) ≤ c) ∨
      (rate ≠ 0 ∧ ∃ x f, Computed rate n x f ∧ Near (1 / 10 ^ 26) (principal * share rate f) r))

section Computed

variable {rate x f : ℚ} {n : Nat}

/-- The monthly rate is neither tiny nor large. -/
theorem Computed.bounds (h : Computed rate n x f) (hup : rate ≤ 100) :
    1 / 10 ^ 27 ≤ x ∧ x ≤ 1 / 11 ∧ rate / 1200 ≤ 8 / 5 * x := by
  obtain ⟨k, hk⟩ := h.places
  have hpos := h.pos
  have hclose := abs_le.1 h.close
  have hx : 1 / 10 ^ 27 ≤ x := by
    rw [hk] at hpos ⊢
    have hk0 : (0 : ℚ) < k := by
      by_contra hneg
      have : (k : ℚ) / 10 ^ 27 ≤ 0 := div_nonpos_of_nonpos_of_nonneg (not_lt.1 hneg) (by norm_num)
      linarith only [hpos, hneg]
    have hk1 : (1 : ℚ) ≤ k := by exact_mod_cast Nat.cast_pos.1 hk0
    exact div_le_div_of_nonneg_right hk1 (by norm_num)
  exact ⟨hx, by linarith only [hup, hclose], by linarith only [hclose, hx]⟩

/-- The power is at least what simple interest gives. -/
theorem Computed.one_lt (h : Computed rate n x f) : n * x ≤ (1 + x) ^ n - 1 :=
  interest_le_pow_sub_one n h.pos.le

/-- The difference of the powers keeps nine tenths of the simple interest. -/
theorem Computed.factor_bounds (h : Computed rate n x f) (hup : rate ≤ 100) (hn : 12 ≤ n) :
    9 / 10 * (n * x) ≤ f - 1 ∧ 1 / 10 ^ 27 ≤ f - 1 := by
  obtain ⟨hx, -, -⟩ := h.bounds hup
  have hone := h.one_lt
  have hn' : (12 : ℚ) ≤ n := by exact_mod_cast hn
  have hnx : 12 * x ≤ n * x := mul_le_mul_of_nonneg_right hn' h.pos.le
  have hpower := h.power
  generalize (1 + x) ^ n = F at hone hpower
  rw [Near, abs_of_pos (by linarith only [hx, hnx, hone] : 0 < F), abs_le] at hpower
  have hlow : 9 / 10 * (n * x) ≤ f - 1 := by linarith only [hx, hnx, hone, hpower]
  exact ⟨hlow, by linarith only [hx, hnx, hone, hpower]⟩

/-- And not too large for a quotient. -/
theorem Computed.power_le (h : Computed rate n x f) (hup : rate ≤ 100) (hmax : n ≤ 480) :
    f ≤ 10 ^ 21 := by
  obtain ⟨hx, hhigh, -⟩ := h.bounds hup
  have hF : (1 + x) ^ n ≤ 10 ^ 20 := by
    calc (1 + x) ^ n ≤ (12 / 11) ^ n := pow_le_pow_left₀ (by linarith) (by linarith) n
      _ ≤ (12 / 11) ^ 480 := pow_le_pow_right₀ (by norm_num) hmax
      _ = ((12 / 11) ^ 48) ^ 10 := by rw [← pow_mul]
      _ ≤ 100 ^ 10 := pow_le_pow_left₀ (by norm_num) (by norm_num) 10
      _ = 10 ^ 20 := by norm_num
  have hF0 : 0 ≤ (1 + x) ^ n := pow_nonneg (by linarith only [hx]) n
  have := h.power.le hF0
  linarith only [hF, this]

/-- A month's share is at most a quarter of the loan, and all of them forty-two times the loan. -/
theorem Computed.share_le (h : Computed rate n x f) (hrate : 0 ≤ rate) (hup : rate ≤ 100)
    (hn : 12 ≤ n) (hmax : n ≤ 480) :
    0 ≤ share rate f ∧ share rate f ≤ 1 / 4 ∧ n * share rate f ≤ 42 := by
  obtain ⟨hx, hhigh, hy⟩ := h.bounds hup
  obtain ⟨hless, hf⟩ := h.factor_bounds hup hn
  have hn12 : (12 : ℚ) ≤ n := by exact_mod_cast hn
  have hn480 : (n : ℚ) ≤ 480 := by exact_mod_cast hmax
  have hf0 : 0 < f - 1 := by linarith only [hf]
  -- The payment per unit is the interest of a month and what is paid back of the loan.
  have hsplit : share rate f = rate / 1200 + rate / 1200 / (f - 1) := by
    rw [share]
    field_simp
    ring
  have hrest : n * (rate / 1200 / (f - 1)) ≤ 2 := by
    rw [← mul_div_assoc, div_le_iff₀ hf0]
    have := mul_le_mul_of_nonneg_left hy (by linarith : (0 : ℚ) ≤ n)
    linarith only [hless, hf, this]
  have hpart : rate / 1200 / (f - 1) ≤ 1 / 6 := by
    have hq : 0 ≤ rate / 1200 / (f - 1) := by positivity
    have := mul_le_mul_of_nonneg_right hn12 hq
    linarith only [hrest, this]
  have hall : n * (rate / 1200) ≤ 480 * (1 / 12) :=
    mul_le_mul hn480 (by linarith only [hup]) (by positivity) (by norm_num)
  refine ⟨by rw [hsplit]; positivity, by rw [hsplit]; linarith only [hup, hpart], ?_⟩
  rw [hsplit, mul_add]
  linarith only [hrest, hall]

end Computed

/-- The rate and the power that are computed. -/
theorem computed_ok {R : DecimalNumber} {n : Nat} (hlow : leastRate < R.toRat)
    (hup : R.toRat ≤ 100) (hn : 12 ≤ n) (hmax : n ≤ 480) :
    ∃ rate monthlyRate base factor x,
      defaultContext.div R (.ofInt 100) = .ok rate ∧
      defaultContext.div rate (.ofInt 12) = .ok monthlyRate ∧
      defaultContext.add (.ofInt 1) monthlyRate = .ok base ∧
      defaultContext.pow base n = .ok factor ∧
      Near (15 / 10 ^ 28) (R.toRat / 1200) monthlyRate.toRat ∧
      Computed R.toRat n x factor.toRat := by
  -- The rate of a month and the base, with their errors.
  obtain ⟨rate, monthlyRate, base, hrate, hmonthly, hbase, hmonthlyNear, hbaseNear⟩ :=
    base_near (by rw [leastRate] at hlow; linarith : 6 / 10 ^ 25 ≤ R.toRat) hup
  have hone := le_base hrate hmonthly hbase hlow
  have hR : 0 < R.toRat := by
    rw [leastRate] at hlow
    linarith only [hlow]
  have hy : 0 < R.toRat / 1200 := by linarith only [hR]
  have hmonthlyLe := abs_le.1 hmonthlyNear
  rw [abs_of_pos hy] at hmonthlyLe
  rw [Near, abs_of_pos (by linarith only [hmonthlyLe] : 0 < 1 + monthlyRate.toRat), abs_le]
    at hbaseNear
  -- Then the power, as the base is between one and two.
  obtain ⟨factor, hfactor, hfactorNear⟩ := @factor_near base n (by linarith only [hone])
    (by linarith only [hup, hbaseNear, hmonthlyLe])
    (by omega) hmax
  have hunit : ∀ k : Nat, (k : ℚ) * 10 ^ ((0 : Nat) + 1 - defaultContext.prec : Int) =
      k / 10 ^ 27 := by
    intro k
    show (k : ℚ) * 10 ^ (-27 : Int) = k / 10 ^ 27
    rw [zpow_neg, div_eq_mul_inv]
    norm_num
  -- Interest on interest only adds to the power.
  have hpower1 : 1 ≤ factor.toRat := by
    have hF := interest_le_pow_sub_one n (by linarith only [hone] : 0 ≤ base.toRat - 1)
    have hn' : (12 : ℚ) ≤ n := by exact_mod_cast hn
    have hnx := mul_le_mul_of_nonneg_right hn' (by linarith only [hone] : 0 ≤ base.toRat - 1)
    rw [← pow_eq_one_add] at hF
    have hfrom := hfactorNear.ge (by linarith only [hone, hF, hnx])
    linarith only [hone, hF, hnx, hfrom]
  refine ⟨rate, monthlyRate, base, factor, base.toRat - 1, hrate, hmonthly, hbase, hfactor,
    hmonthlyNear, by linarith only [hone], ?_, ?_, ?_, by rwa [← pow_eq_one_add]⟩
  · -- The base is held in 28 digits, so it is on the grid of the last one.
    obtain ⟨m, f, hm, hdigits, -⟩ := held_of_fix hbase
    rw [abs_of_pos (by linarith only [hone])] at hm
    obtain ⟨k, hk⟩ := grid_of_held hm hdigits (by rw [pow_zero]; linarith only [hone])
    rw [hunit] at hk
    have hk27 : 10 ^ 27 ≤ k := by
      have hcast : ((10 ^ 27 : Nat) : ℚ) ≤ k := by
        rw [eq_div_iff (by norm_num)] at hk
        push_cast
        linarith only [hone, hk]
      exact_mod_cast hcast
    refine ⟨k - 10 ^ 27, ?_⟩
    rw [hk, Nat.cast_sub hk27]
    push_cast
    ring
  · rw [abs_le]
    constructor <;> linarith only [hbaseNear, hmonthlyLe]
  · obtain ⟨m, f, hm, hdigits, -⟩ := held_of_pow (by omega) hfactor
    rw [abs_of_pos (by linarith only [hpower1])] at hm
    obtain ⟨k, hk⟩ := grid_of_held hm hdigits (by rw [pow_zero]; linarith only [hpower1])
    exact ⟨k, hk.trans (hunit k)⟩

/-! ### The payment -/

section Payment

variable {y : ℚ} {principal monthlyRate factor : DecimalNumber}

/-- **The payment is off by the roundings of its operations**: fifty units of the last place, with
what is left for their products. -/
theorem payment_near (hy : 4 / 10 ^ 28 ≤ y) (hup : y ≤ 1 / 12)
    (hm : Near (15 / 10 ^ 28) y monthlyRate.toRat) (hf : 1 / 10 ^ 27 ≤ factor.toRat - 1)
    (hf' : factor.toRat ≤ 10 ^ 21) (hp : Sized 60 principal.toRat) :
    ∃ interest numerator denominator payment,
      defaultContext.mul principal monthlyRate = .ok interest ∧
      defaultContext.mul interest factor = .ok numerator ∧
      defaultContext.sub factor (.ofInt 1) = .ok denominator ∧
      defaultContext.div numerator denominator = .ok payment ∧
      Near (1 / 10 ^ 26) (principal.toRat * (y * factor.toRat / (factor.toRat - 1)))
        payment.toRat := by
  have hone : (DecimalNumber.ofInt 1).toRat = 1 := ofInt_toRat 1
  have hmle := hm.le (by linarith only [hy])
  have hmge := hm.ge (by linarith only [hy])
  -- No operation leaves the range in which results are rounded in proportion.
  have hmSized : Sized 28 monthlyRate.toRat := by
    rw [Sized, abs_of_pos (by linarith only [hy, hmge])]
    exact .inr ⟨by linarith only [hy, hmge], by linarith only [hup, hmle]⟩
  have hfSized : Sized 21 factor.toRat := by
    rw [Sized, abs_of_pos (by linarith only [hf])]
    exact .inr ⟨by linarith only [hf], hf'⟩
  have hlessSized : Sized 27 (factor.toRat - 1) := by
    rw [Sized, abs_of_pos (by linarith only [hf])]
    exact .inr ⟨hf, by linarith only [hf']⟩
  have hiSized := hp.mul hmSized
  obtain ⟨interest, hinterest, hinterestNear⟩ := mul_default rfl (by decide) hiSized
  have hnSized := (hiSized.near hinterestNear (by norm_num)).mul hfSized
  obtain ⟨numerator, hnumerator, hnumeratorNear⟩ := mul_default rfl (by decide) hnSized
  obtain ⟨denominator, hdenominator, hdenominatorNear⟩ := @sub_default factor (.ofInt 1) 27
    (factor.toRat - 1) (by rw [hone]) (by decide) hlessSized
  have hd := hdenominatorNear.ge (by linarith only [hf])
  have hqSized := (hnSized.near hnumeratorNear (by norm_num)).div
    (hlessSized.near hdenominatorNear (by norm_num))
  obtain ⟨payment, hpayment, hpaymentNear⟩ := div_default rfl
    (by linarith only [hf, hd] : 0 < denominator.toRat).ne' (by decide) hqSized
  refine ⟨interest, numerator, denominator, payment, hinterest, hnumerator, hdenominator,
    hpayment, ?_⟩
  -- The errors of the steps add up.
  have hi := (hm.mul_left principal.toRat).trans hinterestNear (by norm_num)
  have hN := (hi.mul_right factor.toRat).trans hnumeratorNear (by norm_num)
  have hinv := hdenominatorNear.inv (by norm_num)
  have hQ := (hN.mul_right (factor.toRat - 1)⁻¹).trans (hinv.mul_left numerator.toRat)
    (by norm_num)
  rw [← div_eq_mul_inv numerator.toRat] at hQ
  have hP := (hQ.trans hpaymentNear (by norm_num)).mono (by norm_num : _ ≤ (1 : ℚ) / 10 ^ 26)
  have hshape : principal.toRat * (y * factor.toRat / (factor.toRat - 1)) =
      principal.toRat * y * factor.toRat * (factor.toRat - 1)⁻¹ := by
    rw [div_eq_mul_inv]
    ring
  rwa [hshape]

/-- What is lent is next to nothing. -/
theorem payment_small (hy : 4 / 10 ^ 28 ≤ y) (hup : y ≤ 1 / 12)
    (hm : Near (15 / 10 ^ 28) y monthlyRate.toRat) (hf : 1 / 10 ^ 27 ≤ factor.toRat - 1)
    (hf' : factor.toRat ≤ 10 ^ 21) (hp : |principal.toRat| ≤ 1 / 10 ^ 60) :
    ∃ interest numerator denominator payment,
      defaultContext.mul principal monthlyRate = .ok interest ∧
      defaultContext.mul interest factor = .ok numerator ∧
      defaultContext.sub factor (.ofInt 1) = .ok denominator ∧
      defaultContext.div numerator denominator = .ok payment ∧
      |payment.toRat| ≤ 1 / 10 ^ 5 := by
  have hone : (DecimalNumber.ofInt 1).toRat = 1 := ofInt_toRat 1
  have hmle := hm.le (by linarith only [hy])
  have hmge := hm.ge (by linarith only [hy])
  -- All results stay below their bounds, far under a cent.
  obtain ⟨interest, hinterest, hinterestLe⟩ := @mul_small principal monthlyRate (1 / 10 ^ 60) (by
    rw [abs_mul, abs_of_pos (by linarith only [hy, hmge] : 0 < monthlyRate.toRat)]
    calc |principal.toRat| * monthlyRate.toRat ≤ 1 / 10 ^ 60 * 1 :=
          mul_le_mul hp (by linarith only [hup, hmle]) (by linarith only [hy, hmge]) (by norm_num)
      _ = 1 / 10 ^ 60 := mul_one _) le_rfl (by norm_num)
  obtain ⟨numerator, hnumerator, hnumeratorLe⟩ := @mul_small interest factor (1 / 10 ^ 38) (by
    rw [abs_mul, abs_of_pos (by linarith only [hf] : 0 < factor.toRat)]
    calc |interest.toRat| * factor.toRat ≤ 2 * (1 / 10 ^ 60) * 10 ^ 21 :=
          mul_le_mul hinterestLe hf' (by linarith only [hf]) (by norm_num)
      _ ≤ 1 / 10 ^ 38 := by norm_num) (by norm_num) (by norm_num)
  obtain ⟨denominator, hdenominator, hdenominatorNear⟩ := @sub_default factor (.ofInt 1) 27
    (factor.toRat - 1) (by rw [hone]) (by decide) (by
      rw [Sized, abs_of_pos (by linarith only [hf])]
      exact .inr ⟨hf, by linarith only [hf']⟩)
  have hd := hdenominatorNear.ge (by linarith only [hf])
  have hd0 : 1 / 10 ^ 28 ≤ denominator.toRat := by linarith only [hf, hd]
  obtain ⟨payment, hpayment, hpaymentLe⟩ := @div_small numerator denominator (1 / 10 ^ 8)
    (by linarith only [hf, hd] : 0 < denominator.toRat).ne' (by
      rw [abs_div, abs_of_pos (by linarith only [hf, hd] : 0 < denominator.toRat),
        div_le_iff₀ (by linarith only [hf, hd])]
      linarith only [hf, hnumeratorLe, hd]) (by norm_num) (by norm_num)
  exact ⟨interest, numerator, denominator, payment, hinterest, hnumerator, hdenominator, hpayment,
    by linarith only [hpaymentLe]⟩

end Payment

section Unrounded

variable {principal R : DecimalNumber} {n : Nat}

/-- Zero, or of at least `1E-60`. -/
theorem sized_or_small {q : ℚ} (h : |q| ≤ 10 ^ 12) : Sized 60 q ∨ |q| ≤ 1 / 10 ^ 60 := by
  rcases le_total |q| (1 / 10 ^ 60) with hle | hge
  · exact .inr hle
  · exact .inl (.inr ⟨hge, by linarith⟩)

/-- **Above the least rate a payment can be computed.** -/
theorem unroundedPayment_ok (hlow : leastRate < R.toRat) (hup : R.toRat ≤ 100) (hn : 12 ≤ n)
    (hmax : n ≤ 480) (hp : |principal.toRat| ≤ 10 ^ 12) :
    ∃ x f payment, unroundedPayment principal R n = .ok payment ∧ Computed R.toRat n x f ∧
      (Near (1 / 10 ^ 26) (principal.toRat * share R.toRat f) payment.toRat ∨
        (|principal.toRat| ≤ 1 / 10 ^ 60 ∧ |payment.toRat| ≤ 1 / 10 ^ 5)) := by
  obtain ⟨rate, monthlyRate, base, factor, x, hrate, hmonthly, hbase, hfactor, hmonthlyNear,
    hcomputed⟩ := computed_ok hlow hup hn hmax
  rw [leastRate] at hlow
  have hy : 4 / 10 ^ 28 ≤ R.toRat / 1200 := by linarith only [hlow]
  have hy12 : R.toRat / 1200 ≤ 1 / 12 := by linarith only [hup]
  obtain ⟨-, hf⟩ := hcomputed.factor_bounds hup hn
  have hf' := hcomputed.power_le hup hmax
  have hne : R.coefficient ≠ 0 := by
    intro hzero
    rw [toRat_eq_zero.2 hzero] at hy
    norm_num at hy
  -- The four operations left make up the payment.
  have hok : ∀ {interest numerator denominator payment : DecimalNumber},
      defaultContext.mul principal monthlyRate = .ok interest →
      defaultContext.mul interest factor = .ok numerator →
      defaultContext.sub factor (.ofInt 1) = .ok denominator →
      defaultContext.div numerator denominator = .ok payment →
      unroundedPayment principal R n = .ok payment := by
    intro interest numerator denominator payment hinterest hnumerator hdenominator hpayment
    unfold unroundedPayment
    dsimp only
    rw [if_neg hne, hrate]
    simp only [bind, Except.bind, hmonthly, hbase, hfactor, hinterest, hnumerator, hdenominator,
      hpayment]
  -- A loan of some size, or one that is as good as nothing.
  rcases sized_or_small hp with hsized | hsmall
  · obtain ⟨_, _, _, payment, hinterest, hnumerator, hdenominator, hpayment, hnear⟩ :=
      payment_near hy hy12 hmonthlyNear hf hf' hsized
    exact ⟨x, factor.toRat, payment, hok hinterest hnumerator hdenominator hpayment, hcomputed,
      .inl hnear⟩
  · obtain ⟨_, _, _, payment, hinterest, hnumerator, hdenominator, hpayment, hle⟩ :=
      payment_small hy hy12 hmonthlyNear hf hf' hsmall
    exact ⟨x, factor.toRat, payment, hok hinterest hnumerator hdenominator hpayment, hcomputed,
      .inr ⟨hsmall, hle⟩⟩

/-- **Up to it there is none**: the power is one, and the last division by zero. -/
theorem unroundedPayment_raises (h0 : 0 < R.toRat) (hle : R.toRat ≤ leastRate) :
    ∃ e, unroundedPayment principal R n = .error e := by
  have hne : R.coefficient ≠ 0 := fun hzero => h0.ne' (toRat_eq_zero.2 hzero)
  cases hresult : unroundedPayment principal R n with
  | error e => exact ⟨e, rfl⟩
  | ok payment =>
    unfold unroundedPayment at hresult
    dsimp only at hresult
    rw [if_neg hne] at hresult
    -- All operations up to the last one succeed, and the base is one.
    obtain ⟨rate, hrate, hresult⟩ := bind_eq_ok hresult
    obtain ⟨monthlyRate, hmonthly, hresult⟩ := bind_eq_ok hresult
    obtain ⟨base, hbase, hresult⟩ := bind_eq_ok hresult
    obtain ⟨factor, hfactor, hresult⟩ := bind_eq_ok hresult
    obtain ⟨interest, -, hresult⟩ := bind_eq_ok hresult
    obtain ⟨numerator, -, hresult⟩ := bind_eq_ok hresult
    obtain ⟨denominator, hdenominator, hresult⟩ := bind_eq_ok hresult
    have hone := pow_one_toRat (by decide) (by decide)
      (base_eq_one hrate hmonthly hbase h0.le hle) hfactor
    -- The power of one is one, and the division is by zero.
    have hzero : denominator.coefficient = 0 := by
      have hdiff : factor.toRat - (DecimalNumber.ofInt 1).toRat = 0 := by
        rw [hone, ofInt_toRat, Int.cast_one, sub_self]
      obtain ⟨z, hz, hvalue⟩ := @sub_exact defaultContext factor (.ofInt 1)
        (hdiff ▸ fits_zero defaultContext)
      rw [← Except.ok.inj (hz.symm.trans hdenominator), ← toRat_eq_zero, hvalue, hdiff]
    rw [Context.div, if_pos hzero] at hresult
    cases hresult

/-- A tie of cents fits the precision. -/
theorem fits_tie {k : Nat} (h : ((10 * k + 5) / 1000 : ℚ) ≤ 10 ^ 12) :
    defaultContext.Fits ((10 * k + 5) / 1000) := by
  have hk : ((10 * k + 5 : Nat) : ℚ) ≤ 10 ^ 15 := by
    push_cast
    linarith
  have hk : 10 * k + 5 ≤ 10 ^ 15 := by exact_mod_cast hk
  have hscaled : ((10 * k + 5) / 1000 : ℚ) = (10 * k + 5 : Nat) * 10 ^ (-3 : Int) := by
    push_cast
    norm_num
    ring
  rw [hscaled]
  exact fits_of_scaled (hk.trans_lt (by decide)) (by decide) (by decide)

/-- Without interest, the loan is spread over the term. -/
theorem unroundedPayment_zero (hrate : R.toRat = 0) (hn : 12 ≤ n)
    (hmax : n ≤ 480) (hp : |principal.toRat| ≤ 10 ^ 12) :
    ∃ payment, unroundedPayment principal R n = .ok payment ∧
      (Near (1 / 10 ^ 26) (principal.toRat / n) payment.toRat ∨
        (|principal.toRat| ≤ 1 / 10 ^ 60 ∧ |payment.toRat| ≤ 1 / 10 ^ 5)) ∧
      (0 ≤ principal.toRat → ∀ k : Nat, (10 * k + 5) / 1000 ≤ principal.toRat / n →
        (10 * k + 5) / 1000 ≤ payment.toRat) := by
  have hmonths : (DecimalNumber.ofInt n).toRat = n := by
    rw [ofInt_toRat, Int.cast_natCast]
  have hn12 : (12 : ℚ) ≤ n := by exact_mod_cast hn
  have hn480 : (n : ℚ) ≤ 480 := by exact_mod_cast hmax
  have hn0 : (0 : ℚ) < n := by linarith only [hn12]
  have hshare : |principal.toRat / n| ≤ |principal.toRat| := by
    rw [abs_div, abs_of_pos hn0]
    exact div_le_self (abs_nonneg _) (by linarith only [hn12])
  -- A quotient above a tie stays above it.
  have hkeeps : ∀ {payment : DecimalNumber},
      defaultContext.div principal (.ofInt n) = .ok payment → 0 ≤ principal.toRat →
        ∀ k : Nat, (10 * k + 5) / 1000 ≤ principal.toRat / n →
          (10 * k + 5) / 1000 ≤ payment.toRat := by
    intro payment hpayment h0 k hk
    refine le_div hpayment h0 (by rwa [hmonths]) (fits_tie ?_) (by positivity) (by rwa [hmonths])
    have := (le_abs_self _).trans hshare
    linarith only [hp, hk, this]
  have hbranch : unroundedPayment principal R n = defaultContext.div principal (.ofInt n) := by
    rw [unroundedPayment, if_pos (toRat_eq_zero.1 hrate)]
  rcases sized_or_small hp with hsized | hsmall
  · have hnSized : Sized 3 (n : ℚ) := by
      rw [Sized, abs_of_pos hn0]
      exact .inr ⟨by linarith only [hn12], by linarith only [hn480]⟩
    obtain ⟨payment, hpayment, hnear⟩ := @div_default principal (.ofInt n) _ _
      (by rw [hmonths]) (by rw [hmonths]; exact hn0.ne') (by decide) (hsized.div hnSized)
    exact ⟨payment, hbranch.trans hpayment, .inl (hnear.mono (by norm_num)), hkeeps hpayment⟩
  · obtain ⟨payment, hpayment, hle⟩ := @div_small principal (.ofInt n) (1 / 10 ^ 60)
      (by rw [hmonths]; exact hn0.ne') (by rw [hmonths]; linarith only [hshare, hsmall]) le_rfl
      (by norm_num)
    exact ⟨payment, hbranch.trans hpayment, .inr ⟨hsmall, by linarith only [hle]⟩, hkeeps hpayment⟩

end Unrounded

/-! ### Monthly payments -/

/-- The rates that a payment can be computed at. -/
def Served (rate : ℚ) : Prop := rate = 0 ∨ leastRate < rate

section Due

variable {p rate c : ℚ} {n : Nat}

/-- What any payment comes from. -/
theorem Due.cases (h : Due p rate n c) (hrate : 0 ≤ rate) (hup : rate ≤ 100) (hn : 12 ≤ n)
    (hmax : n ≤ 480) :
    ∃ s r, c = cents r ∧ Near (1 / 10 ^ 26) (p * s) r ∧ 0 ≤ s ∧ s ≤ 1 / 4 ∧ n * s ≤ 42 := by
  have hn12 : (12 : ℚ) ≤ n := by exact_mod_cast hn
  have hn0 : (0 : ℚ) < n := by linarith only [hn12]
  obtain ⟨r, hc, ⟨-, hnear, -⟩ | ⟨-, x, f, hcomputed, hnear⟩⟩ := h
  · have hshare : (1 : ℚ) / n ≤ 1 / 12 := one_div_le_one_div_of_le (by norm_num) hn12
    refine ⟨1 / n, r, hc, by rwa [mul_one_div], by positivity, by linarith only [hshare], ?_⟩
    rw [mul_one_div, div_self hn0.ne']
    norm_num
  · obtain ⟨h0, h4, h42⟩ := hcomputed.share_le hrate hup hn hmax
    exact ⟨share rate f, r, hc, hnear, h0, h4, h42⟩

/-- What is due to a down payment that was rounded up is less than a payment of a cent. -/
theorem Due.eq_zero (h : Due p rate n c) (hrate : 0 ≤ rate) (hup : rate ≤ 100) (hn : 12 ≤ n)
    (hmax : n ≤ 480) (hp : |p| ≤ 1 / 100) : c = 0 := by
  obtain ⟨s, r, rfl, hnear, h0, h4, -⟩ := h.cases hrate hup hn hmax
  have hle := hnear.abs.le (abs_nonneg _)
  have hmul : |p * s| ≤ 1 / 400 := by
    rw [abs_mul, abs_of_nonneg h0]
    calc |p| * s ≤ 1 / 100 * (1 / 4) := mul_le_mul hp h4 h0 (by norm_num)
      _ = 1 / 400 := by norm_num
  exact cents_eq_zero (by linarith only [hle, hmul])

/-- A payment is no credit, and all of them are within 43 times the loan. -/
theorem Due.nonneg_of_nonneg (h : Due p rate n c) (hrate : 0 ≤ rate) (hup : rate ≤ 100)
    (hn : 12 ≤ n) (hmax : n ≤ 480) (hp : 0 ≤ p) : 0 ≤ c ∧ n * c ≤ 43 * p + n / 200 := by
  have hn0 : (0 : ℚ) ≤ n := Nat.cast_nonneg n
  obtain ⟨s, r, rfl, hnear, h0, -, h42⟩ := h.cases hrate hup hn hmax
  have hps : 0 ≤ p * s := mul_nonneg hp h0
  have hr := hnear.ge hps
  have hr' := hnear.le hps
  have hcents := (abs_le.1 (abs_cents_sub_le r)).2
  refine ⟨cents_nonneg (by linarith only [hps, hr]), ?_⟩
  have hall := mul_le_mul_of_nonneg_left h42 hp
  have hscaled := mul_le_mul_of_nonneg_left hr' hn0
  have hrounded := mul_le_mul_of_nonneg_left hcents hn0
  linarith only [hp, hall, hscaled, hrounded]

end Due

section Monthly

variable {principal R : DecimalNumber} {n : Nat}

/-- **A payment is returned, and is due.** -/
theorem monthlyPayment_due (hrate : Served R.toRat) (hup : R.toRat ≤ 100) (hn : 12 ≤ n)
    (hmax : n ≤ 480) (hp : |principal.toRat| ≤ 10 ^ 12) (hcent : -(1 / 100) ≤ principal.toRat) :
    ∃ monthly, monthlyPayment principal R n = .ok monthly ∧ monthly.exponent = -2 ∧
      Due principal.toRat R.toRat n monthly.toRat := by
  have hn12 : (12 : ℚ) ≤ n := by exact_mod_cast hn
  -- an amount that is not negative, or that is rounded to zero
  have hmoney : ∀ {s : ℚ} {payment : DecimalNumber}, 0 ≤ s → s ≤ 1 / 4 →
      (Near (1 / 10 ^ 26) (principal.toRat * s) payment.toRat ∨
        (|principal.toRat| ≤ 1 / 10 ^ 60 ∧ |payment.toRat| ≤ 1 / 10 ^ 5)) →
      ∃ monthly r, toMoney payment = .ok monthly ∧ monthly.exponent = -2 ∧
        monthly.toRat = cents payment.toRat ∧ monthly.toRat = cents r ∧
        Near (1 / 10 ^ 26) (principal.toRat * s) r := by
    intro s payment h0 h4 hpayment
    have hmul : |principal.toRat * s| ≤ |principal.toRat| / 4 := by
      rw [abs_mul, abs_of_nonneg h0]
      have := mul_le_mul_of_nonneg_left h4 (abs_nonneg principal.toRat)
      linarith only [this]
    rcases hpayment with hnear | ⟨hsmall, htiny⟩
    · have hle := hnear.abs.le (abs_nonneg _)
      rcases le_or_gt 0 principal.toRat with hp0 | hneg
      · have hge := hnear.ge (mul_nonneg hp0 h0)
        have hps := mul_nonneg hp0 h0
        have hpay := le_abs_self payment.toRat
        obtain ⟨monthly, hmonthly, hexponent, hvalue⟩ :=
          @toMoney_spec payment (by linarith only [hge, hps])
          (by linarith only [hp, hmul, hle, hpay])
        exact ⟨monthly, payment.toRat, hmonthly, hexponent, hvalue, hvalue, hnear⟩
      · rw [abs_of_neg hneg] at hmul
        obtain ⟨monthly, hmonthly, hexponent, hvalue⟩ :=
          @toMoney_tiny payment (by linarith only [hcent, hmul, hle])
        exact ⟨monthly, payment.toRat, hmonthly, hexponent, hvalue, hvalue, hnear⟩
    · obtain ⟨monthly, hmonthly, hexponent, hvalue⟩ :=
        @toMoney_tiny payment (by linarith only [htiny])
      refine ⟨monthly, principal.toRat * s, hmonthly, hexponent, hvalue, ?_, .refl (by norm_num) _⟩
      rw [hvalue, cents_eq_zero (by linarith only [htiny]),
        cents_eq_zero (by linarith only [hmul, hsmall])]
  have hreturns : ∀ {payment monthly : DecimalNumber},
      unroundedPayment principal R n = .ok payment → toMoney payment = .ok monthly →
      monthlyPayment principal R n = .ok monthly := by
    intro payment monthly hpayment hmonthly
    rw [monthlyPayment, if_neg (by omega), Int.toNat_natCast, hpayment]
    show Except.mapError PaymentError.decimal (toMoney payment) = _
    rw [hmonthly]
    rfl
  rcases hrate with hzero | hlow
  · obtain ⟨payment, hpayment, hnear, hkeeps⟩ := unroundedPayment_zero hzero hn hmax hp
    have hshare : (1 : ℚ) / n ≤ 1 / 12 := one_div_le_one_div_of_le (by norm_num) hn12
    rw [← mul_one_div principal.toRat] at hnear
    obtain ⟨monthly, r, hmonthly, hexponent, hvalue, hcents, hr⟩ :=
      hmoney (by positivity) (by linarith only [hshare]) hnear
    rw [mul_one_div] at hr
    refine ⟨monthly, hreturns hpayment hmonthly, hexponent, r, hcents, .inl ⟨hzero, hr, ?_⟩⟩
    rw [hvalue]
    rcases le_or_gt 0 principal.toRat with h0 | hneg
    · refine cents_le_cents_of_ties (by positivity) (hkeeps h0) ?_
      have hshare0 : 0 ≤ principal.toRat / n := by positivity
      have hr0 := hr.ge hshare0
      rw [← hvalue, hcents]
      exact cents_nonneg (by linarith only [hshare0, hr0])
    · have hquarter : |principal.toRat / n| ≤ 1 / 1000 := by
        rw [abs_div, abs_of_neg hneg, abs_of_pos (by linarith only [hn12] : (0 : ℚ) < n),
          div_le_iff₀ (by linarith only [hn12])]
        linarith only [hcent, hn12]
      rw [cents_eq_zero (by linarith only [hquarter])]
      rw [← hvalue, hcents, cents_eq_zero]
      have := hr.abs.le (abs_nonneg _)
      linarith only [hquarter, this]
  · obtain ⟨x, f, payment, hpayment, hcomputed, hnear⟩ := @unroundedPayment_ok principal R n hlow
      hup hn hmax hp
    have hR : 0 < R.toRat := by
      rw [leastRate] at hlow
      linarith only [hlow]
    obtain ⟨h0, h4, -⟩ := hcomputed.share_le hR.le hup hn hmax
    obtain ⟨monthly, r, hmonthly, hexponent, -, hcents, hr⟩ := hmoney h0 h4 hnear
    exact ⟨monthly, hreturns hpayment hmonthly, hexponent, r, hcents,
      .inr ⟨hR.ne', x, f, hcomputed, hr⟩⟩

/-- **At all other rates there is none.** -/
theorem monthlyPayment_raises (hrate : ¬Served R.toRat) (h0 : 0 ≤ R.toRat) (hn : 12 ≤ n) :
    ∃ e, monthlyPayment principal R n = .error e := by
  have hpos : 0 < R.toRat := lt_of_le_of_ne h0 fun hzero => hrate (.inl hzero.symm)
  obtain ⟨e, he⟩ := @unroundedPayment_raises principal R n hpos
    (not_lt.1 fun hlt => hrate (.inr hlt))
  refine ⟨.decimal e, ?_⟩
  rw [monthlyPayment, if_neg (by omega), Int.toNat_natCast, he]
  rfl

end Monthly

/-! ### Rates that are not tiny -/

/-- A rate whose power keeps half of its digits. -/
def Payable (rate : ℚ) : Prop := 1 / 10 ^ 10 ≤ rate ∧ rate ≤ 100

/-- Two rates that twenty-eight digits can tell from one another. -/
def Apart (rate rate' : ℚ) : Prop := 1 / 10 ^ 20 ≤ rate * (rate' - rate)

/-- A unit of the last place, relative to the rate. -/
def grain (x : ℚ) : ℚ := 1 / 10 ^ 28 / x

theorem grain_mul {x : ℚ} (h : 0 < x) : grain x * x = 1 / 10 ^ 28 := by
  rw [grain, div_mul_cancel₀ _ h.ne']

section Payable

variable {p rate rate' x x' f f' r r' c c' : ℚ} {n : Nat}

theorem Payable.pos (h : Payable rate) : 0 < rate := lt_of_lt_of_le (by norm_num) h.1

/-- The rates that are told from zero are above the least. -/
theorem Payable.served (h : Payable rate) : leastRate < rate := by
  have hlow := h.1
  rw [leastRate]
  linarith

/-- A payable rate is large enough to show in the power. -/
theorem Computed.low (h : Computed rate n x f) (hrate : Payable rate) : 8 / 10 ^ 14 ≤ x := by
  have hclose := (abs_le.1 h.close).1
  obtain ⟨hlow, hup⟩ := hrate
  linarith

/-- The grain is small against the rate, and not against the precision. -/
theorem Computed.grain_bounds (h : Computed rate n x f) (hrate : Payable rate) :
    0 ≤ grain x ∧ grain x ≤ 125 / 10 ^ 17 ∧ 11 / 10 ^ 28 ≤ grain x := by
  have hlow := h.low hrate
  obtain ⟨-, hhigh, -⟩ := h.bounds hrate.2
  have hx : 0 < x := by linarith
  refine ⟨by rw [grain]; positivity, ?_, ?_⟩
  · rw [grain, div_le_iff₀ hx]
    linarith
  · rw [grain, le_div_iff₀ hx]
    linarith

/-- **A month's share is the annuity**, up to a few units of the rate. -/
theorem Computed.share_near (h : Computed rate n x f) (hrate : Payable rate) (hn : 12 ≤ n) :
    Near (13 * grain x) (annuity n x) (share rate f) := by
  have hlow := h.low hrate
  have hup := hrate.2
  have hx : 0 < x := by linarith
  obtain ⟨hz0, hz, hunit⟩ := h.grain_bounds hrate
  have hgrain := grain_mul hx
  have hclose := h.close
  have hone := h.one_lt
  have hpower := h.power
  have hn' : (12 : ℚ) ≤ n := by exact_mod_cast hn
  have hnx : 12 * x ≤ n * x := mul_le_mul_of_nonneg_right hn' hx.le
  rw [annuity, share]
  generalize (1 + x) ^ n = F at hone hpower ⊢
  -- The rate as a number and as it was computed.
  have hrateNear : Near (8 * grain x) x (rate / 1200) := by
    rw [Near, abs_of_pos hx, abs_sub_comm, mul_assoc, hgrain]
    linarith only [hup, hclose]
  -- The denominator, which loses digits where the power is close to one.
  have hless : Near (grain x) (F - 1) (f - 1) := by
    have hscale : 12 / 10 ^ 28 ≤ grain x * (F - 1) := by
      have hle := mul_le_mul_of_nonneg_left (hnx.trans hone) hz0
      linarith only [hgrain, hle]
    have hlarge : 11 / 10 ^ 28 * (F - 1) ≤ grain x * (F - 1) :=
      mul_le_mul_of_nonneg_right hunit (by linarith only [hlow, hnx, hone])
    rw [Near, abs_of_pos (by linarith only [hlow, hnx, hone] : 0 < F)] at hpower
    rw [Near, abs_of_pos (by linarith only [hlow, hnx, hone] : 0 < F - 1), sub_sub_sub_cancel_right]
    linarith only [hpower, hscale, hlarge]
  -- Numerator and quotient, with the errors of their parts.
  have hproduct := (hrateNear.mul_right F).trans
    ((hpower.mono (by linarith only [hunit] : _ ≤ grain x)).mul_left (rate / 1200)) hz0
  have hquotient := (hproduct.mul_right (F - 1)⁻¹).trans
    ((hless.inv (by linarith only [hz])).mul_left (rate / 1200 * f)) (by linarith only [hz0])
  rw [div_eq_mul_inv, div_eq_mul_inv]
  refine hquotient.mono ?_
  have hsquare : grain x * grain x ≤ grain x * (1 / 10 ^ 10) :=
    mul_le_mul_of_nonneg_left (by linarith only [hz]) hz0
  have hcube : grain x * grain x * grain x ≤ grain x * (1 / 10 ^ 10) * 1 :=
    mul_le_mul hsquare (by linarith only [hz]) hz0 (by positivity)
  nlinarith

/-- The payment lies within twenty-five units of the rate of the annuity. -/
theorem Computed.payment_bounds (h : Computed rate n x f) (hrate : Payable rate) (hn : 12 ≤ n)
    (hp : 0 ≤ p) (hr : Near (1 / 10 ^ 26) (p * share rate f) r) :
    (1 - 25 * grain x) * (p * annuity n x) ≤ r ∧ r ≤ (1 + 25 * grain x) * (p * annuity n x) := by
  have hx := h.pos
  obtain ⟨hz0, hz, hunit⟩ := h.grain_bounds hrate
  have hannuity := (annuity_pos (by omega : 1 ≤ n) hx).le
  have hpa : 0 ≤ p * annuity n x := mul_nonneg hp hannuity
  have hnear := ((h.share_near hrate hn).mul_left p).trans hr (by norm_num)
  have hle : 13 * grain x + 1 / 10 ^ 26 + 13 * grain x * (1 / 10 ^ 26) ≤ 25 * grain x := by
    linarith only [hunit]
  have hnear := hnear.mono hle
  exact ⟨hnear.ge hpa, hnear.le hpa⟩

/-- A payment due is the share of the principal, rounded. -/
theorem Due.exists_computed (h : Due p rate n c) (hrate : Payable rate) :
    ∃ x f r, c = cents r ∧ Computed rate n x f ∧ Near (1 / 10 ^ 26) (p * share rate f) r := by
  obtain ⟨r, hc, ⟨hzero, -⟩ | ⟨-, x, f, hcomputed, hnear⟩⟩ := h
  · exact absurd hzero hrate.pos.ne'
  · exact ⟨x, f, r, hc, hcomputed, hnear⟩

/-- A payment at a rate exceeds its part of the loan by the interest of a month. -/
theorem Computed.le_payment (h : Computed rate n x f) (hrate : Payable rate) (hn : 12 ≤ n)
    (hp : 0 ≤ p) (hr : Near (1 / 10 ^ 26) (p * share rate f) r) :
    (1 + 1 / 10 ^ 26) * (p / n) ≤ r := by
  have hlow := h.low hrate
  have hx := h.pos
  obtain ⟨hz0, hz, hunit⟩ := h.grain_bounds hrate
  have hgrain := grain_mul hx
  have hn' : (0 : ℚ) < n := Nat.cast_pos.2 (by omega)
  have hannuity := le_annuity (by omega : 1 ≤ n) hx
  refine le_trans ?_ (h.payment_bounds hrate hn hp hr).1
  have hscale : 1 + 1 / 10 ^ 26 ≤ (1 - 25 * grain x) * (1 + x) := by
    have hexpand : (1 - 25 * grain x) * (1 + x) = 1 + x - 25 * grain x - 25 * (grain x * x) := by
      ring
    rw [hexpand, hgrain]
    linarith only [hlow, hz]
  calc (1 + 1 / 10 ^ 26) * (p / n) ≤ (1 - 25 * grain x) * (1 + x) * (p / n) :=
        mul_le_mul_of_nonneg_right hscale (by positivity)
    _ = (1 - 25 * grain x) * (p * ((1 + x) / n)) := by ring
    _ ≤ (1 - 25 * grain x) * (p * annuity n x) := by
      refine mul_le_mul_of_nonneg_left (mul_le_mul_of_nonneg_left hannuity hp) ?_
      linarith only [hz]

/-- **A payment covers its part of the loan.** -/
theorem Due.covers (h : Due p rate n c) (hrate : rate = 0 ∨ Payable rate) (hn : 12 ≤ n)
    (hp : 0 ≤ p) : p / n - 1 / 200 ≤ c := by
  have hrounded := (abs_le.1 (abs_cents_sub_le (p / n))).1
  have hshare : 0 ≤ p / n := by positivity
  rcases hrate with hzero | hpayable
  · obtain ⟨r, -, ⟨-, -, hle⟩ | ⟨hne, -⟩⟩ := h
    · linarith only [hrounded, hle]
    · exact absurd hzero hne
  · obtain ⟨x, f, r, rfl, hcomputed, hnear⟩ := h.exists_computed hpayable
    have hle := hcomputed.le_payment hpayable hn hp hnear
    have := cents_mono (by linarith only [hshare, hle] : p / n ≤ r)
    linarith only [hrounded, this]

/-- Two rates that are apart are computed apart. -/
theorem Computed.gap (h : Computed rate n x f) (h' : Computed rate' n x' f')
    (hrate : Payable rate) (hrate' : Payable rate') (hapart : Apart rate rate') :
    x ≤ x' ∧ 60 * grain x ≤ x' - x := by
  have hclose := abs_le.1 h.close
  have hclose' := abs_le.1 h'.close
  have hx := h.pos
  have hgrain := grain_mul hx
  have hlow := hrate.1
  have hup := hrate.2
  have hup' := hrate'.2
  have hgap : 0 < rate' - rate := by
    have : 0 < rate * (rate' - rate) := lt_of_lt_of_le (by norm_num) hapart
    exact (mul_pos_iff_of_pos_left (by linarith only [hlow])).1 this
  have hapart : 69 / 10 ^ 28 ≤ rate / 1200 * ((rate' - rate) / 1200) := by
    rw [Apart] at hapart
    linarith only [hapart]
  have hbound : rate / 1200 * ((rate' - rate) / 1200) ≤ 1 / 12 * ((rate' - rate) / 1200) :=
    mul_le_mul_of_nonneg_right (by linarith only [hup]) (by linarith only [hgap])
  have hdistance : (rate' - rate) / 1200 - 16 / 10 ^ 28 ≤ x' - x := by
    linarith only [hclose, hclose', hup, hup']
  have hproduct : (rate / 1200 - 8 / 10 ^ 28) * ((rate' - rate) / 1200 - 16 / 10 ^ 28) ≤
      x * (x' - x) :=
    mul_le_mul (by linarith only [hclose, hup]) hdistance (by linarith only [hapart, hbound]) hx.le
  have hsixty : 60 * grain x * x ≤ (x' - x) * x := by
    linarith only [hgrain, hup, hup', hapart, hproduct]
  exact ⟨by linarith only [hclose, hclose', hup, hapart, hbound], le_of_mul_le_mul_right hsixty hx⟩

/-- The rate grows by more than the roundings of both payments. -/
theorem Computed.payment_mono (h : Computed rate n x f) (h' : Computed rate' n x' f')
    (hrate : Payable rate) (hrate' : Payable rate') (hapart : Apart rate rate') (hn : 12 ≤ n)
    (hp : 0 ≤ p) (hr : Near (1 / 10 ^ 26) (p * share rate f) r)
    (hr' : Near (1 / 10 ^ 26) (p * share rate' f') r') : r ≤ r' := by
  obtain ⟨hle, hgap⟩ := h.gap h' hrate hrate' hapart
  obtain ⟨hz0, hz, -⟩ := h.grain_bounds hrate
  obtain ⟨-, hhigh, -⟩ := h.bounds hrate.2
  obtain ⟨-, hhigh', -⟩ := h'.bounds hrate'.2
  have hx := h.pos
  have hx' := h'.pos
  -- A larger rate has the finer grain.
  have hz' : grain x' ≤ grain x := by
    rw [grain, grain]
    exact div_le_div_of_nonneg_left (by norm_num) hx hle
  have hgrowth := annuity_growth (by omega : 1 ≤ n) hx hle
  have hpos' := (annuity_pos (by omega : 1 ≤ n) hx').le
  -- The gap between the rates is wider than both errors.
  have hscale : (1 + 25 * grain x) * (1 + x) ≤ (1 - 25 * grain x) * (1 + x') := by
    have hgrow : grain x * x' ≤ grain x * (1 / 11) := mul_le_mul_of_nonneg_left hhigh' hz0
    have hgrow' : grain x * x ≤ grain x * (1 / 11) := mul_le_mul_of_nonneg_left hhigh hz0
    linarith only [hle, hgap, hgrow, hgrow']
  have hannuity : (1 + 25 * grain x) * annuity n x ≤ (1 - 25 * grain x) * annuity n x' := by
    refine le_of_mul_le_mul_left ?_ (by linarith only [hle, hx] : 0 < 1 + x')
    calc (1 + x') * ((1 + 25 * grain x) * annuity n x)
        = (1 + 25 * grain x) * ((1 + x') * annuity n x) := by ring
      _ ≤ (1 + 25 * grain x) * ((1 + x) * annuity n x') :=
        mul_le_mul_of_nonneg_left hgrowth (by linarith only [hz0])
      _ = (1 + 25 * grain x) * (1 + x) * annuity n x' := by ring
      _ ≤ (1 - 25 * grain x) * (1 + x') * annuity n x' :=
        mul_le_mul_of_nonneg_right hscale hpos'
      _ = (1 + x') * ((1 - 25 * grain x) * annuity n x') := by ring
  calc r ≤ (1 + 25 * grain x) * (p * annuity n x) := (h.payment_bounds hrate hn hp hr).2
    _ = p * ((1 + 25 * grain x) * annuity n x) := by ring
    _ ≤ p * ((1 - 25 * grain x) * annuity n x') := mul_le_mul_of_nonneg_left hannuity hp
    _ = (1 - 25 * grain x) * (p * annuity n x') := by ring
    _ ≤ (1 - 25 * grain x') * (p * annuity n x') :=
      mul_le_mul_of_nonneg_right (by linarith only [hz']) (mul_nonneg hp hpos')
    _ ≤ r' := (h'.payment_bounds hrate' hn hp hr').1

/-- **Payments do not decrease when the rate grows.** -/
theorem Due.mono (h : Due p rate n c) (h' : Due p rate' n c') (hrate : rate = 0 ∨ Payable rate)
    (hrate' : Payable rate') (hapart : rate = 0 ∨ Apart rate rate') (hn : 12 ≤ n) (hp : 0 ≤ p) :
    c ≤ c' := by
  obtain ⟨x', f', r', rfl, hcomputed', hnear'⟩ := h'.exists_computed hrate'
  by_cases hzero : rate = 0
  · obtain ⟨r, rfl, ⟨-, hnear, -⟩ | ⟨hne, -⟩⟩ := h
    · refine cents_mono ((hnear.le (by positivity)).trans ?_)
      exact hcomputed'.le_payment hrate' hn hp hnear'
    · exact absurd hzero hne
  · have hpayable := hrate.resolve_left hzero
    obtain ⟨x, f, r, rfl, hcomputed, hnear⟩ := h.exists_computed hpayable
    exact cents_mono (hcomputed.payment_mono hcomputed' hpayable hrate' (hapart.resolve_left hzero)
      hn hp hnear hnear')

end Payable

end Common

end RealEstate
