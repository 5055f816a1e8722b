import Mathlib.Algebra.Order.Ring.Pow
import Mathlib.Data.Nat.Cast.Field
import Mathlib.Data.Nat.Cast.Order.Field
import Mathlib.Tactic.GCongr
import Mathlib.Tactic.NormNum
import Mathlib.Tactic.Positivity
import RealEstate.Systems.DecimalArithmetic

/-!
# Rounding errors of decimal arithmetic

What an operation returns when its exact result does not fit the context's digits.

- `Context.Roomy`: a result that neither overflows nor is rounded as a subnormal number.
- `fix_near`, `mul_near`, `add_near`, `sub_near`, `div_near`: each operation returns the exact
  result up to a relative error.
- `Context.pow`: the integer power, by squaring at a few digits more; `pow_near` bounds its
  error.
-/

namespace RealEstate

namespace Systems

/-- `r` is `q` up to the relative error `ε`. -/
def Near (ε q r : ℚ) : Prop := |r - q| ≤ ε * |q|

theorem Near.refl {ε : ℚ} (h : 0 ≤ ε) (q : ℚ) : Near ε q q := by
  rw [Near, sub_self, abs_zero]
  positivity

theorem Near.mono {ε ε' q r : ℚ} (h : Near ε q r) (hle : ε ≤ ε') : Near ε' q r :=
  le_trans h (mul_le_mul_of_nonneg_right hle (abs_nonneg q))

theorem Near.le {ε q r : ℚ} (h : Near ε q r) (hq : 0 ≤ q) : r ≤ (1 + ε) * q := by
  have hup := (abs_le.1 h).2
  rw [abs_of_nonneg hq] at hup
  linarith

theorem Near.ge {ε q r : ℚ} (h : Near ε q r) (hq : 0 ≤ q) : (1 - ε) * q ≤ r := by
  have hlow := (abs_le.1 h).1
  rw [abs_of_nonneg hq] at hlow
  linarith

/-- One error after another. -/
theorem Near.trans {δ ε p q r : ℚ} (hpq : Near δ p q) (hqr : Near ε q r) (hε : 0 ≤ ε) :
    Near (δ + ε + δ * ε) p r := by
  have hq : |q| ≤ (1 + δ) * |p| := by
    have htri := abs_add_le (q - p) p
    rw [sub_add_cancel] at htri
    have hle : |q - p| ≤ δ * |p| := hpq
    linarith
  have htri := abs_sub_le r q p
  have hrq : |r - q| ≤ ε * ((1 + δ) * |p|) :=
    le_trans hqr (mul_le_mul_of_nonneg_left hq hε)
  have hqp : |q - p| ≤ δ * |p| := hpq
  rw [Near]
  linarith only [htri, hrq, hqp]

theorem Near.abs {ε q r : ℚ} (h : Near ε q r) : Near ε |q| |r| := by
  rw [Near, abs_abs]
  exact (abs_abs_sub_abs_le r q).trans h

theorem Near.mul_right {ε q r : ℚ} (h : Near ε q r) (c : ℚ) : Near ε (q * c) (r * c) := by
  rw [Near, ← sub_mul, abs_mul, abs_mul, ← mul_assoc]
  exact mul_le_mul_of_nonneg_right h (abs_nonneg c)

theorem Near.mul_left {ε q r : ℚ} (h : Near ε q r) (c : ℚ) : Near ε (c * q) (c * r) := by
  rw [mul_comm c q, mul_comm c r]
  exact h.mul_right c

theorem Near.inv {ε q r : ℚ} (h : Near ε q r) (hε : ε ≤ 1 / 2) : Near (2 * ε) q⁻¹ r⁻¹ := by
  have hdist : |r - q| ≤ 1 / 2 * |q| := h.mono hε
  rcases eq_or_ne q 0 with rfl | hq
  · rw [sub_zero, abs_zero, mul_zero] at hdist
    rw [abs_nonpos_iff.1 hdist, Near, sub_self, abs_zero, inv_zero, abs_zero, mul_zero]
  · have hq0 : 0 < |q| := abs_pos.2 hq
    -- With an error of a half at most, the two are of one magnitude.
    have hfrom := abs_sub_abs_le_abs_sub q r
    rw [abs_sub_comm] at hfrom
    have hr0 : 0 < |r| := by linarith only [hdist, hq0, hfrom]
    have hr : r ≠ 0 := abs_pos.1 hr0
    have hdiff : r⁻¹ - q⁻¹ = (q - r) / (r * q) := by
      field_simp
    rw [Near, hdiff, abs_div, abs_mul, abs_sub_comm, abs_inv, div_le_iff₀ (by positivity)]
    calc |r - q| ≤ ε * |q| := h
      _ ≤ 2 * ε * |r| := by
        have hε0 : 0 ≤ ε := by
          by_contra hneg
          have := mul_neg_of_neg_of_pos (not_le.1 hneg) hq0
          have := abs_nonneg (r - q)
          have hle : |r - q| ≤ ε * |q| := h
          linarith
        have hhalf : |q| ≤ 2 * |r| := by linarith only [hdist, hfrom]
        have := mul_le_mul_of_nonneg_left hhalf hε0
        linarith only [this]
      _ = 2 * ε * |q|⁻¹ * (|r| * |q|) := by field_simp

/-- Zero, or of at most `k` decimal orders of magnitude, up or down. -/
def Sized (k : Nat) (q : ℚ) : Prop := q = 0 ∨ (1 / 10 ^ k ≤ |q| ∧ |q| ≤ 10 ^ k)

theorem Sized.mul {j k : Nat} {p q : ℚ} (hp : Sized j p) (hq : Sized k q) :
    Sized (j + k) (p * q) := by
  rcases hp with rfl | ⟨hplow, hpup⟩
  · exact .inl (zero_mul q)
  · rcases hq with rfl | ⟨hqlow, hqup⟩
    · exact .inl (mul_zero p)
    · refine .inr ⟨?_, ?_⟩
      · rw [abs_mul, pow_add, one_div, mul_inv, ← one_div, ← one_div]
        exact mul_le_mul hplow hqlow (by positivity) (abs_nonneg p)
      · rw [abs_mul, pow_add]
        exact mul_le_mul hpup hqup (abs_nonneg q) (by positivity)

theorem Sized.inv {k : Nat} {q : ℚ} (h : Sized k q) : Sized k q⁻¹ := by
  rcases h with rfl | ⟨hlow, hup⟩
  · exact .inl inv_zero
  · have hten : (0 : ℚ) < 10 ^ k := by positivity
    have hq : 0 < |q| := lt_of_lt_of_le (by positivity) hlow
    refine .inr ⟨?_, ?_⟩
    · rw [abs_inv, one_div]
      exact inv_anti₀ hq hup
    · rw [abs_inv]
      refine inv_le_of_inv_le₀ hten ?_
      rwa [← one_div]

theorem Sized.div {j k : Nat} {p q : ℚ} (hp : Sized j p) (hq : Sized k q) :
    Sized (j + k) (p / q) := by
  rw [div_eq_mul_inv]
  exact hp.mul hq.inv

/-- What is near is of nearly the size. -/
theorem Sized.near {k : Nat} {ε p q : ℚ} (h : Sized k p) (hnear : Near ε p q) (hε : ε ≤ 1 / 2) :
    Sized (k + 1) q := by
  have hdist : |q - p| ≤ 1 / 2 * |p| := hnear.mono hε
  rcases h with rfl | ⟨hlow, hup⟩
  · rw [sub_zero, abs_zero, mul_zero] at hdist
    exact .inl (abs_nonpos_iff.1 hdist)
  · have hfrom := abs_sub_abs_le_abs_sub p q
    have hto := abs_sub_abs_le_abs_sub q p
    rw [abs_sub_comm] at hfrom
    have hten : (0 : ℚ) < 10 ^ k := by positivity
    refine .inr ⟨?_, ?_⟩
    · rw [pow_succ, one_div, mul_inv, ← one_div]
      have : (0 : ℚ) < 1 / 10 ^ k := by positivity
      linarith only [hdist, hlow, hfrom, hto]
    · rw [pow_succ]
      linarith only [hdist, hup, hfrom, hto]

/-! ### One operation -/

/-- The nearest integer is at most one half away, whatever is done with a tie. -/
theorem abs_quotient_sub_le (mode : Rounding) (n : Nat) {d : Nat} (hd : 0 < d) :
    |((mode.quotient n d : Nat) : ℚ) - n / d| ≤ 1 / 2 := by
  have hd' : (0 : ℚ) < d := Nat.cast_pos.2 hd
  have hn : (n : ℚ) / d = (n / d : Nat) + ((n % d : Nat) : ℚ) / d := by
    rw [eq_comm, ← sub_eq_zero]
    field_simp
    have hdiv : (n : ℚ) = d * (n / d : Nat) + (n % d : Nat) := by
      exact_mod_cast (Nat.div_add_mod n d).symm
    linarith
  have hr1 : ((n % d : Nat) : ℚ) / d < 1 := by
    rw [div_lt_one hd']
    exact_mod_cast Nat.mod_lt n hd
  have hr0 : (0 : ℚ) ≤ ((n % d : Nat) : ℚ) / d := by positivity
  rw [hn, abs_le]
  unfold Rounding.quotient
  generalize n / d = q at *
  generalize n % d = r at *
  split
  · next hlow =>
    have hlow : (r : ℚ) / d < 1 / 2 := by
      rw [div_lt_iff₀ hd']
      have : 2 * (r : ℚ) < d := by exact_mod_cast hlow
      linarith only [this]
    constructor <;> linarith only [hlow, hr0]
  · next hhigh =>
    have hhigh : (1 : ℚ) / 2 ≤ r / d := by
      rw [le_div_iff₀ hd']
      have : (d : ℚ) ≤ 2 * r := by exact_mod_cast Nat.not_lt.1 hhigh
      linarith only [this]
    split
    · push_cast
      constructor <;> linarith only [hr1, hhigh]
    · next hle =>
      -- a tie, rounded up or down
      have htie : (r : ℚ) / d ≤ 1 / 2 := by
        rw [div_le_iff₀ hd']
        have : 2 * (r : ℚ) ≤ d := by exact_mod_cast Nat.not_lt.1 hle
        linarith only [this]
      split
      · push_cast
        constructor <;> linarith only [hr1, hhigh]
      · split
        · constructor <;> linarith only [htie, hr0]
        · push_cast
          constructor <;> linarith only [hr1, hhigh]

namespace Context

variable (ctx : Context)

/-- Half a unit in the last place, relative to the number. -/
def unit : ℚ := 5 * 10 ^ (-ctx.prec : Int)

/-- Zero, or far from the largest and the least normal numbers. -/
def Roomy (q : ℚ) : Prop :=
  q = 0 ∨ ((10 : ℚ) ^ (ctx.emin + 1) ≤ |q| ∧ |q| < 10 ^ (ctx.emax - 1))

theorem unit_pos : 0 < ctx.unit := by
  exact mul_pos (by norm_num) (zpow_pos (by norm_num) _)

end Context

section Near

variable {ctx : Context} {x y : DecimalNumber}

theorem abs_sign {c : Int} (h : c ≠ 0) : |((c.sign : Int) : ℚ)| = 1 := by
  rcases lt_or_gt_of_ne h with hneg | hpos
  · rw [Int.sign_eq_neg_one_of_neg hneg]
    norm_num
  · rw [Int.sign_eq_one_of_pos hpos]
    norm_num

/-- Rescaling to an exponent `E` moves a number by half a unit of `E` at most. -/
theorem abs_rescale_sub_le (mode : Rounding) {E : Int} (h : x.exponent < E)
    (hx : x.coefficient ≠ 0) :
    |(x.rescale mode E).toRat - x.toRat| ≤ 1 / 2 * 10 ^ E := by
  have hshift : mode.shift x.coefficient.natAbs (x.exponent - E) =
      mode.quotient x.coefficient.natAbs (10 ^ (E - x.exponent).toNat) := by
    rw [Rounding.shift, if_neg (by omega), neg_sub]
  have hpow : (10 : ℚ) ^ x.exponent =
      10 ^ E / ((10 ^ (E - x.exponent).toNat : Nat) : ℚ) := by
    rw [cast_pow_toNat (by omega), zpow_sub₀ (by norm_num)]
    field_simp
  have hnear := abs_quotient_sub_le mode x.coefficient.natAbs
    (Nat.pow_pos (by decide : 0 < 10) : 0 < 10 ^ (E - x.exponent).toNat)
  have hsign : (x.coefficient : ℚ) = x.coefficient.sign * x.coefficient.natAbs := by
    rw [← Int.cast_natCast, ← Int.cast_mul, Int.sign_mul_natAbs]
  have hdiff : (x.rescale mode E).toRat - x.toRat = x.coefficient.sign *
      (((mode.quotient x.coefficient.natAbs (10 ^ (E - x.exponent).toNat) : Nat) : ℚ) -
        x.coefficient.natAbs / (10 ^ (E - x.exponent).toNat : Nat)) * 10 ^ E := by
    rw [DecimalNumber.toRat, DecimalNumber.toRat, DecimalNumber.rescale, hshift, hpow,
      Int.cast_mul, Int.cast_natCast]
    rw [hsign]
    ring
  have hten : (0 : ℚ) < 10 ^ E := zpow_pos (by norm_num) E
  rw [hdiff, abs_mul, abs_mul, abs_sign hx, one_mul, abs_of_pos hten]
  exact mul_le_mul_of_nonneg_right hnear hten.le

/-- Dropping a zero that a carry left at the end changes nothing. -/
theorem toRat_drop_zero {c e : Int} (h : (10 : Int) ∣ c) :
    (DecimalNumber.mk (c.tdiv 10) (e + 1)).toRat = (DecimalNumber.mk c e).toRat := by
  obtain ⟨m, rfl⟩ := h
  rw [Int.mul_tdiv_cancel_left m (by decide), DecimalNumber.toRat, DecimalNumber.toRat,
    zpow_add_one₀ (by norm_num)]
  push_cast
  ring

/-- The only number of a digit too many that rescaling makes is a power of ten. -/
theorem rescale_carry {E : Int} (hlong : x.exponent < E) (hne : x.coefficient ≠ 0)
    (hE : digitCount x.coefficient.natAbs + x.exponent ≤ ctx.prec + E)
    (hcarry : ctx.prec < digitCount (x.rescale .halfEven E).coefficient.natAbs) :
    (x.rescale .halfEven E).coefficient.natAbs = 10 ^ ctx.prec := by
  have hprec := ctx.prec_pos
  refine le_antisymm ?_ ?_
  · have habs := abs_toRat (x.rescale .halfEven E)
    have htri := abs_sub_abs_le_abs_sub (x.rescale .halfEven E).toRat x.toRat
    have hmoved := abs_rescale_sub_le .halfEven hlong hne
    -- The number has at most as many digits as the precision.
    have hup : |x.toRat| < 10 ^ ctx.prec * 10 ^ E := by
      rw [← zpow_natCast, ← zpow_add₀ (by norm_num)]
      exact (abs_toRat_lt x).trans_le (zpow_le_zpow_right₀ (by norm_num) hE)
    have hpos : (0 : ℚ) < 10 ^ E := zpow_pos (by norm_num) E
    have hlt : ((x.rescale .halfEven E).coefficient.natAbs : ℚ) * 10 ^ E <
        (10 ^ ctx.prec + 1) * 10 ^ E := by
      replace habs : |(x.rescale .halfEven E).toRat| =
        (x.rescale .halfEven E).coefficient.natAbs * 10 ^ E := habs
      rw [← habs]
      linarith only [htri, hmoved, hup, hpos]
    have hlt := lt_of_mul_lt_mul_right hlt hpos.le
    -- Rounding moves it by less than a unit, so one power of ten is the most it reaches.
    exact Nat.lt_succ_iff.1 (by exact_mod_cast hlt)
  · -- It has a digit more, so it reaches that power.
    have hne' : (x.rescale .halfEven E).coefficient.natAbs ≠ 0 := by
      intro hzero
      rw [hzero] at hcarry
      have : digitCount 0 = 1 := rfl
      omega
    exact (Nat.pow_le_pow_right (by decide) (by omega)).trans (pow_digitCount_le hne')

/-- If rounding carries into another digit, the last digit is zero. -/
theorem ten_dvd_rescale {E : Int} (hlong : x.exponent < E) (hne : x.coefficient ≠ 0)
    (hE : digitCount x.coefficient.natAbs + x.exponent ≤ ctx.prec + E)
    (hcarry : ctx.prec < digitCount (x.rescale .halfEven E).coefficient.natAbs) :
    (10 : Int) ∣ (x.rescale .halfEven E).coefficient := by
  rw [← Int.dvd_natAbs, rescale_carry hlong hne hE hcarry]
  exact_mod_cast dvd_pow_self 10 ctx.prec_pos.ne'

/-- What `fix` returns: the number itself, or the number on a coarser grid. -/
theorem fix_cases (h : ctx.fix x = .ok y) (hne : x.coefficient ≠ 0) :
    (y = x ∧ digitCount x.coefficient.natAbs ≤ ctx.prec ∧ ctx.etiny ≤ x.exponent) ∨
      ∃ E, x.exponent < E ∧ y.toRat = (x.rescale .halfEven E).toRat ∧ ctx.etiny ≤ E ∧
        digitCount x.coefficient.natAbs + x.exponent ≤ ctx.prec + E ∧
        (E ≤ ctx.etiny ∨ digitCount x.coefficient.natAbs + x.exponent = ctx.prec + E) := by
  unfold Context.fix at h
  rw [if_neg hne] at h
  dsimp only at h
  split at h
  · cases h
  · split at h
    · next hshort =>
      have hleft := le_max_left (digitCount x.coefficient.natAbs + x.exponent - ctx.prec : Int)
        ctx.etiny
      exact .inl ⟨(Except.ok.inj h).symm, by omega, (le_max_right _ _).trans hshort⟩
    · next hlong =>
      have hE := le_max_left (digitCount x.coefficient.natAbs + x.exponent - ctx.prec : Int)
        ctx.etiny
      refine .inr ⟨_, not_le.1 hlong, ?_, le_max_right _ _, by omega, ?_⟩
      · generalize max (digitCount x.coefficient.natAbs + x.exponent - ctx.prec : Int)
          ctx.etiny = E at *
        split at h
        · -- A carry to one digit more: the last digit is zero and is dropped.
          next hcarry =>
          have hdvd := ten_dvd_rescale (not_le.1 hlong) hne (by omega) hcarry
          split at h
          · cases h
          · rw [← Except.ok.inj h, toRat_drop_zero hdvd]
        · split at h
          · cases h
          · rw [← Except.ok.inj h]
      · rcases le_total (digitCount x.coefficient.natAbs + x.exponent - ctx.prec : Int)
          ctx.etiny with hle | hle
        · rw [max_eq_right hle]
          exact .inl le_rfl
        · rw [max_eq_left hle]
          exact .inr (by omega)

/-- In the context's range nothing is signalled. -/
theorem fix_ok (hrange : ctx.emin < ctx.emax) (h : |x.toRat| < 10 ^ ctx.emax) :
    ∃ y, ctx.fix x = .ok y := by
  unfold Context.fix
  split
  · exact ⟨_, rfl⟩
  · next hne =>
    -- The leading digit stands below the largest exponent, by the bound on the number.
    have htop : digitCount x.coefficient.natAbs + x.exponent - ctx.prec < ctx.etop := by
      have hlt := (zpow_lt_zpow_iff_right₀ (by norm_num : (1 : ℚ) < 10)).1
        ((pow_le_abs_toRat hne).trans_lt h)
      rw [Context.etop]
      omega
    have hE : max (digitCount x.coefficient.natAbs + x.exponent - ctx.prec : Int) ctx.etiny <
        ctx.etop := by
      refine max_lt htop ?_
      rw [Context.etiny, Context.etop]
      omega
    dsimp only
    rw [if_neg (not_lt.2 htop.le)]
    -- Whether it is left, rounded or rounded up a digit, it does not overflow.
    split
    · exact ⟨_, rfl⟩
    · split
      · rw [if_neg (by dsimp only [DecimalNumber.rescale]; omega)]
        exact ⟨_, rfl⟩
      · rw [if_neg (by dsimp only [DecimalNumber.rescale]; omega)]
        exact ⟨_, rfl⟩

/-- A grid that leaves a number all its digits moves it by half a unit in the last at most. -/
theorem abs_rescale_sub_le_unit {E : Int} (hlong : x.exponent < E) (hne : x.coefficient ≠ 0)
    (hE : E ≤ digitCount x.coefficient.natAbs + x.exponent - ctx.prec) :
    |(x.rescale .halfEven E).toRat - x.toRat| ≤ ctx.unit * |x.toRat| := by
  have hscale : 1 / 2 * (10 : ℚ) ^ (digitCount x.coefficient.natAbs + x.exponent - ctx.prec : Int) =
      ctx.unit * 10 ^ (digitCount x.coefficient.natAbs - 1 + x.exponent : Int) := by
    rw [Context.unit, mul_assoc, ← zpow_add₀ (by norm_num),
      show (-ctx.prec + (digitCount x.coefficient.natAbs - 1 + x.exponent) : Int) =
        digitCount x.coefficient.natAbs + x.exponent - ctx.prec - 1 by omega,
      zpow_sub_one₀ (by norm_num)]
    ring
  calc |(x.rescale .halfEven E).toRat - x.toRat| ≤ 1 / 2 * 10 ^ E :=
        abs_rescale_sub_le .halfEven hlong hne
    _ ≤ 1 / 2 * 10 ^ (digitCount x.coefficient.natAbs + x.exponent - ctx.prec : Int) :=
        mul_le_mul_of_nonneg_left (zpow_le_zpow_right₀ (by norm_num) hE) (by norm_num)
    _ = ctx.unit * 10 ^ (digitCount x.coefficient.natAbs - 1 + x.exponent : Int) := hscale
    _ ≤ ctx.unit * |x.toRat| :=
        mul_le_mul_of_nonneg_left (pow_le_abs_toRat hne) ctx.unit_pos.le

/-- **The rounding that ends every operation.** -/
theorem fix_near
    (h : x.toRat = 0 ∨ ((10 : ℚ) ^ ctx.emin ≤ |x.toRat| ∧ |x.toRat| < 10 ^ ctx.emax)) :
    ∃ y, ctx.fix x = .ok y ∧ Near ctx.unit x.toRat y.toRat := by
  have hunit := ctx.unit_pos.le
  by_cases hzero : x.coefficient = 0
  · refine ⟨_, if_pos hzero, ?_⟩
    rw [toRat_zero, toRat_eq_zero.2 hzero]
    exact .refl hunit 0
  · obtain ⟨hmin, hmax⟩ := h.resolve_left fun hx => hzero (toRat_eq_zero.1 hx)
    have hrange := (zpow_lt_zpow_iff_right₀ (by norm_num : (1 : ℚ) < 10)).1 (hmin.trans_lt hmax)
    obtain ⟨y, hy⟩ := fix_ok hrange hmax
    refine ⟨y, hy, ?_⟩
    rcases fix_cases hy hzero with ⟨rfl, -, -⟩ | ⟨E, hlong, hvalue, -, -, hE⟩
    · exact .refl hunit _
    · rw [Near, hvalue]
      refine abs_rescale_sub_le_unit hlong hzero ?_
      have hlt := (zpow_lt_zpow_iff_right₀ (by norm_num : (1 : ℚ) < 10)).1
        (hmin.trans_lt (abs_toRat_lt x))
      rw [Context.etiny] at hE
      omega

/-- The same, with the unit of the smallest numbers besides. -/
theorem fix_close (hrange : ctx.emin < ctx.emax) (h : |x.toRat| < 10 ^ ctx.emax) :
    ∃ y, ctx.fix x = .ok y ∧
      |y.toRat - x.toRat| ≤ ctx.unit * |x.toRat| + 1 / 2 * 10 ^ ctx.etiny := by
  have htiny : (0 : ℚ) < 10 ^ ctx.etiny := zpow_pos (by norm_num) _
  have hunit : 0 ≤ ctx.unit * |x.toRat| := mul_nonneg ctx.unit_pos.le (abs_nonneg _)
  by_cases hzero : x.coefficient = 0
  · refine ⟨_, if_pos hzero, ?_⟩
    rw [toRat_zero, toRat_eq_zero.2 hzero, sub_self, abs_zero]
    linarith
  · obtain ⟨y, hy⟩ := fix_ok hrange h
    refine ⟨y, hy, ?_⟩
    rcases fix_cases hy hzero with ⟨rfl, -, -⟩ | ⟨E, hlong, hvalue, -, -, hE | hE⟩
    · rw [sub_self, abs_zero]
      linarith only [htiny, hunit]
    · have hmoved := abs_rescale_sub_le .halfEven hlong hzero
      have hle : (10 : ℚ) ^ E ≤ 10 ^ ctx.etiny := zpow_le_zpow_right₀ (by norm_num) hE
      rw [hvalue]
      linarith only [hunit, hmoved, hle]
    · have hmoved := @abs_rescale_sub_le_unit ctx x E hlong hzero (by omega)
      rw [hvalue]
      linarith only [htiny, hmoved]

/-- A quotient is not rounded below an integer that it reaches. -/
theorem le_quotient (mode : Rounding) {n d m : Nat} (hd : 0 < d) (h : (m : ℚ) ≤ n / d) :
    m ≤ mode.quotient n d := by
  have hfloor : n / d ≤ mode.quotient n d := by
    unfold Rounding.quotient
    grind
  have hdiv : m ≤ n / d := by
    rw [le_div_iff₀ (Nat.cast_pos.2 hd)] at h
    exact (Nat.le_div_iff_mul_le hd).2 (by exact_mod_cast h)
  exact hdiv.trans hfloor

/-- A number of the grid `10 ^ E`, or below its first numbers of full length. -/
theorem exists_grid {m : Nat} {f E : Int} {q : ℚ} (hm : m < 10 ^ ctx.prec)
    (hle : m * 10 ^ f ≤ q * 10 ^ E) (hfull : E ≤ f ∨ (10 : ℚ) ^ (ctx.prec - 1 : Int) ≤ q) :
    ∃ k : Nat, (m : ℚ) * 10 ^ f ≤ k * 10 ^ E ∧ (k : ℚ) ≤ q := by
  have hpos : (0 : ℚ) < 10 ^ E := zpow_pos (by norm_num) E
  have hprec := ctx.prec_pos
  by_cases hf : E ≤ f
  · -- The number is a multiple of the unit itself.
    refine ⟨m * 10 ^ (f - E).toNat, ?_, ?_⟩
    · rw [Nat.cast_mul, cast_pow_toNat (by omega), mul_assoc, ← zpow_add₀ (by norm_num),
        sub_add_cancel]
    · refine le_of_mul_le_mul_right ?_ hpos
      rw [Nat.cast_mul, cast_pow_toNat (by omega), mul_assoc, ← zpow_add₀ (by norm_num),
        sub_add_cancel]
      exact hle
  · -- It has a finer unit, and then the smallest number of full length is above it.
    refine ⟨10 ^ (ctx.prec - 1), ?_, ?_⟩
    · have hm' : (m : ℚ) ≤ 10 ^ (ctx.prec : Int) := by
        rw [zpow_natCast]
        exact_mod_cast hm.le
      calc (m : ℚ) * 10 ^ f ≤ 10 ^ (ctx.prec : Int) * 10 ^ (E - 1) :=
            mul_le_mul hm' (zpow_le_zpow_right₀ (by norm_num) (by omega))
              (zpow_nonneg (by norm_num) _) (zpow_nonneg (by norm_num) _)
        _ = ((10 ^ (ctx.prec - 1) : Nat) : ℚ) * 10 ^ E := by
          rw [Nat.cast_pow, Nat.cast_ofNat, ← zpow_natCast, ← zpow_add₀ (by norm_num),
            ← zpow_add₀ (by norm_num)]
          congr 1
          omega
    · have hfull := hfull.resolve_left hf
      rw [Nat.cast_pow, Nat.cast_ofNat, ← zpow_natCast]
      rwa [Nat.cast_sub hprec]

/-- Rescaling a number that is not negative rounds a quotient. -/
theorem rescale_eq_quotient {E : Int} (hlong : x.exponent < E) (hne : x.coefficient ≠ 0)
    (hx0 : 0 ≤ x.toRat) :
    x.toRat = x.coefficient.natAbs / (10 ^ (E - x.exponent).toNat : Nat) * 10 ^ E ∧
      (x.rescale .halfEven E).toRat = (Rounding.quotient .halfEven x.coefficient.natAbs
        (10 ^ (E - x.exponent).toNat) : Nat) * 10 ^ E := by
  have hsign : x.coefficient.sign = 1 :=
    Int.sign_eq_one_of_pos (lt_of_le_of_ne (coefficient_nonneg hx0) (Ne.symm hne))
  have hpow : (10 : ℚ) ^ x.exponent =
      10 ^ E / ((10 ^ (E - x.exponent).toNat : Nat) : ℚ) := by
    rw [cast_pow_toNat (by omega), zpow_sub₀ (by norm_num)]
    field_simp
  constructor
  · rw [← abs_of_nonneg hx0, abs_toRat, hpow, div_mul_eq_mul_div, mul_div_assoc]
  · rw [DecimalNumber.toRat, DecimalNumber.rescale, hsign, Int.one_mul, Rounding.shift,
      if_neg (by omega), neg_sub, Int.cast_natCast]

/-- **Rounding does not pass a number that the digits can hold.** -/
theorem le_fix {t : ℚ} (h : ctx.fix x = .ok y) (ht : ctx.Fits t) (ht0 : 0 ≤ t)
    (hle : t ≤ x.toRat) : t ≤ y.toRat := by
  by_cases hne : x.coefficient = 0
  · have hzero : y = ⟨0, min (max x.exponent ctx.etiny) ctx.emax⟩ := by
      rw [Context.fix, if_pos hne] at h
      exact (Except.ok.inj h).symm
    rwa [hzero, toRat_zero, ← toRat_eq_zero.2 hne]
  · rcases fix_cases h hne with ⟨rfl, -, -⟩ | ⟨E, hlong, hy, -, -, hE⟩
    · exact hle
    · -- Rounded: on the grid of its last digit there is a number between the two.
      obtain ⟨m, f, hm, hdigits, hf, -⟩ := ht
      rw [abs_of_nonneg ht0] at hm
      have hx0 : 0 ≤ x.toRat := ht0.trans hle
      obtain ⟨hx, hvalue⟩ := rescale_eq_quotient hlong hne hx0
      -- Unless the exponent is the smallest one, the quotient has its full length.
      have hfull : E ≤ f ∨ (10 : ℚ) ^ (ctx.prec - 1 : Int) ≤
          x.coefficient.natAbs / (10 ^ (E - x.exponent).toNat : Nat) := by
        rcases hE with hE | hE
        · exact .inl (hE.trans hf)
        · refine .inr (le_of_mul_le_mul_right ?_ (zpow_pos (by norm_num) E : (0 : ℚ) < 10 ^ E))
          rw [← hx, ← zpow_add₀ (by norm_num), ← abs_of_nonneg hx0]
          refine le_trans (zpow_le_zpow_right₀ (by norm_num) (by omega)) (pow_le_abs_toRat hne)
      obtain ⟨k, htk, hk⟩ := exists_grid hdigits (by rw [← hx, ← hm]; exact hle) hfull
      -- Rounding to the nearest never passes a number of the grid.
      have hquotient := le_quotient .halfEven (Nat.pow_pos (by decide)) hk
      rw [hy, hvalue, hm]
      refine htk.trans (mul_le_mul_of_nonneg_right ?_ (zpow_nonneg (by norm_num) E))
      exact_mod_cast hquotient

/-- What an operation returns has no more digits than the context. -/
theorem held_of_fix (h : ctx.fix x = .ok y) :
    ∃ (m : Nat) (f : Int), |y.toRat| = m * 10 ^ f ∧ m < 10 ^ ctx.prec ∧ ctx.etiny ≤ f := by
  by_cases hne : x.coefficient = 0
  · have hzero : y = ⟨0, min (max x.exponent ctx.etiny) ctx.emax⟩ := by
      rw [Context.fix, if_pos hne] at h
      exact (Except.ok.inj h).symm
    refine ⟨0, ctx.etiny, ?_, Nat.pow_pos (by decide), le_rfl⟩
    rw [hzero, toRat_zero, abs_zero, Nat.cast_zero, zero_mul]
  · rcases fix_cases h hne with ⟨rfl, hdigits, htiny⟩ | ⟨E, hlong, hy, htiny, hE, -⟩
    · exact ⟨_, _, abs_toRat y, (lt_pow_digitCount _).trans_le
        (Nat.pow_le_pow_right (by decide) hdigits), htiny⟩
    · rw [hy, abs_toRat]
      by_cases hcarry : ctx.prec < digitCount (x.rescale .halfEven E).coefficient.natAbs
      · -- 99…9 was rounded up to 100…0
        have hprec := ctx.prec_pos
        refine ⟨1, ctx.prec + E, ?_, Nat.one_lt_pow hprec.ne' (by decide), by omega⟩
        rw [rescale_carry hlong hne hE hcarry, Nat.cast_one, one_mul, zpow_add₀ (by norm_num),
          zpow_natCast, Nat.cast_pow, Nat.cast_ofNat]
        rfl
      · exact ⟨_, _, rfl, (lt_pow_digitCount _).trans_le
          (Nat.pow_le_pow_right (by decide) (not_lt.1 hcarry)), htiny⟩

/-- Numbers from a power of ten on that are held are whole units of their last place. -/
theorem grid_of_held {q : ℚ} {m j : Nat} {f : Int} (hq : q = m * 10 ^ f)
    (hm : m < 10 ^ ctx.prec) (hlow : (10 : ℚ) ^ j ≤ q) :
    ∃ k : Nat, q = k * 10 ^ (j + 1 - ctx.prec : Int) := by
  have hf : (j + 1 - ctx.prec : Int) ≤ f := by
    have hlt : (10 : ℚ) ^ (j : Int) < 10 ^ (ctx.prec + f : Int) := by
      rw [zpow_natCast, zpow_add₀ (by norm_num)]
      refine (hlow.trans_eq hq).trans_lt (mul_lt_mul_of_pos_right ?_ (zpow_pos (by norm_num) f))
      rw [zpow_natCast]
      exact_mod_cast hm
    have := (zpow_lt_zpow_iff_right₀ (by norm_num : (1 : ℚ) < 10)).1 hlt
    omega
  refine ⟨m * 10 ^ (f - (j + 1 - ctx.prec)).toNat, ?_⟩
  rw [Nat.cast_mul, cast_pow_toNat (by omega), mul_assoc, ← zpow_add₀ (by norm_num),
    sub_add_cancel, hq]

/-! ### Halfway between two numbers -/

/-- An even integer and a half is rounded down. -/
theorem quotient_le_of_half {n d M : Nat} (hd : 0 < d) (heven : M % 2 = 0)
    (h : (n : ℚ) / d ≤ M + 1 / 2) : Rounding.halfEven.quotient n d ≤ M := by
  have hle : 2 * n ≤ (2 * M + 1) * d := by
    rw [div_le_iff₀ (Nat.cast_pos.2 hd)] at h
    have : (2 : ℚ) * n ≤ (2 * M + 1) * d := by linarith
    exact_mod_cast this
  have hn := Nat.div_add_mod n d
  have hexpand : (2 * M + 1) * d = 2 * (d * M) + d := by ring
  have hq : n / d ≤ M := by
    by_contra hlt
    have hmul := Nat.mul_le_mul_left d (not_le.1 hlt)
    rw [Nat.mul_succ] at hmul
    omega
  unfold Rounding.quotient
  rcases Nat.lt_or_ge (n / d) M with hlt | hge
  · grind
  · have heq : n / d = M := le_antisymm hq hge
    rw [heq] at hn ⊢
    simp only [heven, if_true]
    split
    · exact le_rfl
    · rw [if_neg (by omega)]

/-- What is beyond the half is rounded up. -/
theorem lt_quotient_of_half (mode : Rounding) {n d M : Nat} (hd : 0 < d)
    (h : (M : ℚ) + 1 / 2 < n / d) : M + 1 ≤ mode.quotient n d := by
  have hlt : (2 * M + 1) * d < 2 * n := by
    rw [lt_div_iff₀ (Nat.cast_pos.2 hd)] at h
    have : (2 * M + 1) * d < 2 * (n : ℚ) := by linarith
    exact_mod_cast this
  have hexpand : (2 * M + 1) * d = 2 * (d * M) + d := by ring
  have hn := Nat.div_add_mod n d
  have hmod := Nat.mod_lt n hd
  have hq : M ≤ n / d := by
    by_contra hlt'
    have hmul := Nat.mul_le_mul_left d (not_le.1 hlt')
    rw [Nat.mul_succ] at hmul
    omega
  unfold Rounding.quotient
  rcases Nat.eq_or_lt_of_le hq with heq | hlt'
  · rw [← heq] at hn ⊢
    rw [if_neg (by omega), if_pos (by omega)]
  · grind

section Half

variable {M : Nat} {E : Int}

/-- The least number of full length. -/
theorem full_le (hlow : 10 ^ (ctx.prec - 1) ≤ M) (E : Int) :
    (10 : ℚ) ^ (ctx.prec - 1 + E : Int) ≤ M * 10 ^ E := by
  have hprec := ctx.prec_pos
  rw [zpow_add₀ (by norm_num)]
  refine mul_le_mul_of_nonneg_right ?_ (zpow_nonneg (by norm_num) E)
  rw [show (ctx.prec - 1 : Int) = ((ctx.prec - 1 : Nat) : Int) by omega, zpow_natCast]
  exact_mod_cast hlow

/-- A value in units of a smaller exponent. -/
theorem toRat_of_le_exponent (hx0 : 0 ≤ x.toRat) (h : E ≤ x.exponent) :
    x.toRat = (x.coefficient.natAbs * 10 ^ (x.exponent - E).toNat : Nat) * 10 ^ E := by
  rw [Nat.cast_mul, cast_pow_toNat (by omega), mul_assoc, ← zpow_add₀ (by norm_num),
    sub_add_cancel, ← abs_toRat, abs_of_nonneg hx0]

/-- **A number of full length whose last digit is even takes what is up to half a unit above.** -/
theorem fix_le_of_half (h : ctx.fix x = .ok y) (hx0 : 0 ≤ x.toRat) (hlow : 10 ^ (ctx.prec - 1) ≤ M)
    (heven : M % 2 = 0) (hhigh : M < 10 ^ ctx.prec) (hE : ctx.etiny ≤ E)
    (hle : x.toRat ≤ (M + 1 / 2) * 10 ^ E) : y.toRat ≤ M * 10 ^ E := by
  have hprec := ctx.prec_pos
  have hten : (0 : ℚ) < 10 ^ E := zpow_pos (by norm_num) E
  have hM0 : (0 : ℚ) ≤ M * 10 ^ E := by positivity
  have hfull := full_le hlow E
  by_cases hne : x.coefficient = 0
  · have hzero : y = ⟨0, min (max x.exponent ctx.etiny) ctx.emax⟩ := by
      rw [Context.fix, if_pos hne] at h
      exact (Except.ok.inj h).symm
    rwa [hzero, toRat_zero]
  · rcases fix_cases h hne with ⟨rfl, hdigits, -⟩ | ⟨E', hlong, hy, -, hup, hE'⟩
    · rcases Int.lt_or_le y.exponent E with hlt | hge
      · rw [← abs_of_nonneg hx0]
        refine (abs_toRat_lt y).le.trans (le_trans ?_ hfull)
        exact zpow_le_zpow_right₀ (by norm_num) (by omega)
      · -- on the grid there is nothing between the number and its half
        have hvalue := toRat_of_le_exponent hx0 hge
        generalize y.coefficient.natAbs * 10 ^ (y.exponent - E).toNat = N at hvalue
        rw [hvalue] at hle ⊢
        have hlt : (N : ℚ) < M + 1 := by
          have := le_of_mul_le_mul_right hle hten
          linarith only [this]
        refine mul_le_mul_of_nonneg_right ?_ hten.le
        exact_mod_cast Nat.lt_succ_iff.1 (by exact_mod_cast hlt)
    · -- Rounded, to a unit that is finer, equal or coarser than that of the half.
      obtain ⟨hx, hvalue⟩ := rescale_eq_quotient hlong hne hx0
      have hd : 0 < 10 ^ (E' - x.exponent).toNat := Nat.pow_pos (by decide)
      rw [hy, hvalue]
      rcases Int.lt_trichotomy E' E with hlt | rfl | hgt
      · -- below the numbers of full length
        have hclose := (abs_le.1 (abs_quotient_sub_le .halfEven x.coefficient.natAbs hd)).2
        have hsmall : (x.coefficient.natAbs : ℚ) / (10 ^ (E' - x.exponent).toNat : Nat) <
            10 ^ (ctx.prec : Int) := by
          refine lt_of_mul_lt_mul_right ?_ (zpow_nonneg (by norm_num) E' : (0 : ℚ) ≤ 10 ^ E')
          rw [← hx, ← abs_of_nonneg hx0, ← zpow_add₀ (by norm_num)]
          exact (abs_toRat_lt x).trans_le (zpow_le_zpow_right₀ (by norm_num) hup)
        have hquotient : Rounding.halfEven.quotient x.coefficient.natAbs
            (10 ^ (E' - x.exponent).toNat) ≤ 10 ^ ctx.prec := by
          rw [zpow_natCast] at hsmall
          refine Nat.lt_succ_iff.1 ?_
          have : ((Rounding.halfEven.quotient x.coefficient.natAbs
              (10 ^ (E' - x.exponent).toNat) : Nat) : ℚ) < ((10 ^ ctx.prec + 1 : Nat) : ℚ) := by
            push_cast at hclose hsmall ⊢
            linarith only [hclose, hsmall]
          exact_mod_cast this
        calc ((Rounding.halfEven.quotient x.coefficient.natAbs
              (10 ^ (E' - x.exponent).toNat) : Nat) : ℚ) * 10 ^ E'
            ≤ 10 ^ (ctx.prec : Int) * 10 ^ E' := by
              refine mul_le_mul_of_nonneg_right ?_ (zpow_nonneg (by norm_num) E')
              rw [zpow_natCast]
              exact_mod_cast hquotient
          _ = 10 ^ (ctx.prec + E' : Int) := (zpow_add₀ (by norm_num) _ _).symm
          _ ≤ 10 ^ (ctx.prec - 1 + E : Int) := zpow_le_zpow_right₀ (by norm_num) (by omega)
          _ ≤ M * 10 ^ E := hfull
      · -- The same unit: the tie goes to the even neighbour.
        refine mul_le_mul_of_nonneg_right ?_ hten.le
        rw [hx] at hle
        exact_mod_cast quotient_le_of_half hd heven (le_of_mul_le_mul_right hle hten)
      · -- beyond them
        have hlast : digitCount x.coefficient.natAbs + x.exponent = ctx.prec + E' := by omega
        have hbig := pow_le_abs_toRat hne
        rw [abs_of_nonneg hx0] at hbig
        have hpow : (10 : ℚ) ^ (ctx.prec + E : Int) ≤ x.toRat :=
          le_trans (zpow_le_zpow_right₀ (by norm_num) (by omega)) hbig
        have hM1 : (M : ℚ) + 1 ≤ 10 ^ (ctx.prec : Int) := by
          rw [zpow_natCast]
          exact_mod_cast hhigh
        have hbeyond : ((M : ℚ) + 1) * 10 ^ E ≤ x.toRat := by
          refine le_trans (mul_le_mul_of_nonneg_right hM1 hten.le) ?_
          rwa [← zpow_add₀ (by norm_num)]
        linarith only [hle, hten, hbeyond]

/-- **What is beyond half a unit goes to the next number.** -/
theorem le_fix_of_half (h : ctx.fix x = .ok y) (hlow : 10 ^ (ctx.prec - 1) ≤ M)
    (hhigh : M < 10 ^ ctx.prec) (hE : ctx.etiny ≤ E) (hlt : (M + 1 / 2) * 10 ^ E < x.toRat) :
    (M + 1) * 10 ^ E ≤ y.toRat := by
  have hprec := ctx.prec_pos
  have hten : (0 : ℚ) < 10 ^ E := zpow_pos (by norm_num) E
  have hx0 : 0 ≤ x.toRat := le_trans (by positivity) hlt.le
  -- The half is positive, so the number above it is not zero.
  have hne : x.coefficient ≠ 0 := by
    intro hzero
    rw [toRat_eq_zero.2 hzero] at hlt
    exact absurd hlt (not_lt.2 (by positivity))
  have hfull := full_le hlow E
  rcases fix_cases h hne with ⟨rfl, hdigits, -⟩ | ⟨E', hlong, hy, -, hup, hE'⟩
  · rcases Int.lt_or_le y.exponent E with hlt' | hge
    · have hsmall := abs_toRat_lt y
      rw [abs_of_nonneg hx0] at hsmall
      have hpow : (10 : ℚ) ^ (digitCount y.coefficient.natAbs + y.exponent : Int) ≤
          10 ^ (ctx.prec - 1 + E : Int) := zpow_le_zpow_right₀ (by norm_num) (by omega)
      linarith only [hfull, hlt, hsmall, hpow]
    · -- On the grid a number above the half is a unit above the lower neighbour.
      have hvalue := toRat_of_le_exponent hx0 hge
      generalize y.coefficient.natAbs * 10 ^ (y.exponent - E).toNat = N at hvalue
      rw [hvalue] at hlt ⊢
      have hgt : (M : ℚ) < N := by
        have := lt_of_mul_lt_mul_right hlt hten.le
        linarith only [this]
      refine mul_le_mul_of_nonneg_right ?_ hten.le
      exact_mod_cast Nat.cast_lt.1 hgt
  · obtain ⟨hx, hvalue⟩ := rescale_eq_quotient hlong hne hx0
    have hd : 0 < 10 ^ (E' - x.exponent).toNat := Nat.pow_pos (by decide)
    rw [hy, hvalue]
    rcases Int.lt_trichotomy E' E with hlt' | rfl | hgt
    · -- Of a finer unit there are only numbers below the half.
      have hsmall := abs_toRat_lt x
      rw [abs_of_nonneg hx0] at hsmall
      have hpow : (10 : ℚ) ^ (digitCount x.coefficient.natAbs + x.exponent : Int) ≤
          10 ^ (ctx.prec - 1 + E : Int) := zpow_le_zpow_right₀ (by norm_num) (by omega)
      linarith only [hlt, hten, hfull, hsmall, hpow]
    · -- The same unit: above the half it is rounded up.
      refine mul_le_mul_of_nonneg_right ?_ hten.le
      rw [hx] at hlt
      exact_mod_cast lt_quotient_of_half .halfEven hd (lt_of_mul_lt_mul_right hlt hten.le)
    · -- Of a coarser unit there are only numbers beyond the upper neighbour.
      have hlast : digitCount x.coefficient.natAbs + x.exponent = ctx.prec + E' := by omega
      have hbig := pow_le_abs_toRat hne
      rw [abs_of_nonneg hx0, hx] at hbig
      have hquotient : 10 ^ (ctx.prec - 1) ≤ Rounding.halfEven.quotient x.coefficient.natAbs
          (10 ^ (E' - x.exponent).toNat) := by
        refine le_quotient .halfEven hd (le_of_mul_le_mul_right ?_
          (zpow_pos (by norm_num) E' : (0 : ℚ) < 10 ^ E'))
        refine le_trans (le_of_eq ?_) hbig
        rw [Nat.cast_pow, Nat.cast_ofNat, ← zpow_natCast, ← zpow_add₀ (by norm_num)]
        congr 1
        omega
      have hM1 : (M : ℚ) + 1 ≤ 10 ^ (ctx.prec : Int) := by
        rw [zpow_natCast]
        exact_mod_cast hhigh
      calc ((M : ℚ) + 1) * 10 ^ E ≤ 10 ^ (ctx.prec : Int) * 10 ^ E :=
            mul_le_mul_of_nonneg_right hM1 hten.le
        _ = 10 ^ (ctx.prec + E : Int) := (zpow_add₀ (by norm_num) _ _).symm
        _ ≤ 10 ^ ((ctx.prec - 1 : Nat) + E' : Int) :=
            zpow_le_zpow_right₀ (by norm_num) (by omega)
        _ = ((10 ^ (ctx.prec - 1) : Nat) : ℚ) * 10 ^ E' := by
            rw [zpow_add₀ (by norm_num), zpow_natCast, Nat.cast_pow, Nat.cast_ofNat]
        _ ≤ _ := mul_le_mul_of_nonneg_right (by exact_mod_cast hquotient)
            (zpow_nonneg (by norm_num) E')

end Half

/-- A roomy value is within the range. -/
theorem Context.Roomy.range {q : ℚ} (h : ctx.Roomy q) :
    q = 0 ∨ ((10 : ℚ) ^ ctx.emin ≤ |q| ∧ |q| < 10 ^ ctx.emax) := by
  rcases h with hzero | ⟨hmin, hmax⟩
  · exact .inl hzero
  · have hlow : (10 : ℚ) ^ ctx.emin ≤ 10 ^ (ctx.emin + 1) :=
      zpow_le_zpow_right₀ (by norm_num) (by omega)
    have hup : (10 : ℚ) ^ (ctx.emax - 1) ≤ 10 ^ ctx.emax :=
      zpow_le_zpow_right₀ (by norm_num) (by omega)
    exact .inr ⟨hlow.trans hmin, hmax.trans_le hup⟩

theorem ten_pow_neg_le (ctx : Context) : (10 : ℚ) ^ (-ctx.prec : Int) ≤ 1 / 10 := by
  have hle : (10 : ℚ) ^ (-ctx.prec : Int) ≤ 10 ^ (-1 : Int) := by
    have := ctx.prec_pos
    exact zpow_le_zpow_right₀ (by norm_num) (by omega)
  rw [zpow_neg_one] at hle
  linarith

/-- What is near a number with room around it is in range. -/
theorem Near.range {ε q r : ℚ} (hnear : Near ε q r) (hε : ε ≤ 1 / 10) (h : ctx.Roomy q) :
    r = 0 ∨ ((10 : ℚ) ^ ctx.emin ≤ |r| ∧ |r| < 10 ^ ctx.emax) := by
  have hdist : |r - q| ≤ 1 / 10 * |q| := hnear.mono hε
  rcases h with rfl | ⟨hmin, hmax⟩
  · rw [sub_zero, abs_zero, mul_zero] at hdist
    exact .inl (abs_nonpos_iff.1 hdist)
  · have hlow : (10 : ℚ) ^ (ctx.emin + 1) = 10 ^ ctx.emin * 10 := zpow_add_one₀ (by norm_num) _
    have hup : (10 : ℚ) ^ (ctx.emax - 1) = 10 ^ ctx.emax / 10 := zpow_sub_one₀ (by norm_num) _
    have hfrom := abs_sub_abs_le_abs_sub q r
    have hto := abs_sub_abs_le_abs_sub r q
    have hpos : (0 : ℚ) < 10 ^ ctx.emin := zpow_pos (by norm_num) _
    rw [abs_sub_comm] at hfrom
    rw [hlow] at hmin
    rw [hup] at hmax
    refine .inr ⟨?_, ?_⟩ <;> linarith only [hdist, hmin, hfrom, hto, hmax]

/-- A product is within half a unit of its last digit. -/
theorem mul_near (h : ctx.Roomy (x.toRat * y.toRat)) :
    ∃ z, ctx.mul x y = .ok z ∧ Near ctx.unit (x.toRat * y.toRat) z.toRat := by
  rw [← product_toRat] at h ⊢
  exact fix_near h.range

theorem add_near (h : ctx.Roomy (x.toRat + y.toRat)) :
    ∃ z, ctx.add x y = .ok z ∧ Near ctx.unit (x.toRat + y.toRat) z.toRat := by
  rw [← sum_toRat x y le_rfl] at h ⊢
  exact fix_near h.range

theorem sub_near (h : ctx.Roomy (x.toRat - y.toRat)) :
    ∃ z, ctx.sub x y = .ok z ∧ Near ctx.unit (x.toRat - y.toRat) z.toRat := by
  rw [sub_eq_add_neg, ← neg_toRat] at h ⊢
  exact add_near h

/-- The quotient that is rounded, with its last digit changed to tell of a remainder. -/
theorem near_of_quotient {s : Int} {Q : Nat} (hn : x.coefficient ≠ 0) (hd : y.coefficient ≠ 0)
    (hQ : |(Q : ℚ) - x.coefficient.natAbs / y.coefficient.natAbs * 10 ^ s| ≤ 1)
    (hlow : (10 : ℚ) ^ ctx.prec ≤ x.coefficient.natAbs / y.coefficient.natAbs * 10 ^ s) :
    Near (10 ^ (-ctx.prec : Int)) (x.toRat / y.toRat)
      (DecimalNumber.mk (x.coefficient.sign * y.coefficient.sign * Q)
        (x.exponent - y.exponent - s)).toRat := by
  have hscale : ((x.coefficient.natAbs : ℚ) / y.coefficient.natAbs) *
      10 ^ (x.exponent - y.exponent) = x.coefficient.natAbs / y.coefficient.natAbs * 10 ^ s *
        10 ^ (x.exponent - y.exponent - s) := by
    rw [mul_assoc, ← zpow_add₀ (by norm_num)]
    congr 2
    omega
  have hsign : |((x.coefficient.sign * y.coefficient.sign : Int) : ℚ)| = 1 := by
    rw [Int.cast_mul, abs_mul, abs_sign hn, abs_sign hd, one_mul]
  have hpow : (0 : ℚ) < 10 ^ (x.exponent - y.exponent - s) := zpow_pos (by norm_num) _
  have hvalue : x.toRat / y.toRat = (x.coefficient.sign * y.coefficient.sign : Int) *
      (x.coefficient.natAbs / y.coefficient.natAbs * 10 ^ s *
        10 ^ (x.exponent - y.exponent - s)) := by
    rw [div_toRat, mul_assoc ((x.coefficient.sign * y.coefficient.sign : Int) : ℚ), hscale]
  rw [Near, abs_div_toRat, hvalue, hscale]
  generalize (x.coefficient.natAbs : ℚ) / y.coefficient.natAbs * 10 ^ s = t at *
  -- So the difference is that of the integer quotient, in units of the last digit.
  have hdiff : (DecimalNumber.mk (x.coefficient.sign * y.coefficient.sign * Q)
      (x.exponent - y.exponent - s)).toRat - ((x.coefficient.sign * y.coefficient.sign : Int) : ℚ) *
        (t * 10 ^ (x.exponent - y.exponent - s)) =
      ((x.coefficient.sign * y.coefficient.sign : Int) : ℚ) * ((Q - t) *
        10 ^ (x.exponent - y.exponent - s)) := by
    rw [DecimalNumber.toRat, Int.cast_mul, Int.cast_natCast]
    ring
  rw [hdiff, abs_mul, hsign, one_mul, abs_mul, abs_of_pos hpow, ← mul_assoc]
  refine mul_le_mul_of_nonneg_right (hQ.trans ?_) hpow.le
  -- And the quotient has more digits than the precision.
  calc (1 : ℚ) = 10 ^ (-ctx.prec : Int) * 10 ^ ctx.prec := by
        rw [zpow_neg, zpow_natCast, inv_mul_cancel₀ (by positivity)]
    _ ≤ 10 ^ (-ctx.prec : Int) * t :=
        mul_le_mul_of_nonneg_left hlow (zpow_nonneg (by norm_num) _)

theorem fits_zero (ctx : Context) : ctx.Fits 0 := by
  refine ⟨0, ctx.etiny, ?_, Nat.pow_pos (by decide), le_rfl, ?_⟩
  · rw [abs_zero, Nat.cast_zero, zero_mul]
  · rw [abs_zero]
    exact zpow_pos (by norm_num) _

theorem fix_nonneg (h : ctx.fix x = .ok y) (hx : 0 ≤ x.toRat) : 0 ≤ y.toRat :=
  le_fix h (fits_zero ctx) le_rfl hx

/-- A division rounds a number that has lost a unit of the digit after the last. -/
theorem div_fix (hy : y.toRat ≠ 0) :
    ∃ w, ctx.div x y = ctx.fix w ∧ Near (10 ^ (-ctx.prec : Int)) (x.toRat / y.toRat) w.toRat := by
  have hd : y.coefficient ≠ 0 := fun hzero => hy (toRat_eq_zero.2 hzero)
  have hpos : (0 : ℚ) ≤ 10 ^ (-ctx.prec : Int) := zpow_nonneg (by norm_num) _
  unfold Context.div
  rw [if_neg hd]
  split
  · next hzero =>
    refine ⟨_, rfl, ?_⟩
    rw [toRat_eq_zero.2 hzero, zero_div, toRat_zero]
    exact .refl hpos 0
  · next hn =>
    have hn' := Int.natAbs_ne_zero.2 hn
    have hd' := Int.natAbs_ne_zero.2 hd
    have hlow := pow_prec_le_scaled ctx hn' hd'
    dsimp only
    generalize hs : (digitCount y.coefficient.natAbs - digitCount x.coefficient.natAbs +
      ctx.prec + 1 : Int) = s at hlow ⊢
    have hscaled := scaled_quotient x.coefficient.natAbs hd' s
    generalize x.coefficient.natAbs * 10 ^ s.toNat = num at hscaled ⊢
    have hden : 0 < y.coefficient.natAbs * 10 ^ (-s).toNat :=
      Nat.mul_pos (Nat.pos_iff_ne_zero.2 hd') (Nat.pow_pos (by decide))
    generalize y.coefficient.natAbs * 10 ^ (-s).toNat = den at hscaled hden ⊢
    have hden' : (0 : ℚ) < den := Nat.cast_pos.2 hden
    split
    · -- With a remainder: the integer quotient is off by one unit at most.
      refine ⟨_, rfl, near_of_quotient hn hd ?_ hlow⟩
      rw [← hscaled]
      have hfloor : ((num / den : Nat) : ℚ) ≤ num / den := Nat.cast_div_le
      have hceil : (num : ℚ) / den ≤ (num / den : Nat) + 1 := by
        rw [div_le_iff₀ hden']
        rw [mul_comm]
        exact_mod_cast (Nat.lt_mul_div_succ num hden).le
      rw [abs_le]
      -- A last digit of 0 or 5 is moved up, so that no tie is made up.
      split
      · push_cast
        constructor <;> linarith only [hceil, hfloor]
      · constructor <;> linarith only [hceil, hfloor]
    · -- Without one: stripping the zeros changes no value.
      next hexact =>
      have hstrip := stripZeros_eq s.toNat (num / den)
      generalize Context.stripZeros s.toNat (num / den) = stripped at hstrip
      obtain ⟨q, dropped⟩ := stripped
      refine ⟨_, rfl, ?_⟩
      rw [@quotient_toRat x y q dropped s (by
        have hN : (num : ℚ) / den = (num / den : Nat) := by
          rw [Nat.cast_div (Nat.dvd_of_mod_eq_zero (not_not.1 hexact)) hden'.ne']
        rw [← hscaled, hN, hstrip]
        push_cast
        ring)]
      exact .refl hpos _

/-- **Division.** -/
theorem div_near (hy : y.toRat ≠ 0) (h : ctx.Roomy (x.toRat / y.toRat)) :
    ∃ z, ctx.div x y = .ok z ∧ Near (7 * 10 ^ (-ctx.prec : Int)) (x.toRat / y.toRat) z.toRat := by
  obtain ⟨w, hw, hnear⟩ := @div_fix ctx x y hy
  obtain ⟨z, hz, hrounded⟩ := fix_near (hnear.range (ten_pow_neg_le ctx) h)
  refine ⟨z, hw.trans hz, (hnear.trans hrounded ctx.unit_pos.le).mono ?_⟩
  have hsmall := ten_pow_neg_le ctx
  have hpos : (0 : ℚ) < 10 ^ (-ctx.prec : Int) := zpow_pos (by norm_num) _
  rw [Context.unit]
  nlinarith

/-- **Nor does a division**: the digit that tells of a remainder is beyond the context's. -/
theorem le_div {t : ℚ} {z : DecimalNumber} (h : ctx.div x y = .ok z) (hx0 : 0 ≤ x.toRat)
    (hy0 : 0 < y.toRat) (ht : ctx.Fits t) (ht0 : 0 ≤ t) (hle : t ≤ x.toRat / y.toRat) :
    t ≤ z.toRat := by
  have hd : y.coefficient ≠ 0 := fun hzero => hy0.ne' (toRat_eq_zero.2 hzero)
  unfold Context.div at h
  rw [if_neg hd] at h
  split at h
  · next hzero =>
    refine le_fix h ht ht0 ?_
    rwa [toRat_zero, ← zero_div y.toRat, ← toRat_eq_zero.2 hzero]
  · next hn =>
    have hn' := Int.natAbs_ne_zero.2 hn
    have hd' := Int.natAbs_ne_zero.2 hd
    have hlow := pow_prec_le_scaled ctx hn' hd'
    dsimp only at h
    generalize hs : (digitCount y.coefficient.natAbs - digitCount x.coefficient.natAbs +
      ctx.prec + 1 : Int) = s at hlow h
    have hscaled := scaled_quotient x.coefficient.natAbs hd' s
    generalize x.coefficient.natAbs * 10 ^ s.toNat = num at hscaled h
    have hden : 0 < y.coefficient.natAbs * 10 ^ (-s).toNat :=
      Nat.mul_pos (Nat.pos_iff_ne_zero.2 hd') (Nat.pow_pos (by decide))
    generalize y.coefficient.natAbs * 10 ^ (-s).toNat = den at hscaled hden h
    have hden' : (0 : ℚ) < den := Nat.cast_pos.2 hden
    split at h
    · -- With a remainder: the grid number is below the integer quotient too.
      have hsignx : x.coefficient.sign = 1 :=
        Int.sign_eq_one_of_pos (lt_of_le_of_ne (coefficient_nonneg hx0) (Ne.symm hn))
      have hsigny : y.coefficient.sign = 1 :=
        Int.sign_eq_one_of_pos (lt_of_le_of_ne (coefficient_nonneg hy0.le) (Ne.symm hd))
      generalize hE : x.exponent - y.exponent - s = E at h
      have hvalue : x.toRat / y.toRat = num / den * 10 ^ E := by
        rw [div_toRat, hsignx, hsigny, hscaled, ← hE, zpow_sub₀ (by norm_num : (10 : ℚ) ≠ 0) _ s]
        field_simp
        norm_num
      obtain ⟨m, f, hm, hdigits, -, -⟩ := id ht
      rw [abs_of_nonneg ht0] at hm
      have hfull : (10 : ℚ) ^ (ctx.prec - 1 : Int) ≤ num / den := by
        rw [hscaled]
        refine le_trans ?_ hlow
        rw [← zpow_natCast]
        exact zpow_le_zpow_right₀ (by norm_num) (by omega)
      obtain ⟨k, htk, hk⟩ := exists_grid hdigits (by rw [← hm, ← hvalue]; exact hle) (.inr hfull)
      have hfloor : k ≤ num / den := by
        rw [le_div_iff₀ hden'] at hk
        exact (Nat.le_div_iff_mul_le hden).2 (by exact_mod_cast hk)
      -- Moving the last digit up keeps it there.
      have hQ : k ≤ if num / den % 5 = 0 then num / den + 1 else num / den := by
        split <;> omega
      refine le_fix h ht ht0 ?_
      rw [DecimalNumber.toRat, hsignx, hsigny, Int.one_mul, Int.one_mul, Int.cast_natCast, hm]
      refine htk.trans (mul_le_mul_of_nonneg_right ?_ (zpow_nonneg (by norm_num) E))
      exact_mod_cast hQ
    · -- Without one the quotient is exact, and only rounding is left.
      next hexact =>
      have hstrip := stripZeros_eq s.toNat (num / den)
      generalize Context.stripZeros s.toNat (num / den) = stripped at hstrip h
      obtain ⟨q, dropped⟩ := stripped
      have hresult := @quotient_toRat x y q dropped s (by
        have hN : (num : ℚ) / den = (num / den : Nat) := by
          rw [Nat.cast_div (Nat.dvd_of_mod_eq_zero (not_not.1 hexact)) hden'.ne']
        rw [← hscaled, hN, hstrip]
        push_cast
        ring)
      exact le_fix h ht ht0 (hresult ▸ hle)

theorem fits_one (hmin : ctx.emin ≤ 0) (hmax : 0 ≤ ctx.emax) : ctx.Fits 1 := by
  have hprec := ctx.prec_pos
  refine ⟨1, 0, by simp, Nat.one_lt_pow hprec.ne' (by decide), by rw [Context.etiny]; omega, ?_⟩
  rw [abs_one]
  exact one_lt_zpow₀ (by norm_num) (by omega)

/-- A sum is not rounded below a value that fits. -/
theorem le_add_of_fits {t : ℚ} {z : DecimalNumber} (h : ctx.add x y = .ok z) (ht : ctx.Fits t)
    (ht0 : 0 ≤ t) (hle : t ≤ x.toRat + y.toRat) : t ≤ z.toRat := by
  rw [← sum_toRat x y le_rfl] at hle
  exact le_fix h ht ht0 hle

theorem div_nonneg_of_ok {z : DecimalNumber} (h : ctx.div x y = .ok z) (hx0 : 0 ≤ x.toRat)
    (hy0 : 0 < y.toRat) : 0 ≤ z.toRat :=
  le_div h hx0 hy0 (fits_zero ctx) le_rfl (div_nonneg hx0 hy0.le)

/-- The digit that tells of a remainder keeps a quotient on its side of every half. -/
theorem div_half {t : ℚ} {j : Nat} {F : Int} (hx0 : 0 ≤ x.toRat) (hy0 : 0 < y.toRat)
    (hj : 5 * j < 10 ^ (ctx.prec + 1)) (ht : t = (5 * j : Nat) * 10 ^ F) :
    ∃ w, ctx.div x y = ctx.fix w ∧ 0 ≤ w.toRat ∧ (w.toRat ≤ t ↔ x.toRat / y.toRat ≤ t) := by
  have hd : y.coefficient ≠ 0 := fun hzero => hy0.ne' (toRat_eq_zero.2 hzero)
  unfold Context.div
  rw [if_neg hd]
  split
  · next hzero =>
    refine ⟨_, rfl, (toRat_zero _).ge, ?_⟩
    rw [toRat_zero, toRat_eq_zero.2 hzero, zero_div]
  · next hn =>
    have hn' := Int.natAbs_ne_zero.2 hn
    have hd' := Int.natAbs_ne_zero.2 hd
    have hlow := pow_prec_le_scaled ctx hn' hd'
    dsimp only
    generalize hs : (digitCount y.coefficient.natAbs - digitCount x.coefficient.natAbs +
      ctx.prec + 1 : Int) = s at hlow ⊢
    have hscaled := scaled_quotient x.coefficient.natAbs hd' s
    generalize x.coefficient.natAbs * 10 ^ s.toNat = num at hscaled ⊢
    have hden : 0 < y.coefficient.natAbs * 10 ^ (-s).toNat :=
      Nat.mul_pos (Nat.pos_iff_ne_zero.2 hd') (Nat.pow_pos (by decide))
    generalize y.coefficient.natAbs * 10 ^ (-s).toNat = den at hscaled hden ⊢
    have hden' : (0 : ℚ) < den := Nat.cast_pos.2 hden
    split
    · next hrest =>
      have hsignx : x.coefficient.sign = 1 :=
        Int.sign_eq_one_of_pos (lt_of_le_of_ne (coefficient_nonneg hx0) (Ne.symm hn))
      have hsigny : y.coefficient.sign = 1 :=
        Int.sign_eq_one_of_pos (lt_of_le_of_ne (coefficient_nonneg hy0.le) (Ne.symm hd))
      generalize hE : x.exponent - y.exponent - s = E
      have hten : (0 : ℚ) < 10 ^ E := zpow_pos (by norm_num) E
      have hvalue : x.toRat / y.toRat = num / den * 10 ^ E := by
        rw [div_toRat, hsignx, hsigny, hscaled, ← hE, zpow_sub₀ (by norm_num : (10 : ℚ) ≠ 0) _ s]
        field_simp
        norm_num
      refine ⟨_, rfl, ?_, ?_⟩
      · rw [DecimalNumber.toRat, hsignx, hsigny, Int.one_mul, Int.one_mul, Int.cast_natCast]
        positivity
      · rw [DecimalNumber.toRat, hsignx, hsigny, Int.one_mul, Int.one_mul, Int.cast_natCast, hvalue,
          ht]
        rcases Int.lt_or_le F E with hlt | hge
        · -- the quotient has a digit more than the half
          have hfloor : 10 ^ ctx.prec ≤ num / den := by
            rw [← hscaled, le_div_iff₀ hden'] at hlow
            exact (Nat.le_div_iff_mul_le hden).2 (by exact_mod_cast hlow)
          have hbelow : ((5 * j : Nat) : ℚ) * 10 ^ F < ((10 ^ ctx.prec : Nat) : ℚ) * 10 ^ E := by
            calc ((5 * j : Nat) : ℚ) * 10 ^ F < 10 ^ (ctx.prec + 1 : Int) * 10 ^ F := by
                  refine mul_lt_mul_of_pos_right ?_ (zpow_pos (by norm_num) F)
                  exact_mod_cast hj
              _ = 10 ^ (ctx.prec + 1 + F : Int) := (zpow_add₀ (by norm_num) _ _).symm
              _ ≤ 10 ^ (ctx.prec + E : Int) := zpow_le_zpow_right₀ (by norm_num) (by omega)
              _ = ((10 ^ ctx.prec : Nat) : ℚ) * 10 ^ E := by
                rw [zpow_add₀ (by norm_num), zpow_natCast, Nat.cast_pow, Nat.cast_ofNat]
          have hQ : 10 ^ ctx.prec ≤ if num / den % 5 = 0 then num / den + 1 else num / den := by
            split <;> omega
          have hQ' : ((10 ^ ctx.prec : Nat) : ℚ) ≤
              (if num / den % 5 = 0 then num / den + 1 else num / den : Nat) := by exact_mod_cast hQ
          have hquotient : ((10 ^ ctx.prec : Nat) : ℚ) ≤ num / den := by
            rw [hscaled]
            exact_mod_cast hlow
          refine iff_of_false (not_le.2 (hbelow.trans_le ?_)) (not_le.2 (hbelow.trans_le ?_))
          · exact mul_le_mul_of_nonneg_right hQ' hten.le
          · exact mul_le_mul_of_nonneg_right hquotient hten.le
        · -- the half is a multiple of five of its last units
          have hunits : ((5 * j : Nat) : ℚ) * 10 ^ F =
              (5 * (j * 10 ^ (F - E).toNat) : Nat) * 10 ^ E := by
            rw [← Nat.mul_assoc, Nat.cast_mul (5 * j), cast_pow_toNat (by omega), mul_assoc,
              ← zpow_add₀ (by norm_num), sub_add_cancel]
          rw [hunits]
          generalize j * 10 ^ (F - E).toNat = T
          rw [mul_le_mul_iff_left₀ hten, mul_le_mul_iff_left₀ hten, div_le_iff₀ hden', Nat.cast_le,
            ← Nat.cast_mul, Nat.cast_le]
          have hdivmod := Nat.div_add_mod num den
          have hmod := Nat.mod_lt num hden
          -- A quotient with a remainder never meets a multiple of five.
          have hcompare : num ≤ 5 * T * den ↔ num / den < 5 * T := by
            constructor
            · intro hle
              have hdiv : num / den ≤ 5 * T := Nat.div_le_of_le_mul (by rwa [Nat.mul_comm])
              refine lt_of_le_of_ne hdiv fun heq => hrest ?_
              rw [heq, Nat.mul_comm] at hdivmod
              omega
            · intro hlt
              exact ((Nat.div_lt_iff_lt_mul hden).1 hlt).le
          rw [hcompare]
          split <;> omega
    · next hexact =>
      have hstrip := stripZeros_eq s.toNat (num / den)
      generalize Context.stripZeros s.toNat (num / den) = stripped at hstrip
      obtain ⟨q, dropped⟩ := stripped
      have hresult := @quotient_toRat x y q dropped s (by
        have hN : (num : ℚ) / den = (num / den : Nat) := by
          rw [Nat.cast_div (Nat.dvd_of_mod_eq_zero (not_not.1 hexact)) hden'.ne']
        rw [← hscaled, hN, hstrip]
        push_cast
        ring)
      refine ⟨_, rfl, ?_, by rw [hresult]⟩
      rw [hresult]
      positivity

section OperationHalf

variable {z : DecimalNumber} {M : Nat} {E : Int}

/-- A sum up to a tie is rounded down. -/
theorem add_le_of_half (h : ctx.add x y = .ok z) (h0 : 0 ≤ x.toRat + y.toRat)
    (hlow : 10 ^ (ctx.prec - 1) ≤ M) (heven : M % 2 = 0) (hhigh : M < 10 ^ ctx.prec)
    (hE : ctx.etiny ≤ E) (hle : x.toRat + y.toRat ≤ (M + 1 / 2) * 10 ^ E) :
    z.toRat ≤ M * 10 ^ E := by
  rw [← sum_toRat x y le_rfl] at h0 hle
  exact fix_le_of_half h h0 hlow heven hhigh hE hle

/-- Above the tie it is rounded up. -/
theorem le_add_of_half (h : ctx.add x y = .ok z) (hlow : 10 ^ (ctx.prec - 1) ≤ M)
    (hhigh : M < 10 ^ ctx.prec) (hE : ctx.etiny ≤ E)
    (hlt : (M + 1 / 2) * 10 ^ E < x.toRat + y.toRat) : (M + 1) * 10 ^ E ≤ z.toRat := by
  rw [← sum_toRat x y le_rfl] at hlt
  exact le_fix_of_half h hlow hhigh hE hlt

/-- A tie, in units of the digit after the last. -/
theorem half_eq (M : Nat) (E : Int) :
    ((M : ℚ) + 1 / 2) * 10 ^ E = (5 * (2 * M + 1) : Nat) * 10 ^ (E - 1) := by
  rw [zpow_sub_one₀ (by norm_num)]
  push_cast
  ring

theorem half_lt (hhigh : M < 10 ^ ctx.prec) : 5 * (2 * M + 1) < 10 ^ (ctx.prec + 1) := by
  rw [pow_succ]
  omega

/-- A quotient up to a tie is rounded down. -/
theorem div_le_of_half (h : ctx.div x y = .ok z) (hx0 : 0 ≤ x.toRat) (hy0 : 0 < y.toRat)
    (hlow : 10 ^ (ctx.prec - 1) ≤ M) (heven : M % 2 = 0) (hhigh : M < 10 ^ ctx.prec)
    (hE : ctx.etiny ≤ E) (hle : x.toRat / y.toRat ≤ (M + 1 / 2) * 10 ^ E) :
    z.toRat ≤ M * 10 ^ E := by
  obtain ⟨w, hw, hw0, hiff⟩ := div_half hx0 hy0 (half_lt hhigh) (half_eq M E)
  rw [hw] at h
  exact fix_le_of_half h hw0 hlow heven hhigh hE (hiff.2 hle)

/-- Above the tie it is rounded up. -/
theorem le_div_of_half (h : ctx.div x y = .ok z) (hx0 : 0 ≤ x.toRat) (hy0 : 0 < y.toRat)
    (hlow : 10 ^ (ctx.prec - 1) ≤ M) (hhigh : M < 10 ^ ctx.prec) (hE : ctx.etiny ≤ E)
    (hlt : (M + 1 / 2) * 10 ^ E < x.toRat / y.toRat) : (M + 1) * 10 ^ E ≤ z.toRat := by
  obtain ⟨w, hw, -, hiff⟩ := div_half hx0 hy0 (half_lt hhigh) (half_eq M E)
  rw [hw] at h
  exact le_fix_of_half h hlow hhigh hE (not_le.1 (mt hiff.1 (not_le.2 hlt)))

end OperationHalf

/-! ### Powers -/

/-- `r` is `b ^ n` after `k` roundings. -/
structure PowBound (ε b : ℚ) (k n : Nat) (r : ℚ) : Prop where
  lower : (1 - ε) ^ k * b ^ n ≤ r
  upper : r ≤ (1 + ε) ^ k * b ^ n

section Power

variable {ε b q r : ℚ} {j k m n : Nat}

theorem PowBound.pos (h : PowBound ε b k n r) (hε : ε < 1) (hb : 0 < b) : 0 < r := by
  have hpos : 0 < 1 - ε := by linarith
  exact (by positivity : 0 < (1 - ε) ^ k * b ^ n).trans_le h.lower

theorem PowBound.mul (hq : PowBound ε b j m q) (hr : PowBound ε b k n r) (hε0 : 0 ≤ ε)
    (hε : ε < 1) (hb : 0 < b) : PowBound ε b (j + k) (m + n) (q * r) := by
  have hpos : 0 < 1 - ε := by linarith
  have hq0 := hq.pos hε hb
  have hr0 := hr.pos hε hb
  constructor
  · calc (1 - ε) ^ (j + k) * b ^ (m + n) = (1 - ε) ^ j * b ^ m * ((1 - ε) ^ k * b ^ n) := by ring
      _ ≤ q * r := mul_le_mul hq.lower hr.lower (by positivity) hq0.le
  · calc q * r ≤ (1 + ε) ^ j * b ^ m * ((1 + ε) ^ k * b ^ n) :=
        mul_le_mul hq.upper hr.upper hr0.le (by positivity)
      _ = (1 + ε) ^ (j + k) * b ^ (m + n) := by ring

/-- One rounding more. -/
theorem PowBound.near (h : PowBound ε b k n q) (hnear : Near ε q r) (hε0 : 0 ≤ ε) (hε : ε < 1)
    (hb : 0 < b) : PowBound ε b (k + 1) n r := by
  have hq := (h.pos hε hb).le
  constructor
  · calc (1 - ε) ^ (k + 1) * b ^ n = (1 - ε) * ((1 - ε) ^ k * b ^ n) := by ring
      _ ≤ (1 - ε) * q := mul_le_mul_of_nonneg_left h.lower (by linarith only [hε])
      _ ≤ r := hnear.ge hq
  · calc r ≤ (1 + ε) * q := hnear.le hq
      _ ≤ (1 + ε) * ((1 + ε) ^ k * b ^ n) :=
        mul_le_mul_of_nonneg_left h.upper (by linarith only [hε0])
      _ = (1 + ε) ^ (k + 1) * b ^ n := by ring

/-- The roundings, in one. -/
theorem PowBound.ge (h : PowBound ε b k n r) (hε : ε ≤ 1) (hb : 0 ≤ b) :
    (1 - k * ε) * b ^ n ≤ r := by
  have hbernoulli : 1 + k * -ε ≤ (1 + -ε) ^ k := one_add_mul_le_pow (by linarith) k
  refine le_trans (mul_le_mul_of_nonneg_right ?_ (pow_nonneg hb n)) h.lower
  rw [sub_eq_add_neg 1 ε]
  linarith

/-- Roundings up are undone by roundings down. -/
theorem PowBound.le (h : PowBound ε b k n r) (hε0 : 0 ≤ ε) (hε : ε < 1) (hb : 0 < b) :
    (1 - k * ε) * r ≤ b ^ n := by
  have hbernoulli : 1 + k * -ε ≤ (1 + -ε) ^ k := one_add_mul_le_pow (by linarith) k
  have hpow : (1 - ε) ^ k * (1 + ε) ^ k ≤ 1 := by
    rw [← mul_pow]
    exact pow_le_one₀ (by nlinarith) (by nlinarith)
  calc (1 - k * ε) * r ≤ (1 - ε) ^ k * r := by
        refine mul_le_mul_of_nonneg_right ?_ (h.pos hε hb).le
        rw [sub_eq_add_neg 1 ε]
        linarith only [hbernoulli]
    _ ≤ (1 - ε) ^ k * ((1 + ε) ^ k * b ^ n) :=
        mul_le_mul_of_nonneg_left h.upper (pow_nonneg (by linarith only [hε]) k)
    _ = (1 - ε) ^ k * (1 + ε) ^ k * b ^ n := by ring
    _ ≤ 1 * b ^ n := mul_le_mul_of_nonneg_right hpow (by positivity)
    _ = b ^ n := one_mul _

/-- A power of a number between one and two keeps away from the ends of the range. -/
theorem PowBound.roomy (h : PowBound ε b k n q) (hε0 : 0 ≤ ε) (hε : ε ≤ 1 / 10) (hb1 : 1 ≤ b)
    (hb2 : b ≤ 2) (hmin : (k : Int) ≤ -ctx.emin - 1) (hmax : (k + n : Int) < ctx.emax - 1) :
    ctx.Roomy q := by
  have hq := h.pos (by linarith only [hε]) (by linarith only [hb1])
  refine .inr ⟨?_, ?_⟩
  · rw [abs_of_pos hq]
    -- From below: every step loses a tenth at most.
    calc (10 : ℚ) ^ (ctx.emin + 1) ≤ 10 ^ (-k : Int) :=
          zpow_le_zpow_right₀ (by norm_num) (by omega)
      _ = (1 / 10) ^ k * 1 ^ n := by
        rw [zpow_neg, zpow_natCast, one_pow, mul_one, one_div, inv_pow]
      _ ≤ (1 - ε) ^ k * b ^ n :=
        mul_le_mul (pow_le_pow_left₀ (by norm_num) (by linarith only [hε]) k)
          (pow_le_pow_left₀ (by norm_num) hb1 n) (by positivity)
          (pow_nonneg (by linarith only [hε]) k)
      _ ≤ q := h.lower
  · rw [abs_of_pos hq]
    -- From above: every step doubles at most, and the base is at most two.
    calc q ≤ (1 + ε) ^ k * b ^ n := h.upper
      _ ≤ 2 ^ k * 2 ^ n := by
        gcongr
        linarith only [hε]
      _ = 2 ^ (k + n) := (pow_add 2 k n).symm
      _ ≤ 10 ^ (k + n) := by
        gcongr
        norm_num
      _ = 10 ^ ((k + n : Nat) : Int) := (zpow_natCast 10 (k + n)).symm
      _ < 10 ^ (ctx.emax - 1) := zpow_lt_zpow_right₀ (by norm_num) (by push_cast; omega)

end Power

/-- Squaring from the highest bit on: a rounding for each unit of the exponent but one. -/
theorem powLoop_near (hε : ctx.unit ≤ 1 / 10) (hx1 : 1 ≤ x.toRat) (hx2 : x.toRat ≤ 2) :
    ∀ {fuel n : Nat}, 1 ≤ n → n ≤ fuel + 1 → (2 * n : Int) ≤ -ctx.emin → (2 * n : Int) < ctx.emax →
      ∃ r, ctx.powLoop x fuel n = .ok r ∧ PowBound ctx.unit x.toRat (n - 1) n r.toRat := by
  have hε0 := ctx.unit_pos.le
  have hε1 : ctx.unit < 1 := by linarith
  have hx0 : 0 < x.toRat := by linarith
  have hbase : PowBound ctx.unit x.toRat 0 1 x.toRat := ⟨by simp, by simp⟩
  intro fuel
  induction fuel with
  | zero =>
    intro n h1 hfuel _ _
    obtain rfl : n = 1 := by omega
    exact ⟨x, rfl, hbase⟩
  | succ fuel ih =>
    intro n h1 hfuel hmin hmax
    unfold Context.powLoop
    split
    · next hle =>
      obtain rfl : n = 1 := by omega
      exact ⟨x, rfl, hbase⟩
    · next hmore =>
      -- The square root of the power, by half the exponent.
      obtain ⟨root, hroot, hrootBound⟩ := @ih (n / 2) (by omega) (by omega) (by omega) (by omega)
      have hsquareBound := hrootBound.mul hrootBound hε0 hε1 hx0
      obtain ⟨square, hsquare, hnear⟩ := @mul_near ctx root root
        (hsquareBound.roomy hε0 hε hx1 hx2 (by omega) (by omega))
      have hsquareBound := hsquareBound.near hnear hε0 hε1 hx0
      rw [hroot]
      show ∃ r, (ctx.mul root root >>= fun square =>
        if n % 2 = 1 then ctx.mul square x else .ok square) = .ok r ∧ _
      rw [hsquare]
      show ∃ r, (if n % 2 = 1 then ctx.mul square x else .ok square) = .ok r ∧ _
      -- An odd exponent takes one multiplication more.
      split
      · next hodd =>
        have hproductBound := hsquareBound.mul hbase hε0 hε1 hx0
        obtain ⟨product, hproduct, hnear⟩ := @mul_near ctx square x
          (hproductBound.roomy hε0 hε hx1 hx2 (by omega) (by omega))
        refine ⟨product, hproduct, ?_⟩
        have hbound := hproductBound.near hnear hε0 hε1 hx0
        -- The errors of both halves add up to one fewer than the exponent.
        rw [show n / 2 - 1 + (n / 2 - 1) + 1 + 0 + 1 = n - 1 by omega,
          show n / 2 + n / 2 + 1 = n by omega] at hbound
        exact hbound
      · next heven =>
        refine ⟨square, rfl, ?_⟩
        rw [show n / 2 - 1 + (n / 2 - 1) + 1 = n - 1 by omega,
          show n / 2 + n / 2 = n by omega] at hsquareBound
        exact hsquareBound

/-- One is its own power. -/
theorem powLoop_one (hone : ctx.Fits 1) (hx : x.toRat = 1) :
    ∀ {fuel n : Nat} {r : DecimalNumber}, ctx.powLoop x fuel n = .ok r → r.toRat = 1 := by
  have hmul : ∀ {a b c : DecimalNumber}, a.toRat = 1 → b.toRat = 1 → ctx.mul a b = .ok c →
      c.toRat = 1 := by
    intro a b c ha hb hc
    have hproduct : a.toRat * b.toRat = 1 := by rw [ha, hb, one_mul]
    obtain ⟨z, hz, hvalue⟩ := @mul_exact ctx a b (hproduct ▸ hone)
    rw [← Except.ok.inj (hz.symm.trans hc), hvalue, hproduct]
  intro fuel
  induction fuel with
  | zero =>
    intro n r h
    rwa [← Except.ok.inj h]
  | succ fuel ih =>
    intro n r h
    unfold Context.powLoop at h
    split at h
    · rwa [← Except.ok.inj h]
    · obtain ⟨root, hroot, h⟩ := Core.bind_eq_ok h
      obtain ⟨square, hsquare, h⟩ := Core.bind_eq_ok h
      have hone := hmul (ih hroot) (ih hroot) hsquare
      split at h
      · exact hmul hone hx h
      · rwa [← Except.ok.inj h]

theorem pow_one_toRat {n : Nat} (hmin : ctx.emin ≤ 0) (hmax : 0 ≤ ctx.emax) (hx : x.toRat = 1)
    (h : ctx.pow x n = .ok y) : y.toRat = 1 := by
  unfold Context.pow at h
  split at h
  · rw [← Except.ok.inj h, DecimalNumber.toRat, DecimalNumber.ofInt, zpow_zero, mul_one,
      Int.cast_one]
  · obtain ⟨power, hpower, h⟩ := Core.bind_eq_ok h
    have hone := powLoop_one (@fits_one (ctx.work n) hmin hmax) hx hpower
    obtain ⟨z, hz, hvalue⟩ := fix_exact (hone.symm ▸ fits_one hmin hmax : ctx.Fits power.toRat)
    rw [← Except.ok.inj (hz.symm.trans h), hvalue, hone]

/-- A power is held with the precision's digits. -/
theorem held_of_pow {n : Nat} (hn : n ≠ 0) (h : ctx.pow x n = .ok y) :
    ∃ (m : Nat) (f : Int), |y.toRat| = m * 10 ^ f ∧ m < 10 ^ ctx.prec ∧ ctx.etiny ≤ f := by
  unfold Context.pow at h
  rw [if_neg hn] at h
  obtain ⟨power, -, h⟩ := Core.bind_eq_ok h
  exact held_of_fix h

/-- **The integer power.** -/
theorem pow_near {n : Nat} (hx1 : 1 ≤ x.toRat) (hx2 : x.toRat ≤ 2)
    (hn : 1 ≤ n) (hmin : (2 * n : Int) < -ctx.emin) (hmax : (2 * n : Int) < ctx.emax) :
    ∃ power y, PowBound (ctx.work n).unit x.toRat (n - 1) n power ∧ ctx.pow x n = .ok y ∧
      Near ctx.unit power y.toRat := by
  have hunit : (ctx.work n).unit ≤ 1 / 10 := by
    have hle : (10 : ℚ) ^ (-(ctx.work n).prec : Int) ≤ 10 ^ (-2 : Int) := by
      refine zpow_le_zpow_right₀ (by norm_num) ?_
      show -((ctx.prec + digitCount n + 2 : Nat) : Int) ≤ -2
      omega
    rw [Context.unit]
    norm_num at hle ⊢
    linarith only [hle]
  have hunit0 := (ctx.work n).unit_pos.le
  obtain ⟨power, hpower, hbound⟩ :=
    @powLoop_near (ctx.work n) x hunit hx1 hx2 n n hn (by omega) hmin.le hmax
  have hroomy : ctx.Roomy power.toRat := by
    have h1 : ((n - 1 : Nat) : Int) = n - 1 := by omega
    exact hbound.roomy hunit0 hunit hx1 hx2 (by omega) (by omega)
  obtain ⟨y, hy, hnear⟩ := fix_near hroomy.range
  refine ⟨power.toRat, y, hbound, ?_, hnear⟩
  unfold Context.pow
  rw [if_neg (by omega), hpower]
  exact hy

end Near

end Systems

end RealEstate
