import Mathlib.Algebra.Order.Round
import Mathlib.Data.Nat.Log
import Mathlib.Data.Rat.Floor
import Mathlib.Tactic.Linarith
import RealEstate.Core.Exceptions

/-!
# Decimal arithmetic at a context's precision

`decimal.Decimal` under a `Context`: the result of an operation is the exact one, rounded to
the context's digits.

- `DecimalNumber`: a finite decimal; `DecimalNumber.toRat` is what it stands for.
- `Context.fix`: the rounding that ends every operation.
- `add`, `sub`, `mul`, `div`, `pow`, `quantize`: the operations.
- `fix_exact`: a number that fits the context's digits is not rounded.
- `quantize_halfUp`: `quantize` with `ROUND_HALF_UP` is Mathlib's `round` on the grid.
-/

namespace RealEstate

namespace Systems

/-- The signals that the default context traps. -/
inductive DecimalSignal where
  | divisionByZero
  | invalidOperation
  | overflow
  deriving DecidableEq, Repr

/-- A finite decimal, `coefficient * 10 ^ exponent`. Its zero has no sign. -/
structure DecimalNumber where
  coefficient : Int
  exponent : Int
  deriving DecidableEq, Repr

namespace DecimalNumber

/-- The value. -/
def toRat (x : DecimalNumber) : ℚ := x.coefficient * 10 ^ x.exponent

/-- The negative. -/
def neg (x : DecimalNumber) : DecimalNumber := ⟨-x.coefficient, x.exponent⟩

/-- An integer, as a decimal. -/
def ofInt (n : Int) : DecimalNumber := ⟨n, 0⟩

end DecimalNumber

/-- How many digits `n` is written with. -/
def digitCount (n : Nat) : Nat := Nat.log 10 n + 1

/-- The two rounding modes of the code. -/
inductive Rounding where
  | halfEven
  | halfUp
  deriving DecidableEq, Repr

/-- `n / d`, rounded to an integer. -/
def Rounding.quotient (mode : Rounding) (n d : Nat) : Nat :=
  if 2 * (n % d) < d then n / d
  else if d < 2 * (n % d) then n / d + 1
  else match mode with
    | .halfUp => n / d + 1
    | .halfEven => if n / d % 2 = 0 then n / d else n / d + 1

/-- `n * 10 ^ k`, rounded to an integer. -/
def Rounding.shift (mode : Rounding) (n : Nat) (k : Int) : Nat :=
  if 0 ≤ k then n * 10 ^ k.toNat else mode.quotient n (10 ^ (-k).toNat)

/-- `_rescale`: the number with another exponent. -/
def DecimalNumber.rescale (mode : Rounding) (e : Int) (x : DecimalNumber) : DecimalNumber where
  coefficient := x.coefficient.sign * mode.shift x.coefficient.natAbs (x.exponent - e)
  exponent := e

/-- A `Context`: its precision, and the exponents of its largest and least normal numbers. -/
structure Context where
  prec : Nat
  emax : Int
  emin : Int
  prec_pos : 0 < prec
  emin_le : emin ≤ emax

/-- The context a thread starts with; it rounds half to even. -/
def defaultContext : Context := ⟨28, 999999, -999999, by decide, by decide⟩

namespace Context

variable (ctx : Context)

/-- The least exponent. -/
def etiny : Int := ctx.emin - ctx.prec + 1

/-- The greatest exponent of a coefficient with all its digits. -/
def etop : Int := ctx.emax - ctx.prec + 1

/-- `_fix`. -/
def fix (x : DecimalNumber) : Except DecimalSignal DecimalNumber :=
  if x.coefficient = 0 then .ok ⟨0, min (max x.exponent ctx.etiny) ctx.emax⟩
  else
    let expMin := digitCount x.coefficient.natAbs + x.exponent - ctx.prec
    if ctx.etop < expMin then .error .overflow
    else if max expMin ctx.etiny ≤ x.exponent then .ok x
    else
      let y := x.rescale .halfEven (max expMin ctx.etiny)
      -- 99…9 may have been rounded up to 100…0, which has a digit too many.
      let y := if ctx.prec < digitCount y.coefficient.natAbs then
        ⟨y.coefficient.tdiv 10, y.exponent + 1⟩ else y
      if ctx.etop < y.exponent then .error .overflow else .ok y

/-- The product, rounded once. -/
def mul (x y : DecimalNumber) : Except DecimalSignal DecimalNumber :=
  ctx.fix ⟨x.coefficient * y.coefficient, x.exponent + y.exponent⟩

/-- The sum, rounded once. -/
def add (x y : DecimalNumber) : Except DecimalSignal DecimalNumber :=
  let e := min x.exponent y.exponent
  ctx.fix ⟨x.coefficient * 10 ^ (x.exponent - e).toNat +
    y.coefficient * 10 ^ (y.exponent - e).toNat, e⟩

/-- The difference, rounded once. -/
def sub (x y : DecimalNumber) : Except DecimalSignal DecimalNumber := ctx.add x y.neg

/-- Drops zeros at the end of an exact quotient, down to its ideal exponent. -/
def stripZeros : Nat → Nat → Nat × Nat
  | 0, n => (n, 0)
  | k + 1, n =>
    if n % 10 = 0 then
      let (m, dropped) := stripZeros k (n / 10)
      (m, dropped + 1)
    else (n, 0)

/-- `__truediv__`: a quotient of one digit more than the precision, whose last digit tells of a
remainder. -/
def div (x y : DecimalNumber) : Except DecimalSignal DecimalNumber :=
  if y.coefficient = 0 then
    .error (if x.coefficient = 0 then .invalidOperation else .divisionByZero)
  else if x.coefficient = 0 then ctx.fix ⟨0, x.exponent - y.exponent⟩
  else
    let n := x.coefficient.natAbs
    let d := y.coefficient.natAbs
    let shift : Int := digitCount d - digitCount n + ctx.prec + 1
    let num := n * 10 ^ shift.toNat
    let den := d * 10 ^ (-shift).toNat
    let sign := x.coefficient.sign * y.coefficient.sign
    let ideal := x.exponent - y.exponent
    if num % den ≠ 0 then
      let q := if num / den % 5 = 0 then num / den + 1 else num / den
      ctx.fix ⟨sign * q, ideal - shift⟩
    else
      let (q, dropped) := stripZeros shift.toNat (num / den)
      ctx.fix ⟨sign * q, ideal - shift + dropped⟩

/-- The context in which a power is computed: some digits more. -/
def work (n : Nat) : Context where
  prec := ctx.prec + digitCount n + 2
  emax := ctx.emax
  emin := ctx.emin
  prec_pos := by omega
  emin_le := ctx.emin_le

/-- `x ^ n` by squaring, from the highest bit of `n` on. -/
def powLoop (x : DecimalNumber) : (fuel n : Nat) → Except DecimalSignal DecimalNumber
  | 0, _ => .ok x
  | fuel + 1, n =>
    if n ≤ 1 then .ok x
    else do
      let root ← powLoop x fuel (n / 2)
      let square ← ctx.mul root root
      if n % 2 = 1 then ctx.mul square x else .ok square

/-- `x ** n`, for an integer that is not negative. -/
def pow (x : DecimalNumber) (n : Nat) : Except DecimalSignal DecimalNumber :=
  if n = 0 then .ok (.ofInt 1)
  else do
    let power ← (ctx.work n).powLoop x n n
    ctx.fix power

/-- `x.quantize(Decimal((0, (1,), e)), rounding=mode)`. -/
def quantize (mode : Rounding) (e : Int) (x : DecimalNumber) : Except DecimalSignal DecimalNumber :=
  if e < ctx.etiny ∨ ctx.emax < e then .error .invalidOperation
  else if x.coefficient = 0 then ctx.fix ⟨0, e⟩
  else
    let adjusted := x.exponent + digitCount x.coefficient.natAbs - 1
    if ctx.emax < adjusted ∨ ctx.prec < adjusted - e + 1 then .error .invalidOperation
    else
      let y := x.rescale mode e
      if ctx.emax < y.exponent + digitCount y.coefficient.natAbs - 1 ∨
          ctx.prec < digitCount y.coefficient.natAbs then .error .invalidOperation
      else ctx.fix y

end Context

/-! ### Digits and rounded quotients -/

/-- A number is below the power of its digits. -/
theorem lt_pow_digitCount (n : Nat) : n < 10 ^ digitCount n :=
  Nat.lt_pow_succ_log_self (by decide) n

/-- And not below the one before. -/
theorem pow_digitCount_le {n : Nat} (h : n ≠ 0) : 10 ^ (digitCount n - 1) ≤ n :=
  Nat.pow_log_le_self 10 h

theorem digitCount_le {n k : Nat} (hk : 0 < k) (h : n < 10 ^ k) : digitCount n ≤ k := by
  rcases Nat.eq_zero_or_pos n with rfl | hn
  · exact hk
  · have hlog : Nat.log 10 n < k := Nat.log_lt_of_lt_pow (Nat.pos_iff_ne_zero.1 hn) h
    exact hlog

/-- Rounding half up is `round`. -/
theorem quotient_halfUp (n : Nat) {d : Nat} (hd : 0 < d) :
    ((Rounding.halfUp.quotient n d : Nat) : Int) = round ((n : ℚ) / d) := by
  have hd' : (0 : ℚ) < d := Nat.cast_pos.2 hd
  have hn : (n : ℚ) = d * (n / d : Nat) + (n % d : Nat) := by
    exact_mod_cast (Nat.div_add_mod n d).symm
  have hr : ((n % d : Nat) : ℚ) < d := Nat.cast_lt.2 (Nat.mod_lt n hd)
  have hr0 : (0 : ℚ) ≤ (n % d : Nat) := Nat.cast_nonneg _
  symm
  rw [round_eq_iff, Set.mem_Ico, le_div_iff₀ hd', div_lt_iff₀ hd', hn, Int.cast_natCast]
  unfold Rounding.quotient
  generalize n / d = q at *
  generalize n % d = r at *
  split
  · next hlow =>
    have hlow : 2 * (r : ℚ) < d := by exact_mod_cast hlow
    constructor <;> linarith
  · next hhigh =>
    have hhigh : (d : ℚ) ≤ 2 * r := by exact_mod_cast Nat.not_lt.1 hhigh
    split
    all_goals
      push_cast
      constructor <;> linarith

/-- What is a multiple is not rounded. -/
theorem quotient_mul (mode : Rounding) (n : Nat) {d : Nat} (hd : 0 < d) :
    mode.quotient (n * d) d = n := by
  unfold Rounding.quotient
  rw [Nat.mul_mod_left, if_pos (by omega), Nat.mul_div_cancel _ hd]

theorem cast_pow_toNat {k : Int} (h : 0 ≤ k) : ((10 ^ k.toNat : Nat) : ℚ) = 10 ^ k := by
  rw [Nat.cast_pow, Nat.cast_ofNat, ← zpow_natCast, Int.toNat_of_nonneg h]

/-- Half up is `round`, away from zero on ties. -/
theorem shift_halfUp (n : Nat) (k : Int) :
    ((Rounding.halfUp.shift n k : Nat) : Int) = round ((n : ℚ) * 10 ^ k) := by
  unfold Rounding.shift
  split
  · next hk =>
    rw [← cast_pow_toNat hk, ← Nat.cast_mul, round_natCast]
  · next hk =>
    have hpos : 0 < 10 ^ (-k).toNat := Nat.pow_pos (by decide)
    rw [quotient_halfUp n hpos, cast_pow_toNat (by omega), zpow_neg, div_inv_eq_mul]

/-- What is an integer is not rounded. -/
theorem shift_exact (mode : Rounding) {n m : Nat} {k : Int} (h : (n : ℚ) * 10 ^ k = m) :
    mode.shift n k = m := by
  unfold Rounding.shift
  split
  · next hk =>
    rw [← cast_pow_toNat hk, ← Nat.cast_mul] at h
    exact Nat.cast_injective h
  · next hk =>
    have hpos : (10 : ℚ) ^ k ≠ 0 := zpow_ne_zero _ (by norm_num)
    have hn : n = m * 10 ^ (-k).toNat := by
      apply Nat.cast_injective (R := ℚ)
      rw [Nat.cast_mul, cast_pow_toNat (by omega), ← h, zpow_neg, mul_inv_cancel_right₀ hpos]
    rw [hn, quotient_mul mode m (Nat.pow_pos (by decide))]

/-! ### Rounding to the context -/

section Fix

variable {ctx : Context} {x y : DecimalNumber}

theorem abs_toRat (x : DecimalNumber) : |x.toRat| = x.coefficient.natAbs * 10 ^ x.exponent := by
  have hpow : (0 : ℚ) ≤ 10 ^ x.exponent := zpow_nonneg (by norm_num) _
  rw [DecimalNumber.toRat, abs_mul, abs_of_nonneg hpow, Nat.cast_natAbs, Int.cast_abs]

theorem toRat_eq_zero : x.toRat = 0 ↔ x.coefficient = 0 := by
  have hpow : (10 : ℚ) ^ x.exponent ≠ 0 := zpow_ne_zero _ (by norm_num)
  rw [DecimalNumber.toRat, mul_eq_zero, or_iff_left hpow, Int.cast_eq_zero]

theorem coefficient_nonneg (h : 0 ≤ x.toRat) : 0 ≤ x.coefficient := by
  have hpow : (0 : ℚ) < 10 ^ x.exponent := zpow_pos (by norm_num) _
  exact_mod_cast (mul_nonneg_iff_of_pos_right hpow).1 h

/-- The digits of a number place it between two powers of ten. -/
theorem pow_le_abs_toRat (h : x.coefficient ≠ 0) :
    (10 : ℚ) ^ (digitCount x.coefficient.natAbs - 1 + x.exponent : Int) ≤ |x.toRat| := by
  have hpow : (0 : ℚ) ≤ 10 ^ x.exponent := zpow_nonneg (by norm_num) _
  have hdigits := pow_digitCount_le (Int.natAbs_ne_zero.2 h)
  have hcast : ((digitCount x.coefficient.natAbs - 1 : Nat) : Int) =
      digitCount x.coefficient.natAbs - 1 := Nat.cast_sub (Nat.le_add_left 1 _)
  rw [zpow_add₀ (by norm_num), abs_toRat, ← hcast, zpow_natCast]
  refine mul_le_mul_of_nonneg_right ?_ hpow
  exact_mod_cast hdigits

/-- A bound by the adjusted exponent. -/
theorem abs_toRat_lt (x : DecimalNumber) :
    |x.toRat| < (10 : ℚ) ^ (digitCount x.coefficient.natAbs + x.exponent : Int) := by
  have hpow : (0 : ℚ) < 10 ^ x.exponent := zpow_pos (by norm_num) _
  rw [zpow_add₀ (by norm_num), abs_toRat, zpow_natCast]
  refine mul_lt_mul_of_pos_right ?_ hpow
  exact_mod_cast lt_pow_digitCount x.coefficient.natAbs

theorem natAbs_sign_mul {c : Int} (h : c ≠ 0) (n : Nat) : (c.sign * n).natAbs = n := by
  rw [Int.natAbs_mul, Int.natAbs_sign_of_ne_zero h, Int.natAbs_natCast, Nat.one_mul]

/-- A coefficient that needs no rounding keeps its value. -/
theorem rescale_toRat (mode : Rounding) {m : Nat} {e : Int}
    (h : (x.coefficient.natAbs : ℚ) * 10 ^ (x.exponent - e) = m) :
    (x.rescale mode e).toRat = x.toRat ∧
      (x.coefficient ≠ 0 → (x.rescale mode e).coefficient.natAbs = m) := by
  have hshift := shift_exact mode h
  constructor
  · have hsign : (x.coefficient : ℚ) = x.coefficient.sign * x.coefficient.natAbs := by
      rw [← Int.cast_natCast, ← Int.cast_mul, Int.sign_mul_natAbs]
    rw [DecimalNumber.toRat, DecimalNumber.toRat, DecimalNumber.rescale, hshift, Int.cast_mul,
      Int.cast_natCast, ← h, hsign, mul_assoc, mul_assoc, mul_assoc, ← zpow_add₀ (by norm_num),
      sub_add_cancel]
  · intro hne
    rw [DecimalNumber.rescale, hshift, natAbs_sign_mul hne]

/-- A number that the context's digits can hold. -/
def Context.Fits (ctx : Context) (q : ℚ) : Prop :=
  ∃ (m : Nat) (f : Int), |q| = m * 10 ^ f ∧ m < 10 ^ ctx.prec ∧ ctx.etiny ≤ f ∧
    |q| < 10 ^ (ctx.emax + 1)

theorem Context.etiny_le_etop (ctx : Context) : ctx.etiny ≤ ctx.etop := by
  have := ctx.emin_le
  rw [etiny, etop]
  omega

theorem toRat_zero (e : Int) : (DecimalNumber.mk 0 e).toRat = 0 := by
  rw [DecimalNumber.toRat, Int.cast_zero, zero_mul]

/-- **What fits is not rounded.** -/
theorem fix_exact (h : ctx.Fits x.toRat) : ∃ y, ctx.fix x = .ok y ∧ y.toRat = x.toRat := by
  obtain ⟨m, f, hq, hm, hf, hmax⟩ := h
  unfold Context.fix
  split
  · next hzero => exact ⟨_, rfl, by rw [toRat_zero, toRat_eq_zero.2 hzero]⟩
  · next hne =>
    -- The leading digit tells how large a nonzero number is.
    have hlow := pow_le_abs_toRat hne
    have hm' : (m : ℚ) < 10 ^ (ctx.prec : Int) := by
      rw [zpow_natCast]
      exact_mod_cast hm
    have htop : digitCount x.coefficient.natAbs + x.exponent - ctx.prec ≤ ctx.etop := by
      have hlt := (zpow_lt_zpow_iff_right₀ (by norm_num)).1 (hlow.trans_lt hmax)
      rw [Context.etop]
      omega
    -- And that its digits end where the precision ends, or before.
    have hleft : digitCount x.coefficient.natAbs + x.exponent - ctx.prec ≤ f := by
      have hup : |x.toRat| < 10 ^ (ctx.prec + f : Int) := by
        rw [hq, zpow_add₀ (by norm_num)]
        exact mul_lt_mul_of_pos_right hm' (zpow_pos (by norm_num) _)
      have hlt := (zpow_lt_zpow_iff_right₀ (by norm_num)).1 (hlow.trans_lt hup)
      omega
    rw [if_neg (not_lt.2 htop)]
    split
    · exact ⟨x, rfl, rfl⟩
    · generalize hE : max (digitCount x.coefficient.natAbs + x.exponent - ctx.prec : Int)
        ctx.etiny = E
      have hEf : E ≤ f := hE ▸ max_le hleft hf
      -- So moving the exponent is exact: the coefficient stays whole.
      have hexact : (x.coefficient.natAbs : ℚ) * 10 ^ (x.exponent - E) =
          (m * 10 ^ (f - E).toNat : Nat) := by
        rw [Nat.cast_mul, cast_pow_toNat (by omega), zpow_sub₀ (by norm_num), ← mul_div_assoc,
          ← abs_toRat, hq, zpow_sub₀ (by norm_num), mul_div_assoc]
      obtain ⟨hvalue, hcoefficient⟩ := rescale_toRat .halfEven hexact
      have hdigits : digitCount (x.rescale .halfEven E).coefficient.natAbs ≤ ctx.prec := by
        rw [hcoefficient hne]
        refine digitCount_le ctx.prec_pos (Nat.cast_lt (α := ℚ).1 ?_)
        rw [← hexact, Nat.cast_pow, Nat.cast_ofNat, ← zpow_natCast, zpow_sub₀ (by norm_num),
          ← mul_div_assoc, ← abs_toRat, div_lt_iff₀ (zpow_pos (by norm_num) _),
          ← zpow_add₀ (by norm_num)]
        exact (abs_toRat_lt x).trans_le (zpow_le_zpow_right₀ (by norm_num) (by omega))
      have hexponent : ¬ctx.etop < (x.rescale .halfEven E).exponent :=
        not_lt.2 (hE ▸ max_le htop ctx.etiny_le_etop)
      dsimp only
      rw [if_neg (not_lt.2 hdigits), if_neg hexponent]
      exact ⟨_, rfl, hvalue⟩

/-! ### The operations -/

theorem product_toRat (x y : DecimalNumber) :
    (DecimalNumber.mk (x.coefficient * y.coefficient) (x.exponent + y.exponent)).toRat =
      x.toRat * y.toRat := by
  rw [DecimalNumber.toRat, DecimalNumber.toRat, DecimalNumber.toRat, Int.cast_mul,
    zpow_add₀ (by norm_num), mul_mul_mul_comm]

/-- A product that fits is exact. -/
theorem mul_exact (h : ctx.Fits (x.toRat * y.toRat)) :
    ∃ z, ctx.mul x y = .ok z ∧ z.toRat = x.toRat * y.toRat := by
  rw [← product_toRat] at h ⊢
  exact fix_exact h

theorem aligned_toRat {e : Int} (h : e ≤ x.exponent) :
    ((x.coefficient * 10 ^ (x.exponent - e).toNat : Int) : ℚ) * 10 ^ e = x.toRat := by
  have hpow : ((10 ^ (x.exponent - e).toNat : Int) : ℚ) = 10 ^ (x.exponent - e) := by
    rw [Int.cast_pow, Int.cast_ofNat, ← zpow_natCast, Int.toNat_of_nonneg (by omega)]
  rw [Int.cast_mul, hpow, mul_assoc, ← zpow_add₀ (by norm_num), sub_add_cancel, DecimalNumber.toRat]

theorem sum_toRat (x y : DecimalNumber) {e : Int} (h : e ≤ min x.exponent y.exponent) :
    (DecimalNumber.mk (x.coefficient * 10 ^ (x.exponent - e).toNat +
      y.coefficient * 10 ^ (y.exponent - e).toNat) e).toRat = x.toRat + y.toRat := by
  rw [DecimalNumber.toRat, Int.cast_add, add_mul, aligned_toRat (h.trans (min_le_left _ _)),
    aligned_toRat (h.trans (min_le_right _ _))]

/-- A sum that fits is exact. -/
theorem add_exact (h : ctx.Fits (x.toRat + y.toRat)) :
    ∃ z, ctx.add x y = .ok z ∧ z.toRat = x.toRat + y.toRat := by
  rw [← sum_toRat x y le_rfl] at h ⊢
  exact fix_exact h

theorem neg_toRat : x.neg.toRat = -x.toRat := by
  rw [DecimalNumber.toRat, DecimalNumber.toRat, DecimalNumber.neg, Int.cast_neg, neg_mul]

theorem sub_exact (h : ctx.Fits (x.toRat - y.toRat)) :
    ∃ z, ctx.sub x y = .ok z ∧ z.toRat = x.toRat - y.toRat := by
  rw [sub_eq_add_neg, ← neg_toRat] at h ⊢
  exact add_exact h

theorem stripZeros_eq (k n : Nat) :
    n = (Context.stripZeros k n).1 * 10 ^ (Context.stripZeros k n).2 := by
  induction k generalizing n with
  | zero => rw [Context.stripZeros, Nat.pow_zero, Nat.mul_one]
  | succ k ih =>
    rw [Context.stripZeros]
    split
    · next hzero =>
      show n = (Context.stripZeros k (n / 10)).1 * 10 ^ ((Context.stripZeros k (n / 10)).2 + 1)
      rw [Nat.pow_succ, ← Nat.mul_assoc, ← ih (n / 10)]
      omega
    · rw [Nat.pow_zero, Nat.mul_one]

/-- The quotient that is computed, with all its digits. -/
theorem scaled_quotient (n : Nat) {d : Nat} (hd : d ≠ 0) (s : Int) :
    ((n * 10 ^ s.toNat : Nat) : ℚ) / (d * 10 ^ (-s).toNat : Nat) = n / d * 10 ^ s := by
  have hd' : (d : ℚ) ≠ 0 := Nat.cast_ne_zero.2 hd
  rw [Nat.cast_mul, Nat.cast_mul, mul_div_mul_comm]
  congr 1
  rcases Int.le_total 0 s with hs | hs
  · rw [cast_pow_toNat hs, Int.toNat_of_nonpos (by omega), Nat.pow_zero, Nat.cast_one, div_one]
  · rw [cast_pow_toNat (k := -s) (by omega), Int.toNat_of_nonpos hs, Nat.pow_zero, Nat.cast_one,
      zpow_neg, one_div, inv_inv]

theorem div_toRat (x y : DecimalNumber) :
    x.toRat / y.toRat = (x.coefficient.sign * y.coefficient.sign : Int) *
      ((x.coefficient.natAbs : ℚ) / y.coefficient.natAbs) *
        10 ^ (x.exponent - y.exponent) := by
  have hsign : ∀ c : Int, (c : ℚ) = c.sign * c.natAbs := by
    intro c
    rw [← Int.cast_natCast, ← Int.cast_mul, Int.sign_mul_natAbs]
  have hinv : ∀ c : Int, ((c.sign : ℚ))⁻¹ = c.sign := by
    intro c
    rcases Int.sign_trichotomy c with h | h | h <;> rw [h] <;> norm_num
  rw [DecimalNumber.toRat, DecimalNumber.toRat, mul_div_mul_comm, ← zpow_sub₀ (by norm_num),
    hsign x.coefficient, hsign y.coefficient, mul_div_mul_comm, Int.cast_mul]
  congr 2
  rw [div_eq_mul_inv, hinv]

theorem abs_div_toRat (x y : DecimalNumber) :
    |x.toRat / y.toRat| = (x.coefficient.natAbs : ℚ) / y.coefficient.natAbs *
      10 ^ (x.exponent - y.exponent) := by
  rw [abs_div, abs_toRat, abs_toRat, mul_div_mul_comm, ← zpow_sub₀ (by norm_num)]

/-- The scaled quotient has a digit more than the precision. -/
theorem pow_prec_le_scaled (ctx : Context) {n d : Nat} (hn : n ≠ 0) (hd : d ≠ 0) :
    (10 : ℚ) ^ ctx.prec ≤ n / d * 10 ^ (digitCount d - digitCount n + ctx.prec + 1 : Int) := by
  have hd' : (0 : ℚ) < d := Nat.cast_pos.2 (Nat.pos_iff_ne_zero.2 hd)
  have hlow : (10 : ℚ) ^ (digitCount n - 1 : Int) ≤ n := by
    have hcast : ((digitCount n - 1 : Nat) : Int) = digitCount n - 1 :=
      Nat.cast_sub (Nat.le_add_left 1 _)
    rw [← hcast, zpow_natCast]
    exact_mod_cast pow_digitCount_le hn
  have hup : (d : ℚ) ≤ 10 ^ (digitCount d : Int) := by
    rw [zpow_natCast]
    exact_mod_cast (lt_pow_digitCount d).le
  rw [div_mul_eq_mul_div, le_div_iff₀ hd', ← zpow_natCast]
  calc (10 : ℚ) ^ (ctx.prec : Int) * d ≤ 10 ^ (ctx.prec : Int) * 10 ^ (digitCount d : Int) :=
        mul_le_mul_of_nonneg_left hup (zpow_nonneg (by norm_num) _)
    _ = 10 ^ (digitCount n - 1 : Int) *
          10 ^ (digitCount d - digitCount n + ctx.prec + 1 : Int) := by
        rw [← zpow_add₀ (by norm_num), ← zpow_add₀ (by norm_num)]
        congr 1
        omega
    _ ≤ n * 10 ^ (digitCount d - digitCount n + ctx.prec + 1 : Int) :=
        mul_le_mul_of_nonneg_right hlow (zpow_nonneg (by norm_num) _)

/-- A scaled quotient, with its sign and without the zeros at its end. -/
theorem quotient_toRat (x y : DecimalNumber) {q dropped : Nat} {s : Int}
    (h : (q : ℚ) * 10 ^ dropped =
      x.coefficient.natAbs / y.coefficient.natAbs * 10 ^ s) :
    (DecimalNumber.mk (x.coefficient.sign * y.coefficient.sign * q)
      (x.exponent - y.exponent - s + dropped)).toRat = x.toRat / y.toRat := by
  have hmagnitude : (q : ℚ) * 10 ^ (x.exponent - y.exponent - s + dropped) =
      x.coefficient.natAbs / y.coefficient.natAbs * 10 ^ (x.exponent - y.exponent) := by
    rw [add_comm, zpow_add₀ (by norm_num), zpow_natCast, ← mul_assoc, h, mul_assoc,
      ← zpow_add₀ (by norm_num), add_sub_cancel]
  rw [DecimalNumber.toRat, Int.cast_mul, Int.cast_natCast, mul_assoc, hmagnitude, div_toRat,
    mul_assoc]

/-- A quotient that fits is exact. -/
theorem div_exact (hy : y.toRat ≠ 0) (h : ctx.Fits (x.toRat / y.toRat)) :
    ∃ z, ctx.div x y = .ok z ∧ z.toRat = x.toRat / y.toRat := by
  have hd : y.coefficient ≠ 0 := fun hzero => hy (toRat_eq_zero.2 hzero)
  unfold Context.div
  rw [if_neg hd]
  split
  · next hzero =>
    rw [toRat_eq_zero.2 hzero, zero_div] at h ⊢
    rw [← toRat_zero (x.exponent - y.exponent)] at h ⊢
    exact fix_exact h
  · next hn =>
    have hn' := Int.natAbs_ne_zero.2 hn
    have hd' := Int.natAbs_ne_zero.2 hd
    have hlow := pow_prec_le_scaled ctx hn' hd'
    dsimp only
    generalize hs : (digitCount y.coefficient.natAbs - digitCount x.coefficient.natAbs +
      ctx.prec + 1 : Int) = s at hlow ⊢
    have hscaled := scaled_quotient x.coefficient.natAbs hd' s
    generalize x.coefficient.natAbs * 10 ^ s.toNat = num at hscaled ⊢
    have hden : y.coefficient.natAbs * 10 ^ (-s).toNat ≠ 0 :=
      Nat.mul_ne_zero hd' (Nat.pow_pos (by decide)).ne'
    generalize y.coefficient.natAbs * 10 ^ (-s).toNat = den at hscaled hden ⊢
    -- A quotient that fits leaves no remainder: it has a digit less than the scaled one.
    obtain ⟨N, hN⟩ : ∃ N : Nat, (num : ℚ) / den = N := by
      obtain ⟨m, f, hq, hm, -, -⟩ := h
      have hm' : (m : ℚ) < 10 ^ ctx.prec := by exact_mod_cast hm
      have heq : (num : ℚ) / den = m * 10 ^ (f - (x.exponent - y.exponent) + s) := by
        rw [hscaled, zpow_add₀ (by norm_num), zpow_sub₀ (by norm_num), ← mul_assoc,
          ← mul_div_assoc, ← hq, abs_div_toRat,
          mul_div_cancel_right₀ _ (zpow_ne_zero _ (by norm_num))]
      have hk : 0 ≤ f - (x.exponent - y.exponent) + s := by
        by_contra hneg
        have hsmall : (10 : ℚ) ^ (f - (x.exponent - y.exponent) + s) ≤ 1 :=
          zpow_le_one_of_nonpos₀ (by norm_num) (by omega)
        have hle := mul_le_of_le_one_right (Nat.cast_nonneg (α := ℚ) m) hsmall
        rw [← heq, hscaled] at hle
        linarith
      refine ⟨m * 10 ^ (f - (x.exponent - y.exponent) + s).toNat, ?_⟩
      rw [heq, Nat.cast_mul, cast_pow_toNat hk]
    have hnum : num = N * den := by
      apply Nat.cast_injective (R := ℚ)
      rw [Nat.cast_mul, ← hN, div_mul_cancel₀ _ (Nat.cast_ne_zero.2 hden)]
    rw [hnum, Nat.mul_mod_left, Nat.mul_div_cancel _ (Nat.pos_iff_ne_zero.2 hden),
      if_neg (not_not.2 rfl)]
    have hstrip := stripZeros_eq s.toNat N
    generalize Context.stripZeros s.toNat N = stripped at hstrip
    obtain ⟨q, dropped⟩ := stripped
    have hresult := @quotient_toRat x y q dropped s (by
      rw [← hscaled, hN, hstrip]
      push_cast
      ring)
    rw [← hresult] at h ⊢
    exact fix_exact h

/-- **Rounding half up onto the grid.** -/
theorem quantize_halfUp {e : Int} (h0 : 0 ≤ x.toRat)
    (hsmall : x.toRat < 10 ^ (e + ctx.prec - 1)) (hlow : ctx.etiny ≤ e) (hhigh : e ≤ ctx.etop) :
    ctx.quantize .halfUp e x = .ok ⟨round (x.toRat / 10 ^ e), e⟩ := by
  have hprec := ctx.prec_pos
  have hmax : e + ctx.prec - 1 ≤ ctx.emax := by
    rw [Context.etop] at hhigh
    omega
  have hzero : ctx.fix ⟨0, e⟩ = .ok ⟨0, e⟩ := by
    rw [Context.fix, if_pos rfl, max_eq_left hlow, min_eq_left (by omega)]
  unfold Context.quantize
  rw [if_neg (by omega)]
  split
  · -- Zero has its exponent moved and nothing rounded.
    next hx => rw [hzero, toRat_eq_zero.2 hx, zero_div, round_zero]
  · next hx =>
    have hdigits : digitCount x.coefficient.natAbs + x.exponent < e + ctx.prec := by
      have hle := pow_le_abs_toRat hx
      rw [abs_of_nonneg h0] at hle
      have hlt := (zpow_lt_zpow_iff_right₀ (by norm_num)).1 (hle.trans_lt hsmall)
      omega
    have hsign : x.coefficient.sign = 1 :=
      Int.sign_eq_one_of_pos (lt_of_le_of_ne (coefficient_nonneg h0) (Ne.symm hx))
    have hrescale : x.rescale .halfUp e = ⟨round (x.toRat / 10 ^ e), e⟩ := by
      rw [DecimalNumber.rescale, shift_halfUp, hsign, Int.one_mul, zpow_sub₀ (by norm_num),
        ← mul_div_assoc, ← abs_toRat, abs_of_nonneg h0]
    -- A nonnegative number rounds half up as the rationals do.
    have hround0 : 0 ≤ round (x.toRat / 10 ^ e) := by
      rw [round_eq]
      have hdiv : 0 ≤ x.toRat / 10 ^ e := div_nonneg h0 (zpow_nonneg (by norm_num) _)
      exact Int.floor_nonneg.2 (by linarith)
    have hround : (round (x.toRat / 10 ^ e)).natAbs < 10 ^ ctx.prec := by
      have hdiv : x.toRat / 10 ^ e < 10 ^ (ctx.prec - 1) := by
        rw [div_lt_iff₀ (zpow_pos (by norm_num) _), ← zpow_natCast, ← zpow_add₀ (by norm_num),
          Nat.cast_sub hprec]
        refine hsmall.trans_le (zpow_le_zpow_right₀ (by norm_num) ?_)
        push_cast
        omega
      have hle : round (x.toRat / 10 ^ e) ≤ 10 ^ (ctx.prec - 1) := by
        have hhalf := round_le_add_half (x.toRat / 10 ^ e)
        have hlt : (round (x.toRat / 10 ^ e) : ℚ) < ((10 ^ (ctx.prec - 1) + 1 : Int) : ℚ) := by
          push_cast
          linarith
        exact Int.lt_add_one_iff.1 (Int.cast_lt.1 hlt)
      have hpow : (10 : Int) ^ (ctx.prec - 1) < 10 ^ ctx.prec :=
        pow_lt_pow_right₀ (by norm_num) (by omega)
      zify
      rw [abs_of_nonneg hround0]
      exact hle.trans_lt hpow
    -- The rounded coefficient has no more digits than the precision.
    have hcount := digitCount_le hprec hround
    dsimp only
    rw [if_neg (by omega), hrescale, if_neg (by dsimp only; omega)]
    rw [Context.fix]
    dsimp only
    split
    · next hr => rw [hr, max_eq_left hlow, min_eq_left (by omega)]
    · rw [if_neg (by omega), if_pos (max_le (by omega) hlow)]

/-- What is nearer to zero than to the next number of the grid is zero. -/
theorem quantize_tiny (mode : Rounding) {e : Int} (htiny : |x.toRat| < 1 / 2 * 10 ^ e)
    (hlow : ctx.etiny ≤ e) (hhigh : e ≤ ctx.etop) : ctx.quantize mode e x = .ok ⟨0, e⟩ := by
  have hprec := ctx.prec_pos
  have hmax : e + ctx.prec - 1 ≤ ctx.emax := by
    rw [Context.etop] at hhigh
    omega
  have hten : (0 : ℚ) < 10 ^ e := zpow_pos (by norm_num) e
  have hzero : ctx.fix ⟨0, e⟩ = .ok ⟨0, e⟩ := by
    rw [Context.fix, if_pos rfl, max_eq_left hlow, min_eq_left (by omega)]
  unfold Context.quantize
  rw [if_neg (by omega)]
  split
  · exact hzero
  · next hx =>
    -- Below half a unit, every digit lies behind the place rounded to.
    have hadjusted : x.exponent + digitCount x.coefficient.natAbs - 1 < e := by
      have hle := (pow_le_abs_toRat hx).trans htiny.le
      have hlt : (10 : ℚ) ^ (digitCount x.coefficient.natAbs - 1 + x.exponent : Int) < 10 ^ e := by
        linarith
      have := (zpow_lt_zpow_iff_right₀ (by norm_num)).1 hlt
      omega
    have hcount : 1 ≤ digitCount x.coefficient.natAbs := Nat.le_add_left 1 _
    have hshift : mode.shift x.coefficient.natAbs (x.exponent - e) = 0 := by
      have hpos : 0 < 10 ^ (e - x.exponent).toNat := Nat.pow_pos (by decide)
      rw [Rounding.shift, if_neg (by omega), neg_sub]
      have hhalf : 2 * x.coefficient.natAbs < 10 ^ (e - x.exponent).toNat := by
        have hscale : (10 : ℚ) ^ e =
            ((10 ^ (e - x.exponent).toNat : Nat) : ℚ) * 10 ^ x.exponent := by
          rw [cast_pow_toNat (by omega), ← zpow_add₀ (by norm_num), sub_add_cancel]
        rw [abs_toRat, hscale, ← mul_assoc] at htiny
        have hlt := lt_of_mul_lt_mul_right htiny (zpow_nonneg (by norm_num) _)
        have hcast : ((2 * x.coefficient.natAbs : Nat) : ℚ) <
            (10 ^ (e - x.exponent).toNat : Nat) := by
          push_cast at hlt ⊢
          linarith
        exact_mod_cast hcast
      -- Hence the quotient is zero, and the remainder below a half.
      unfold Rounding.quotient
      rw [Nat.mod_eq_of_lt (by omega), if_pos hhalf, Nat.div_eq_of_lt (by omega)]
    have hrescale : x.rescale mode e = ⟨0, e⟩ := by
      rw [DecimalNumber.rescale, hshift, Int.natCast_zero, Int.mul_zero]
    have hdigits : digitCount (0 : Int).natAbs = 1 := rfl
    dsimp only
    rw [if_neg (by omega), hrescale, if_neg (by dsimp only; omega)]
    exact hzero

/-! ### Decimal places -/

/-- The places after the point, without the zeros at the end. -/
def DecimalNumber.decimalPlaces (x : DecimalNumber) : Nat :=
  (-x.exponent).toNat - (Context.stripZeros (-x.exponent).toNat x.coefficient.natAbs).2

theorem stripZeros_le (k n : Nat) : (Context.stripZeros k n).2 ≤ k := by
  induction k generalizing n with
  | zero => exact Nat.le_refl 0
  | succ k ih =>
    rw [Context.stripZeros]
    split
    · exact Nat.succ_le_succ (ih (n / 10))
    · exact Nat.zero_le _

/-- An amount of some decimal places is a multiple of the last. -/
theorem toRat_of_decimalPlaces {k : Nat} (h : x.decimalPlaces ≤ k) (h0 : 0 ≤ x.toRat) :
    ∃ m : Nat, x.toRat = m * 10 ^ (-k : Int) := by
  have hstrip := stripZeros_eq (-x.exponent).toNat x.coefficient.natAbs
  have hle := stripZeros_le (-x.exponent).toNat x.coefficient.natAbs
  rw [DecimalNumber.decimalPlaces] at h
  generalize Context.stripZeros (-x.exponent).toNat x.coefficient.natAbs = stripped at *
  obtain ⟨q, dropped⟩ := stripped
  dsimp only at *
  refine ⟨q * 10 ^ (dropped + x.exponent + k).toNat, ?_⟩
  rw [← abs_of_nonneg h0, abs_toRat, hstrip, Nat.cast_mul, Nat.cast_mul,
    cast_pow_toNat (by omega), mul_assoc, mul_assoc, ← zpow_add₀ (by norm_num), Nat.cast_pow,
    Nat.cast_ofNat, ← zpow_natCast, ← zpow_add₀ (by norm_num)]
  congr 2
  omega

end Fix

end Systems

end RealEstate
