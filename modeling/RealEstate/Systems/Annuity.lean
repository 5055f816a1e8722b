import Mathlib.Algebra.Order.BigOperators.Ring.Finset
import Mathlib.Algebra.Order.Ring.GeomSum
import Mathlib.Algebra.Order.Ring.Pow
import Mathlib.Tactic.FieldSimp
import Mathlib.Tactic.GCongr
import Mathlib.Tactic.Linarith
import Mathlib.Tactic.Positivity

/-!
# Annuities

The payment that redeems a unit in `n` periods at the rate `x` a period.

- `annuity`: the closed formula, for a rate that is not zero.
- `annuity_eq`: the same without a difference of powers.
- `le_annuity`, `annuity_le`: it covers the redemption, and the interest with it at most.
- `annuity_growth`: it grows with the rate, at least as fast as `1 + x`.
-/

namespace RealEstate

namespace Systems

open Finset

/-- `x (1 + x) ^ n / ((1 + x) ^ n - 1)`. -/
def annuity (n : ℕ) (x : ℚ) : ℚ := x * (1 + x) ^ n / ((1 + x) ^ n - 1)

section Annuity

variable {n : ℕ} {x y : ℚ}

theorem pow_sub_one_eq (n : ℕ) (x : ℚ) : (1 + x) ^ n - 1 = (∑ i ∈ range n, (1 + x) ^ i) * x := by
  rw [← geom_sum_mul, add_sub_cancel_left]

/-- The annuity, without a difference in its denominator. -/
theorem annuity_eq (hx : 0 < x) :
    annuity n x = (1 + x) ^ n / ∑ i ∈ range n, (1 + x) ^ i := by
  rw [annuity, pow_sub_one_eq, mul_comm x, mul_div_mul_right _ _ hx.ne']

theorem sum_pow_pos (hn : 1 ≤ n) (hx : 0 ≤ x) : 0 < ∑ i ∈ range n, (1 + x) ^ i :=
  geom_sum_pos (by linarith) (by omega)

/-- It is positive. -/
theorem annuity_pos (hn : 1 ≤ n) (hx : 0 < x) : 0 < annuity n x := by
  have hsum := sum_pow_pos hn hx.le
  rw [annuity_eq hx]
  positivity

/-- At a rate of zero it would be `1 / n`. -/
theorem le_annuity (hn : 1 ≤ n) (hx : 0 < x) : (1 + x) / n ≤ annuity n x := by
  have hn' : (0 : ℚ) < n := Nat.cast_pos.2 hn
  have hsum := sum_pow_pos hn hx.le
  have hle : ∑ i ∈ range n, (1 + x) ^ i ≤ n * (1 + x) ^ (n - 1) := by
    calc ∑ i ∈ range n, (1 + x) ^ i ≤ ∑ _i ∈ range n, (1 + x) ^ (n - 1) := by
          refine sum_le_sum fun i hi => pow_le_pow_right₀ (by linarith) ?_
          have := mem_range.1 hi
          omega
      _ = n * (1 + x) ^ (n - 1) := by rw [sum_const, card_range, nsmul_eq_mul]
  rw [annuity_eq hx, div_le_div_iff₀ hn' hsum]
  calc (1 + x) * ∑ i ∈ range n, (1 + x) ^ i ≤ (1 + x) * (n * (1 + x) ^ (n - 1)) := by gcongr
    _ = (1 + x) ^ (n - 1 + 1) * n := by ring
    _ = (1 + x) ^ n * n := by rw [Nat.sub_add_cancel hn]

/-- The power exceeds one by the simple interest at least. -/
theorem interest_le_pow_sub_one (n : ℕ) (hx : 0 ≤ x) : n * x ≤ (1 + x) ^ n - 1 := by
  have hbernoulli := one_add_mul_le_pow (by linarith : -2 ≤ x) n
  linarith

/-- It is at most the rate and an even share. -/
theorem annuity_le (hn : 1 ≤ n) (hx : 0 < x) : annuity n x ≤ x + 1 / n := by
  have hn' : (0 : ℚ) < n := Nat.cast_pos.2 hn
  have hinterest := interest_le_pow_sub_one n hx.le
  have hpos : 0 < (1 + x) ^ n - 1 := lt_of_lt_of_le (by positivity) hinterest
  have hsplit : annuity n x = x + x / ((1 + x) ^ n - 1) := by
    rw [annuity]
    field_simp
    ring
  have hle : x / ((1 + x) ^ n - 1) ≤ 1 / n := by
    rw [div_le_div_iff₀ hpos hn']
    linarith
  linarith

/-- **An annuity grows with the rate.** -/
theorem annuity_growth (hn : 1 ≤ n) (hx : 0 < x) (hxy : x ≤ y) :
    (1 + y) * annuity n x ≤ (1 + x) * annuity n y := by
  have hy : 0 < y := hx.trans_le hxy
  have hsx := sum_pow_pos hn hx.le
  have hsy := sum_pow_pos hn hy.le
  -- term by term, after a common factor: the larger base has the larger powers left
  have hsum : (1 + x) ^ (n - 1) * ∑ i ∈ range n, (1 + y) ^ i ≤
      (1 + y) ^ (n - 1) * ∑ i ∈ range n, (1 + x) ^ i := by
    rw [mul_sum, mul_sum]
    refine sum_le_sum fun i hi => ?_
    have hi := mem_range.1 hi
    have hsplit : ∀ z : ℚ, (1 + z) ^ (n - 1) = (1 + z) ^ (n - 1 - i) * (1 + z) ^ i := by
      intro z
      rw [← pow_add]
      congr 1
      omega
    rw [hsplit x, hsplit y, mul_assoc, mul_assoc, mul_comm ((1 + x) ^ i)]
    gcongr
  rw [annuity_eq hx, annuity_eq hy, ← mul_div_assoc, ← mul_div_assoc, div_le_div_iff₀ hsx hsy]
  have hpow : ∀ z : ℚ, (1 + z) ^ n = (1 + z) * (1 + z) ^ (n - 1) := by
    intro z
    rw [← pow_succ', Nat.sub_add_cancel hn]
  rw [hpow x, hpow y]
  calc (1 + y) * ((1 + x) * (1 + x) ^ (n - 1)) * ∑ i ∈ range n, (1 + y) ^ i
      = (1 + x) * (1 + y) * ((1 + x) ^ (n - 1) * ∑ i ∈ range n, (1 + y) ^ i) := by ring
    _ ≤ (1 + x) * (1 + y) * ((1 + y) ^ (n - 1) * ∑ i ∈ range n, (1 + x) ^ i) := by gcongr
    _ = (1 + x) * ((1 + y) * (1 + y) ^ (n - 1)) * ∑ i ∈ range n, (1 + x) ^ i := by ring

end Annuity

end Systems

end RealEstate
