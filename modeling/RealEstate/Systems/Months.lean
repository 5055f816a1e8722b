import Mathlib.Algebra.BigOperators.Group.List.Basic
import RealEstate.Systems.Datetimes

/-!
# Months of the calendar

Months are counted through: number `12 * year + month - 1`. Each begins where the one before it
ends, so that days fall into them one after the other.

- `firstOf`: the ordinal of the first day of a month.
- `firstOf_succ`: a month has the days of `daysInMonth`.
- `firstOf_lt_firstOf`: later months begin later, from year 1 on.
- `mem_month`: a date lies in its month.
-/

namespace RealEstate

namespace Systems

/-- The number of a month. -/
def monthNumber (year month : Nat) : Nat := 12 * year + (month - 1)

/-- The ordinal of its first day. -/
def firstOf (k : Nat) : Nat := ymdToOrd (k / 12) (k % 12 + 1) 1

section

variable {year month day j k : Nat}

theorem daysInMonth_pos : 0 < daysInMonth year month := by
  unfold daysInMonth
  split
  · split <;> decide
  · split <;> decide

theorem daysBeforeMonth_succ (h : 1 ≤ month) :
    daysBeforeMonth year (month + 1) = daysBeforeMonth year month + daysInMonth year month := by
  obtain ⟨m, rfl⟩ : ∃ m, month = m + 1 := ⟨month - 1, by omega⟩
  unfold daysBeforeMonth
  rw [Nat.add_sub_cancel, Nat.add_sub_cancel, List.range'_1_concat, List.map_append,
    List.sum_append, Nat.add_comm 1 m]
  rfl

/-- A year has 365 days, and a leap year one more. -/
theorem daysBeforeMonth_thirteen :
    daysBeforeMonth year 13 = if isLeap year then 366 else 365 := by
  have hdays : (List.range' 1 12).map (daysInMonth year) =
      [31, if isLeap year then 29 else 28, 31, 30, 31, 30, 31, 31, 30, 31, 30, 31] := rfl
  show ((List.range' 1 12).map (daysInMonth year)).sum = _
  rw [hdays]
  cases isLeap year with
  | true => rfl
  | false => rfl

/-- A multiple of `n` is one more than the number before it has. -/
theorem succ_div (y n : Nat) :
    (y + 1) / n = y / n + if (y + 1) % n = 0 then 1 else 0 := by
  rw [Nat.succ_div]
  exact congrArg (y / n + ·) (if_congr Nat.dvd_iff_mod_eq_zero rfl rfl)

theorem daysBeforeYear_succ (h : 1 ≤ year) :
    daysBeforeYear (year + 1) = daysBeforeYear year + daysBeforeMonth year 13 := by
  obtain ⟨y, rfl⟩ : ∃ y, year = y + 1 := ⟨year - 1, by omega⟩
  -- The leap days of both years count from the same divisions.
  have hfour : (y + 1) / 100 ≤ (y + 1) / 4 ∧ y / 100 ≤ y / 4 := by omega
  have hcentury : (y + 1) % 100 = 0 → (y + 1) % 4 = 0 := by omega
  have hcenturies : (y + 1) % 400 = 0 → (y + 1) % 100 = 0 := by omega
  rw [daysBeforeMonth_thirteen]
  unfold daysBeforeYear isLeap
  rw [Nat.add_sub_cancel, Nat.add_sub_cancel, succ_div y 4, succ_div y 100, succ_div y 400]
  -- What is left is about three remainders, by cases.
  rw [succ_div y 4, succ_div y 100] at hfour
  generalize (y + 1) % 400 = c at hcenturies ⊢
  generalize (y + 1) % 100 = b at hcentury hcenturies hfour ⊢
  generalize (y + 1) % 4 = a at hcentury hfour ⊢
  generalize y / 4 = d, y / 100 = e, y / 400 = f at hfour ⊢
  by_cases ha : a = 0
  · by_cases hb : b = 0
    · by_cases hc : c = 0
      · simp [ha, hb, hc] at hfour ⊢
        omega
      · simp [ha, hb, hc] at hfour ⊢
        omega
    · have hc : c ≠ 0 := fun hc => hb (hcenturies hc)
      simp [ha, hb, hc] at hfour ⊢
      omega
  · have hb : b ≠ 0 := fun hb => ha (hcentury hb)
    have hc : c ≠ 0 := fun hc => hb (hcenturies hc)
    simp [ha, hb, hc] at hfour ⊢
    omega

/-- A month ends where the next one begins. -/
theorem firstOf_succ (h : 12 ≤ k) :
    firstOf (k + 1) = firstOf k + daysInMonth (k / 12) (k % 12 + 1) := by
  unfold firstOf ymdToOrd
  by_cases hyear : k % 12 = 11
  · have hnext : (k + 1) / 12 = k / 12 + 1 ∧ (k + 1) % 12 = 0 := by omega
    have hjanuary : daysBeforeMonth (k / 12 + 1) (0 + 1) = 0 := rfl
    have hdecember : daysBeforeMonth (k / 12) 13 =
        daysBeforeMonth (k / 12) (11 + 1) + daysInMonth (k / 12) (11 + 1) :=
      daysBeforeMonth_succ (by decide)
    rw [hnext.1, hnext.2, hjanuary, daysBeforeYear_succ (by omega), hyear]
    omega
  · have hnext : (k + 1) / 12 = k / 12 ∧ (k + 1) % 12 = k % 12 + 1 := by omega
    rw [hnext.1, hnext.2, daysBeforeMonth_succ (by omega)]
    omega

/-- **Later months begin later.** -/
theorem firstOf_lt_firstOf (hj : 12 ≤ j) (h : j < k) : firstOf j < firstOf k := by
  induction k, h using Nat.le_induction with
  | base =>
    rw [firstOf_succ hj]
    exact Nat.lt_add_of_pos_right daysInMonth_pos
  | succ k hk ih =>
    rw [firstOf_succ (by omega)]
    exact Nat.lt_add_right _ ih

theorem firstOf_le_firstOf (hj : 12 ≤ j) (h : j ≤ k) : firstOf j ≤ firstOf k := by
  rcases Nat.eq_or_lt_of_le h with rfl | h
  · exact Nat.le_refl _
  · exact Nat.le_of_lt (firstOf_lt_firstOf hj h)

/-- The first day of a month, by its number. -/
theorem firstOf_monthNumber (hmonth : 1 ≤ month) (hmonth' : month ≤ 12) :
    firstOf (monthNumber year month) = ymdToOrd year month 1 := by
  have hnumber : monthNumber year month / 12 = year ∧
      monthNumber year month % 12 + 1 = month := by
    unfold monthNumber
    omega
  unfold firstOf
  rw [hnumber.1, hnumber.2]

/-- A date lies in its month. -/
theorem mem_month (hyear : 1 ≤ year) (hmonth : 1 ≤ month) (hmonth' : month ≤ 12) (hday : 1 ≤ day)
    (hday' : day ≤ daysInMonth year month) :
    firstOf (monthNumber year month) ≤ ymdToOrd year month day ∧
      ymdToOrd year month day < firstOf (monthNumber year month + 1) := by
  have hnumber : monthNumber year month / 12 = year ∧
      monthNumber year month % 12 + 1 = month := by
    unfold monthNumber
    omega
  rw [firstOf_succ (by unfold monthNumber; omega), firstOf_monthNumber hmonth hmonth',
    hnumber.1, hnumber.2]
  unfold ymdToOrd
  omega

end

end Systems

end RealEstate
