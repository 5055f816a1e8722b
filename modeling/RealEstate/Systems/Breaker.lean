import Mathlib.Data.List.Basic

/-!
# Circuit breakers

A breaker counts failures in a row and opens when they reach a threshold; a success or a
reset starts over.

- `trailing`: the failures at the end of a history.
- `Tracks`: the breaker is what the history makes of it. `Tracks.fail` and `Tracks.over`
  are its two moves.
-/

namespace RealEstate

namespace Systems

/-- A count of failures in a row, and whether the circuit is open. -/
structure Breaker where
  failures : Nat := 0
  isOpen : Bool := false
  deriving DecidableEq

/-- An attempt, or a reset by hand. -/
inductive Attempt where
  | success
  | failure
  | reset
  deriving DecidableEq, Repr

namespace Breaker

/-- One more failure. -/
def fail (threshold : Nat) (b : Breaker) : Breaker where
  failures := b.failures + 1
  isOpen := decide (threshold ≤ b.failures + 1) || b.isOpen

/-- The failures since the last success or reset; the last attempt is at the end. -/
def trailing (history : List Attempt) : Nat :=
  (history.reverse.takeWhile (· = .failure)).length

/-- The breaker counts the failures since the last success or reset, and is open just when they
reach the threshold. -/
structure Tracks (threshold : Nat) (b : Breaker) (history : List Attempt) : Prop where
  failures : b.failures = trailing history
  isOpen : b.isOpen = true ↔ threshold ≤ b.failures

variable {threshold : Nat} {b : Breaker} {history : List Attempt}

theorem trailing_failure (history : List Attempt) :
    trailing (history ++ [.failure]) = trailing history + 1 := by
  simp [trailing]

theorem trailing_over {attempt : Attempt} (h : attempt ≠ .failure) (history : List Attempt) :
    trailing (history ++ [attempt]) = 0 := by
  simp [trailing, h]

theorem tracks_new (h : 0 < threshold) : Tracks threshold {} [] where
  failures := rfl
  isOpen := iff_of_false Bool.false_ne_true (Nat.not_le.2 h)

/-- A success or a reset starts over. -/
theorem tracks_over {attempt : Attempt} (h : 0 < threshold) (hattempt : attempt ≠ .failure) :
    Tracks threshold {} (history ++ [attempt]) where
  failures := (trailing_over hattempt history).symm
  isOpen := iff_of_false Bool.false_ne_true (Nat.not_le.2 h)

/-- The breaker counts failures in a row, and opens at the threshold. -/
theorem Tracks.fail (h : Tracks threshold b history) :
    Tracks threshold (b.fail threshold) (history ++ [.failure]) where
  failures := by
    rw [trailing_failure, ← h.failures]
    rfl
  isOpen := by
    show (decide (threshold ≤ b.failures + 1) || b.isOpen) = true ↔ threshold ≤ b.failures + 1
    rw [Bool.or_eq_true, decide_eq_true_iff, h.isOpen]
    constructor
    · rintro (hreached | hopen)
      · exact hreached
      · exact Nat.le_succ_of_le hopen
    · exact .inl

/-- A closed breaker stays closed below the threshold. -/
theorem fail_closed (h : b.failures + 1 < threshold) (hb : b.isOpen = false) :
    (b.fail threshold).isOpen = false := by
  show (decide (threshold ≤ b.failures + 1) || b.isOpen) = false
  rw [hb, Bool.or_false]
  exact decide_eq_false (Nat.not_le.2 h)

end Breaker

end Systems

end RealEstate
