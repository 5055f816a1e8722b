import Mathlib.Data.Int.Log
import Mathlib.Data.Rat.Floor
import RealEstate.Systems.JsonText

/-!
# Unix timestamps

`datetime.timestamp` and `datetime.fromtimestamp` between moments, in microseconds since 1970, and
the seconds that a text or a JSON value has for them.

- `roundDouble`: the nearest double.
- `timestamp`: the seconds of a moment, as a double.
- `utcOfSeconds`, `utcOfFloat`: `fromtimestamp(value, tz=UTC)`, with what it raises.
-/

namespace RealEstate

namespace Systems

/-- The nearest integer, and of two the even one. -/
def roundHalfEven (q : ℚ) : ℤ :=
  let n := ⌊q⌋
  if q - n < 1 / 2 then n else if 1 / 2 < q - n then n + 1 else if n % 2 = 0 then n else n + 1

/-- The nearest double, of a number that is not too large for one. -/
def roundDouble (q : ℚ) : ℚ :=
  let e := max (Int.log 2 |q| - 52) (-1074)
  roundHalfEven (q / 2 ^ e) * 2 ^ e

/-- Towards zero: `int(x)`, and the first part of `modf(x)`. -/
def truncate (q : ℚ) : ℤ := if 0 ≤ q then ⌊q⌋ else ⌈q⌉

/-- The double that a decimal is read as. -/
def doubleOf (negative : Bool) (mantissa : Nat) (exponent : ℤ) : ℚ :=
  roundDouble ((if negative then -(mantissa : ℚ) else mantissa) * 10 ^ exponent)

/-- `moment.timestamp()`. -/
def timestamp (moment : ℤ) : ℚ := roundDouble (moment / 1000000)

/-- The years from 1 to 9999. -/
def InYears (seconds : ℤ) : Prop := -62135596800 ≤ seconds ∧ seconds ≤ 253402300799

/-- Two comparisons. -/
instance (seconds : ℤ) : Decidable (InYears seconds) := by
  unfold InYears
  infer_instance

/-- A moment in UTC. The platform may raise an `OSError` for the `ValueError` of a far year. -/
def utcOfMoment (moment : ℤ) : Except PyException ℤ :=
  let seconds := moment / 1000000
  if -2 ^ 63 ≤ seconds ∧ seconds < 2 ^ 63 then
    if InYears seconds then .ok moment else .error .valueError
  else .error .overflowError

/-- `datetime.fromtimestamp(n, tz=UTC)`. -/
def utcOfSeconds (n : ℤ) : Except PyException ℤ := utcOfMoment (n * 1000000)

/-- The microseconds of a number of seconds: the fraction is rounded. -/
def momentOf (q : ℚ) : ℤ :=
  let whole := truncate q
  whole * 1000000 + roundHalfEven (roundDouble ((q - whole) * 1000000))

/-- `datetime.fromtimestamp(x, tz=UTC)`. -/
def utcOfFloat : JsonFloat → Except PyException ℤ
  | .nan => .error .valueError
  | .infinity _ => .error .overflowError
  | .decimal negative mantissa exponent =>
    utcOfMoment (momentOf (doubleOf negative mantissa exponent))

theorem utcOfMoment_ok {moment : ℤ} (h : InYears (moment / 1000000)) :
    utcOfMoment moment = .ok moment := by
  have hbounds := h
  obtain ⟨hlow, hhigh⟩ := hbounds
  rw [utcOfMoment, if_pos (by omega), if_pos h]

theorem utcOfMoment_error {moment : ℤ} (h : ¬InYears (moment / 1000000)) :
    ∃ e, utcOfMoment moment = .error e := by
  rw [utcOfMoment, if_neg h]
  split <;> exact ⟨_, rfl⟩

theorem utcOfSeconds_ok {n : ℤ} (h : InYears n) : utcOfSeconds n = .ok (n * 1000000) :=
  utcOfMoment_ok (by rwa [Int.mul_ediv_cancel n (by decide)])

theorem utcOfSeconds_error {n : ℤ} (h : ¬InYears n) : ∃ e, utcOfSeconds n = .error e :=
  utcOfMoment_error (by rwa [Int.mul_ediv_cancel n (by decide)])

end Systems

end RealEstate
