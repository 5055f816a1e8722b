import Mathlib.Data.List.Basic

/-!
# Expected errors (`core/exceptions.py`)

An `AppError` is raised by a service and ends its request: the request's
transaction is rolled back and the handler renders the error.
-/

namespace RealEstate

namespace Core

/-- The subclasses of `AppError` the services below raise. -/
inductive ErrorKind where
  | notFound
  | conflict
  | permissionDenied
  | unauthorized
  | breachedPassword
  | featureNotConfigured
  | idempotencyConflict
  | quotaExceeded
  deriving DecidableEq, Repr

/-- `AppError`: the class, and the text of its `detail`. -/
structure AppError where
  kind : ErrorKind
  detail : String
  deriving DecidableEq, Repr

/-- What a call that did not raise returned. -/
theorem map_eq_ok {α β : Type} {f : α → β} {e : Except AppError α} {b : β}
    (h : e.map f = .ok b) : ∃ a, e = .ok a ∧ f a = b := by
  cases e with
  | error => cases h
  | ok a => exact ⟨a, rfl, Except.ok.inj h⟩

/-- Neither of two calls in a row raised. -/
theorem bind_eq_ok {ε α β : Type} {f : α → Except ε β} {e : Except ε α} {b : β}
    (h : (e >>= f) = .ok b) : ∃ a, e = .ok a ∧ f a = .ok b := by
  cases e with
  | error => cases h
  | ok a => exact ⟨a, rfl, h⟩

/-- A result, if there is no error. -/
theorem toOption_eq_some {α : Type} {e : Except AppError α} {a : α} (h : e.toOption = some a) :
    e = .ok a := by
  cases e with
  | error => cases h
  | ok b =>
    cases h
    rfl

end Core

end RealEstate
