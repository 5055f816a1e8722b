import Mathlib.Data.List.Basic

/-!
# Values every module of the application passes around

- `Uuid`: identifiers (`uuid4` primary keys, `jti`s, family ids). Only equality of
  identifiers matters, so they are numbers.
- `DateTime`, `Seconds`: aware UTC instants and `timedelta`s, in seconds.
- `Json`: a `JSONB` value; `JsonObject` is a Python `dict` with string keys.
- `TenantContext`: the resolved tenant a request or a worker runs for
  (`core/tenancy.py`).
-/

namespace RealEstate

namespace Core

/-- A `uuid.UUID`. -/
abbrev Uuid := Nat

/-- An aware instant, in seconds. -/
abbrev DateTime := Int

/-- A `timedelta`, in seconds. -/
abbrev Seconds := Int

/-- A JSON value as `JSONB` columns and task arguments carry it. -/
inductive Json where
  | null
  | bool (b : Bool)
  | num (n : Int)
  | str (s : String)
  | arr (xs : List Json)
  | obj (fields : List (String × Json))

/-- A `dict[str, Any]`. -/
abbrev JsonObject := List (String × Json)

namespace JsonObject

/-- `payload.get(key)`; `None` and an absent key are the same. -/
def get (o : JsonObject) (key : String) : Json :=
  (o.lookup key).getD .null

end JsonObject

/-- The resolved tenant attached to a request, or built for a worker run. -/
structure TenantContext where
  id : Uuid
  slug : String
  name : String
  status : String
  settings : JsonObject
  plan : String

end Core

end RealEstate
