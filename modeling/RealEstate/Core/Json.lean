import RealEstate.Core.Base

/-!
# Equality and update of JSON values

- `Json.same`: `==` of two values. Objects are compared field by field, in the order in
  which `JSONB` keeps them; it decides equality.
- `Json.truthy`: `bool(value)`.
- `JsonObject.set`: `{**o, key: value}`.
-/

namespace RealEstate

namespace Core

mutual

/-- `==`. -/
def Json.same : Json → Json → Bool
  | .null, .null => true
  | .bool a, .bool b => a = b
  | .num a, .num b => a = b
  | .str a, .str b => a = b
  | .arr xs, .arr ys => Json.sameItems xs ys
  | .obj xs, .obj ys => Json.sameFields xs ys
  | _, _ => false

/-- Equality of arrays, item by item. -/
def Json.sameItems : List Json → List Json → Bool
  | [], [] => true
  | x :: xs, y :: ys => Json.same x y && Json.sameItems xs ys
  | _, _ => false

/-- Equality of objects, in the order of their keys. -/
def Json.sameFields : List (String × Json) → List (String × Json) → Bool
  | [], [] => true
  | (k, x) :: xs, (l, y) :: ys => decide (k = l) && Json.same x y && Json.sameFields xs ys
  | _, _ => false

end

mutual

theorem Json.same_iff : ∀ a b : Json, a.same b = true ↔ a = b
  | .null, b => by cases b <;> simp [Json.same]
  | .bool a, b => by cases b <;> simp [Json.same]
  | .num a, b => by cases b <;> simp [Json.same]
  | .str a, b => by cases b <;> simp [Json.same]
  | .arr xs, b => by cases b <;> simp [Json.same, Json.sameItems_iff xs]
  | .obj xs, b => by cases b <;> simp [Json.same, Json.sameFields_iff xs]

theorem Json.sameItems_iff : ∀ xs ys : List Json, Json.sameItems xs ys = true ↔ xs = ys
  | [], ys => by cases ys <;> simp [Json.sameItems]
  | x :: xs, ys => by
    cases ys with
    | nil => simp [Json.sameItems]
    | cons y ys => simp [Json.sameItems, Json.same_iff x, Json.sameItems_iff xs]

theorem Json.sameFields_iff :
    ∀ xs ys : List (String × Json), Json.sameFields xs ys = true ↔ xs = ys
  | [], ys => by cases ys <;> simp [Json.sameFields]
  | (k, x) :: xs, ys => by
    cases ys with
    | nil => simp [Json.sameFields]
    | cons y ys => simp [Json.sameFields, Json.same_iff x, Json.sameFields_iff xs, Prod.ext_iff]

end

/-- As `Json.same` says. -/
instance : DecidableEq Json := fun a b => decidable_of_iff _ (Json.same_iff a b)

/-- `bool(value)`. -/
def Json.truthy : Json → Bool
  | .null => false
  | .bool b => b
  | .num n => n ≠ 0
  | .str s => s ≠ ""
  | .arr xs => !xs.isEmpty
  | .obj fields => !fields.isEmpty

namespace JsonObject

/-- `{**o, key: value}`. -/
def set (key : String) (value : Json) : JsonObject → JsonObject
  | [] => [(key, value)]
  | (k, v) :: o => if k = key then (key, value) :: o else (k, v) :: set key value o

theorem lookup_set_self (key : String) (value : Json) (o : JsonObject) :
    (set key value o).lookup key = some value := by
  induction o with
  | nil => simp [set]
  | cons field o ih =>
    rw [set]
    split
    · simp
    · next hne => rw [List.lookup_cons, beq_false_of_ne (Ne.symm hne), ih]

theorem lookup_set_of_ne {key k : String} (hk : k ≠ key) (value : Json) (o : JsonObject) :
    (set key value o).lookup k = o.lookup k := by
  induction o with
  | nil => simp [set, hk]
  | cons field o ih =>
    rw [set]
    split
    · next heq =>
      have hfield : k ≠ field.1 := fun h => hk (h.trans heq)
      rw [List.lookup_cons, List.lookup_cons, beq_false_of_ne hk, beq_false_of_ne hfield]
    · rw [List.lookup_cons, List.lookup_cons, ih]

end JsonObject

end Core

end RealEstate
