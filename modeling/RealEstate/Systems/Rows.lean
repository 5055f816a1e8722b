import Mathlib.Logic.Function.Basic

/-!
# A table of committed rows

`Rows K V` is a table as requests that run one after the other see it: rows under
a primary key, and the keys in use.

- `put k v`: an `INSERT`, or an `UPDATE` of the whole row.
- `delete k`, `select p`: a `DELETE`, and the keys of the rows that satisfy `p`.

`row_put` and `row_delete` say what each leaves behind.
-/

namespace RealEstate

namespace Systems

universe u v

/-- Rows by primary key; every row's key is listed. -/
structure Rows (K : Type u) (V : Type v) where
  keys : List K
  row : K → Option V
  row_keys : ∀ {k r}, row k = some r → k ∈ keys

namespace Rows

variable {K : Type u} {V : Type v}

/-- No rows. -/
def empty : Rows K V where
  keys := []
  row _ := none
  row_keys h := nomatch h

@[simp] theorem row_empty (k : K) : (empty : Rows K V).row k = none := rfl

/-- The keys of the rows that satisfy a condition. -/
def select (rows : Rows K V) (p : V → Bool) : List K :=
  rows.keys.filter fun k => (rows.row k).any p

theorem mem_select {rows : Rows K V} {p : V → Bool} {k : K} :
    k ∈ rows.select p ↔ ∃ r, rows.row k = some r ∧ p r = true := by
  rw [select, List.mem_filter, Option.any_eq_true]
  constructor
  · exact And.right
  · rintro ⟨r, hr, hp⟩
    exact ⟨rows.row_keys hr, r, hr, hp⟩

variable [DecidableEq K]

/-- Store a row under a key. -/
def put (rows : Rows K V) (k : K) (r : V) : Rows K V where
  keys := if k ∈ rows.keys then rows.keys else rows.keys ++ [k]
  row := Function.update rows.row k (some r)
  row_keys {j s} h := by
    by_cases hj : j = k
    · subst hj
      split
      · next hmem => exact hmem
      · exact List.mem_append_right _ List.mem_cons_self
    · rw [Function.update_of_ne hj] at h
      split
      · exact rows.row_keys h
      · exact List.mem_append_left _ (rows.row_keys h)

/-- A row less; its key is not used again. -/
def delete (rows : Rows K V) (k : K) : Rows K V where
  keys := rows.keys
  row := Function.update rows.row k none
  row_keys {j s} h := by
    by_cases hj : j = k
    · rw [hj, Function.update_self] at h
      cases h
    · rw [Function.update_of_ne hj] at h
      exact rows.row_keys h

/-- A row of the table after `put` is the one stored, or was there before. -/
theorem row_put {rows : Rows K V} {j k : K} {r s : V} (h : (rows.put k r).row j = some s) :
    (j = k ∧ r = s) ∨ (j ≠ k ∧ rows.row j = some s) := by
  have h : Function.update rows.row k (some r) j = some s := h
  by_cases hj : j = k
  · rw [hj, Function.update_self] at h
    exact .inl ⟨hj, Option.some.inj h⟩
  · rw [Function.update_of_ne hj] at h
    exact .inr ⟨hj, h⟩

@[simp] theorem row_put_self (rows : Rows K V) (k : K) (r : V) :
    (rows.put k r).row k = some r := Function.update_self ..

@[simp] theorem row_put_of_ne (rows : Rows K V) {j k : K} (r : V) (h : j ≠ k) :
    (rows.put k r).row j = rows.row j := Function.update_of_ne h ..

theorem mem_keys_put {rows : Rows K V} {j k : K} {r : V} :
    j ∈ (rows.put k r).keys ↔ j = k ∨ j ∈ rows.keys := by
  show j ∈ (if k ∈ rows.keys then rows.keys else rows.keys ++ [k]) ↔ _
  by_cases hk : k ∈ rows.keys
  · rw [if_pos hk]
    refine ⟨.inr, ?_⟩
    rintro (rfl | h)
    · exact hk
    · exact h
  · rw [if_neg hk, List.mem_append, List.mem_singleton]
    exact or_comm

theorem nodup_keys_put {rows : Rows K V} (h : rows.keys.Nodup) (k : K) (r : V) :
    (rows.put k r).keys.Nodup := by
  show (if k ∈ rows.keys then rows.keys else rows.keys ++ [k]).Nodup
  by_cases hk : k ∈ rows.keys
  · rw [if_pos hk]
    exact h
  · rw [if_neg hk, List.nodup_append]
    refine ⟨h, List.nodup_cons.mpr ⟨List.not_mem_nil, List.nodup_nil⟩, fun j hj j' hj' heq => ?_⟩
    obtain rfl := List.mem_singleton.mp hj'
    exact hk (heq ▸ hj)

theorem row_delete {rows : Rows K V} {j k : K} {s : V} (h : (rows.delete k).row j = some s) :
    j ≠ k ∧ rows.row j = some s := by
  have h : Function.update rows.row k none j = some s := h
  by_cases hj : j = k
  · rw [hj, Function.update_self] at h
    cases h
  · rw [Function.update_of_ne hj] at h
    exact ⟨hj, h⟩

end Rows

end Systems

end RealEstate
