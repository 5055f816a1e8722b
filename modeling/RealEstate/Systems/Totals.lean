import Mathlib.Algebra.BigOperators.Ring.Finset
import Mathlib.Algebra.BigOperators.Group.Finset.Basic
import Mathlib.Algebra.Order.BigOperators.Group.Finset
import RealEstate.Systems.Rows
import RealEstate.Systems.Upsert

/-!
# Sums over the rows of a table

- `total keys rows weight` adds up a weight over the rows under the keys in use. One row
  more, one row less or one row rewritten changes it by that row's weight.
- `Table.gain t k weight`: what the uncommitted version of row `k` adds to the committed one,
  and `Table.drift t weight` the sum of the gains, which is what a commit adds to the total.
  Both are covered by `t`'s locks, so nothing another transaction does moves them.
-/

namespace RealEstate

namespace Systems

variable {K V : Type} [DecidableEq K]

/-- The sum of `weight` over the rows under `keys`. -/
def total (keys : List K) (rows : K → Option V) (weight : V → Int) : Int :=
  ∑ k ∈ keys.toFinset, (rows k).elim 0 weight

variable {keys : List K} {f g : K → Option V} {weight : V → Int} {k : K}

/-- A row is put, rewritten or removed. -/
theorem total_update (hk : k ∈ keys)
    (h : ∀ j, j ≠ k → (g j).elim 0 weight = (f j).elim 0 weight) :
    total keys g weight + (f k).elim 0 weight = total keys f weight + (g k).elim 0 weight := by
  have hmem : k ∈ keys.toFinset := List.mem_toFinset.mpr hk
  have hrest : ∑ j ∈ keys.toFinset.erase k, (g j).elim 0 weight =
      ∑ j ∈ keys.toFinset.erase k, (f j).elim 0 weight :=
    Finset.sum_congr rfl fun j hj => h j (Finset.ne_of_mem_erase hj)
  have hf := Finset.add_sum_erase keys.toFinset (fun j => (f j).elim 0 weight) hmem
  have hg := Finset.add_sum_erase keys.toFinset (fun j => (g j).elim 0 weight) hmem
  unfold total
  omega

/-- Keys without rows may be left out. -/
theorem total_of_subset {keys' : List K} (hsub : ∀ k ∈ keys, k ∈ keys')
    (hrows : ∀ {k v}, f k = some v → k ∈ keys) : total keys' f weight = total keys f weight := by
  symm
  refine Finset.sum_subset (fun k hk => ?_) fun k _ hk => ?_
  · exact List.mem_toFinset.mpr (hsub k (List.mem_toFinset.mp hk))
  · cases hv : f k with
    | none => rfl
    | some v => exact absurd (List.mem_toFinset.mpr (hrows hv)) hk

omit [DecidableEq K] in
theorem elim_nonneg (h : ∀ k v, f k = some v → 0 ≤ weight v) (k : K) :
    0 ≤ (f k).elim 0 weight := by
  cases hv : f k with
  | none => exact le_refl _
  | some v => exact h k v hv

theorem total_nonneg (h : ∀ k v, f k = some v → 0 ≤ weight v) : 0 ≤ total keys f weight :=
  Finset.sum_nonneg fun k _ => elim_nonneg h k

/-- One row weighs no more than all of them. -/
theorem weight_le_total (h : ∀ k v, f k = some v → 0 ≤ weight v) {v : V} (hk : k ∈ keys)
    (hv : f k = some v) : weight v ≤ total keys f weight := by
  have hle := Finset.single_le_sum (fun j _ => elim_nonneg h j) (List.mem_toFinset.mpr hk)
  rw [hv] at hle
  exact hle

theorem total_eq_zero (h : ∀ k, (f k).elim 0 weight = 0) : total keys f weight = 0 :=
  Finset.sum_eq_zero fun k _ => h k

/-- Counting rows is adding up ones. -/
theorem total_eq_card (p : V → Bool) :
    total keys f (fun v => if p v then 1 else 0) =
      ((keys.toFinset.filter fun k => (f k).any p).card : Int) := by
  rw [Finset.card_filter, Nat.cast_sum]
  refine Finset.sum_congr rfl fun k _ => ?_
  cases f k with
  | none => rfl
  | some v => by_cases hp : p v <;> simp [hp]

/-- Counting rows is adding up ones, key by key. -/
theorem total_eq_countP (hkeys : keys.Nodup) (p : V → Bool) :
    total keys f (fun v => if p v then 1 else 0) = (keys.countP fun k => (f k).any p : Nat) := by
  rw [total_eq_card, ← List.toFinset_filter,
    List.toFinset_card_of_nodup (hkeys.filter _), List.countP_eq_length_filter]

/-! ### Committed rows -/

namespace Rows

variable (rows : Rows K V) (k : K)

/-- A row put in place of another. -/
theorem total_put (r : V) (weight : V → Int) :
    total (rows.put k r).keys (rows.put k r).row weight + (rows.row k).elim 0 weight =
      total rows.keys rows.row weight + weight r := by
  have hsub : ∀ j ∈ rows.keys, j ∈ (rows.put k r).keys := by
    intro j hj
    show j ∈ if k ∈ rows.keys then rows.keys else rows.keys ++ [k]
    split
    · exact hj
    · exact List.mem_append_left _ hj
  have hmem := (rows.put k r).row_keys (row_put_self rows k r)
  have hold : total (rows.put k r).keys rows.row weight = total rows.keys rows.row weight :=
    total_of_subset hsub rows.row_keys
  have hnew : total (rows.put k r).keys (rows.put k r).row weight + (rows.row k).elim 0 weight =
      total (rows.put k r).keys rows.row weight + ((rows.put k r).row k).elim 0 weight :=
    total_update hmem fun j hj => by rw [row_put_of_ne rows r hj]
  rw [hold, row_put_self] at hnew
  exact hnew

theorem total_delete (weight : V → Int) :
    total (rows.delete k).keys (rows.delete k).row weight + (rows.row k).elim 0 weight =
      total rows.keys rows.row weight := by
  have hrow : (rows.delete k).row k = none := Function.update_self ..
  by_cases hk : k ∈ rows.keys
  · have hnew : total rows.keys (rows.delete k).row weight + (rows.row k).elim 0 weight =
        total rows.keys rows.row weight + ((rows.delete k).row k).elim 0 weight :=
      total_update hk fun j hj => by
        rw [show (rows.delete k).row j = rows.row j from Function.update_of_ne hj ..]
    rw [hrow] at hnew
    exact hnew.trans (add_zero _)
  · have hnone : rows.row k = none := by
      cases hr : rows.row k with
      | none => rfl
      | some r => exact absurd (rows.row_keys hr) hk
    have hsame : (rows.delete k).row = rows.row :=
      (congrArg (Function.update rows.row k) hnone.symm).trans (Function.update_eq_self ..)
    rw [hsame, hnone]
    exact add_zero _

end Rows

/-! ### What a transaction adds -/

namespace Table

variable {T : Type}

/-- The weight `t` has added to row `k` and not committed. -/
def gain (tb : Table K V T) (t : T) (k : K) (weight : V → Int) : Int :=
  (tb.visible t k).elim 0 weight - (tb.rows k).elim 0 weight

/-- The weight `t` has added to the whole table and not committed. -/
def drift (tb : Table K V T) (t : T) (weight : V → Int) : Int :=
  ∑ k ∈ tb.keys.toFinset, tb.gain t k weight

variable {tb tb' : Table K V T} {t u : T} {v : Option V}

omit [DecidableEq K] in
theorem gain_of_clean (h : tb.dirty t k = none) : tb.gain t k weight = 0 := by
  rw [gain, visible_of_clean h]
  omega

omit [DecidableEq K] in
/-- A key that is not in use was not written either. -/
theorem gain_of_not_mem (h : k ∉ tb.keys) : tb.gain t k weight = 0 := by
  refine gain_of_clean ?_
  cases hd : tb.dirty t k with
  | none => rfl
  | some v => exact absurd (tb.lock_keys (tb.dirty_lock hd)) h

/-- The drift may be summed over more keys than are in use. -/
theorem drift_eq_sum {keys : List K} (h : ∀ k ∈ tb.keys, k ∈ keys) :
    tb.drift t weight = ∑ k ∈ keys.toFinset, tb.gain t k weight := by
  refine Finset.sum_subset (fun k hk => ?_) fun k _ hk => ?_
  · exact List.mem_toFinset.mpr (h k (List.mem_toFinset.mp hk))
  · exact gain_of_not_mem fun hmem => hk (List.mem_toFinset.mpr hmem)

/-- The total `t` sees, and a commit publishes. -/
theorem total_visible (tb : Table K V T) (t : T) (weight : V → Int) :
    total tb.keys (tb.visible t) weight = total tb.keys tb.rows weight + tb.drift t weight := by
  have hdrift : tb.drift t weight =
      total tb.keys (tb.visible t) weight - total tb.keys tb.rows weight :=
    Finset.sum_sub_distrib ..
  omega

/-- A transaction that wrote nothing gains nothing. -/
theorem drift_of_clean (h : ∀ k, tb.dirty t k = none) : tb.drift t weight = 0 :=
  Finset.sum_eq_zero fun k _ => gain_of_clean (h k)

omit [DecidableEq K] in
/-- A row `t` has rewritten is locked, and one it has not adds nothing. -/
theorem SameFor.gain (h : SameFor t tb tb') (k : K) (weight : V → Int) :
    tb'.gain t k weight = tb.gain t k weight := by
  cases hd : tb.dirty t k with
  | none => rw [gain_of_clean hd, gain_of_clean ((h.dirty k).trans hd)]
  | some v =>
    have hl := tb.dirty_lock hd
    rw [Table.gain, Table.gain, h.visible hl, h.rows k hl]

theorem SameFor.drift (h : SameFor t tb tb') (hkeys : ∀ k ∈ tb.keys, k ∈ tb'.keys)
    (weight : V → Int) : tb'.drift t weight = tb.drift t weight := by
  rw [drift_eq_sum hkeys]
  exact Finset.sum_congr rfl fun k _ => h.gain k weight

omit [DecidableEq K] in
theorem Wrote.subset_keys (h : Wrote t k v tb tb') : ∀ j ∈ tb.keys, j ∈ tb'.keys := by
  intro j hj
  rcases h.keys with heq | ⟨-, heq⟩
  · rw [heq]
    exact hj
  · rw [heq]
    exact List.mem_cons_of_mem _ hj

omit [DecidableEq K] in
theorem Wrote.gain_self (h : Wrote t k v tb tb') (weight : V → Int) :
    tb'.gain t k weight =
      tb.gain t k weight + v.elim 0 weight - (tb.visible t k).elim 0 weight := by
  rw [gain, gain, h.visible_self, h.rows]
  omega

omit [DecidableEq K] in
theorem Wrote.gain_rest (h : Wrote t k v tb tb') {j : K} (hj : j ≠ k) (weight : V → Int) :
    tb'.gain t j weight = tb.gain t j weight := by
  rw [gain, gain, h.visible_rest hj, h.rows]

/-- A write moves the drift by the difference of the two versions. -/
theorem Wrote.drift (h : Wrote t k v tb tb') (weight : V → Int) :
    tb'.drift t weight =
      tb.drift t weight + v.elim 0 weight - (tb.visible t k).elim 0 weight := by
  have hmem : k ∈ tb'.keys.toFinset := List.mem_toFinset.mpr h.mem_keys
  have hold : tb.drift t weight = ∑ j ∈ tb'.keys.toFinset, tb.gain t j weight :=
    drift_eq_sum h.subset_keys
  have hrest : ∑ j ∈ tb'.keys.toFinset.erase k, tb'.gain t j weight =
      ∑ j ∈ tb'.keys.toFinset.erase k, tb.gain t j weight :=
    Finset.sum_congr rfl fun j hj => h.gain_rest (Finset.ne_of_mem_erase hj) weight
  have hnew : tb'.drift t weight = _ :=
    (Finset.add_sum_erase _ (fun j => tb'.gain t j weight) hmem).symm
  have hsplit := Finset.add_sum_erase _ (fun j => tb.gain t j weight) hmem
  have hself := h.gain_self weight
  omega

end Table

end Systems

end RealEstate
