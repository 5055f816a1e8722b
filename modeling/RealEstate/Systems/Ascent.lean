import RealEstate.Systems.Upsert

/-!
# Rows that only move one way

`Ascends R tb`: whatever an open transaction has made of a committed row lies above it in the
preorder `R`. Every write that moves the row it sees along `R` keeps it, and then so does
every commit move the committed rows (`Ascends.commit_rows`).
-/

namespace RealEstate

namespace Systems

namespace Table

universe u

variable {K V T : Type u}

/-- No open transaction has deleted a committed row, or moved it other than along `R`. -/
def Ascends (R : V → V → Prop) (tb : Table K V T) : Prop :=
  ∀ t k v old, tb.dirty t k = some v → tb.rows k = some old → ∃ new, v = some new ∧ R old new

namespace Ascends

variable {R : V → V → Prop} {tb tb' : Table K V T} {t : T} {k : K}

theorem empty : Ascends R (.empty : Table K V T) := fun _ _ _ _ h => nomatch h

/-- What a transaction sees of a committed row. -/
theorem visible (h : Ascends R tb) (hrefl : ∀ v, R v v) {old : V} (hold : tb.rows k = some old) :
    ∃ new, tb.visible t k = some new ∧ R old new := by
  cases hd : tb.dirty t k with
  | none => exact ⟨old, (visible_of_clean hd).trans hold, hrefl old⟩
  | some v =>
    obtain ⟨new, rfl, hR⟩ := h t k v old hd hold
    exact ⟨new, visible_of_dirty hd, hR⟩

theorem published [DecidableEq K] (h : Ascends R tb) {w : V} (hk : k ∉ tb.keys) :
    Ascends R (tb.published k w hk) := by
  intro t j v old hd hold
  have hj : j ≠ k := by
    rintro rfl
    exact hk (tb.lock_keys (tb.dirty_lock hd))
  exact h t j v old hd ((Function.update_of_ne hj ..).symm.trans hold)

/-- A write moves the row the transaction sees along `R`. -/
theorem wrote (h : Ascends R tb) (hrefl : ∀ v, R v v) (htrans : ∀ u v w, R u v → R v w → R u w)
    {new : V} (hwrote : Wrote t k (some new) tb tb')
    (hR : ∀ seen, tb.visible t k = some seen → R seen new) : Ascends R tb' := by
  intro u j v old hd hold
  rw [hwrote.rows] at hold
  by_cases hu : u = t
  · subst hu
    by_cases hj : j = k
    · subst hj
      obtain rfl := Option.some.inj (hwrote.self.symm.trans hd)
      obtain ⟨seen, hseen, hle⟩ := h.visible (t := u) hrefl hold
      exact ⟨new, rfl, htrans old seen new hle (hR seen hseen)⟩
    · exact h u j v old ((hwrote.rest j hj).symm.trans hd) hold
  · exact h u j v old (((hwrote.other u hu).dirty j).symm.trans hd) hold

variable [DecidableEq T]

/-- A commit of writes that ascend. -/
theorem commit (h : Ascends R tb) (t : T) : Ascends R (tb.commit t) := by
  intro u k v old hd hold
  obtain ⟨hne, hd⟩ := commit_dirty.1 hd
  rw [commit_rows_of_lock (tb.dirty_lock hd) hne] at hold
  exact h u k v old hd hold

/-- A committed row is above what it was. -/
theorem commit_rows (h : Ascends R tb) (hrefl : ∀ v, R v v) (t : T) {old : V}
    (hold : tb.rows k = some old) : ∃ new, (tb.commit t).rows k = some new ∧ R old new :=
  h.visible hrefl hold

theorem rollback (h : Ascends R tb) (t : T) : Ascends R (tb.rollback t) := by
  intro u k v old hd hold
  obtain ⟨-, hd⟩ := rollback_dirty.1 hd
  exact h u k v old hd hold

end Ascends

end Table

end Systems

end RealEstate
