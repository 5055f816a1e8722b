import RealEstate.Systems.Upsert

/-!
# Unique indexes

A unique index of a `Table` gives some row versions a key, and no two rows may share one. The
check is made when a version is written: it fails on a row the transaction sees under the same
key, and waits for another transaction whose uncommitted version has it.

- `Admits`: the check passes.
- `UniqueOn`: the committed rows, the rows any transaction sees, and the uncommitted versions of
  all transactions each have at most one row to a key. Admitted writes, commits and rollbacks
  keep it.
-/

namespace RealEstate

namespace Systems

namespace Table

universe u v

variable {K V T : Type u} {I : Type v}

/-- The uncommitted version of a row, whoever wrote it. -/
def pending (tb : Table K V T) (k : K) : Option (Option V) :=
  (tb.lock k).bind fun t => tb.dirty t k

/-- A write that is not yet committed. -/
theorem pending_eq_some {tb : Table K V T} {k : K} {w : Option V} :
    tb.pending k = some w ↔ ∃ t, tb.dirty t k = some w := by
  rw [pending, Option.bind_eq_some_iff]
  constructor
  · rintro ⟨t, -, hd⟩
    exact ⟨t, hd⟩
  · rintro ⟨t, hd⟩
    exact ⟨t, tb.dirty_lock hd, hd⟩

/-- The row version is in the index under `i`. -/
def Under (ix : V → Option I) (i : I) (row : Option V) : Prop := row.bind ix = some i

/-- A comparison of keys. -/
instance [DecidableEq I] (ix : V → Option I) (i : I) (row : Option V) :
    Decidable (Under ix i row) :=
  inferInstanceAs (Decidable (_ = _))

/-- Transaction `t` may write the version `v` of row `k`: no other row it sees has the key, and
no other row is about to have it. -/
def Admits (tb : Table K V T) (ix : V → Option I) (t : T) (k : K) (v : V) : Prop :=
  match ix v with
  | none => True
  | some i => ∀ j ∈ tb.keys, j ≠ k →
      ¬ Under ix i (tb.visible t j) ∧ ¬ Under ix i (tb.pending j).join

/-- Over the rows. -/
instance [DecidableEq I] [DecidableEq K] (tb : Table K V T) (ix : V → Option I) (t : T) (k : K)
    (v : V) : Decidable (tb.Admits ix t k v) := by
  unfold Admits
  cases ix v with
  | none => exact inferInstanceAs (Decidable True)
  | some i => exact inferInstanceAs (Decidable (∀ j ∈ tb.keys, _))

/-- No two rows under one key. -/
structure UniqueOn (ix : V → Option I) (tb : Table K V T) : Prop where
  committed : ∀ {i j k}, Under ix i (tb.rows j) → Under ix i (tb.rows k) → j = k
  visible : ∀ {t i j k}, Under ix i (tb.visible t j) → Under ix i (tb.visible t k) → j = k
  pending : ∀ {i j k}, Under ix i (tb.pending j).join → Under ix i (tb.pending k).join → j = k

variable {ix : V → Option I} {tb tb' : Table K V T} {t u : T} {i : I} {j k : K}

/-- A pending row under a key. -/
theorem under_pending :
    Under ix i (tb.pending j).join ↔ ∃ t v, tb.dirty t j = some (some v) ∧ ix v = some i := by
  constructor
  · intro h
    obtain ⟨v, hv, hix⟩ := Option.bind_eq_some_iff.1 h
    obtain ⟨t, hd⟩ := pending_eq_some.1 (Option.join_eq_some_iff.1 hv)
    exact ⟨t, v, hd, hix⟩
  · rintro ⟨t, v, hd, hix⟩
    have hp : tb.pending j = some (some v) := pending_eq_some.2 ⟨t, hd⟩
    rw [hp]
    exact hix

theorem UniqueOn.empty : UniqueOn ix (.empty : Table K V T) where
  committed h := nomatch h
  visible h := nomatch h
  pending h := nomatch h

/-- Locking a row leaves the index as it is. -/
theorem UniqueOn.of_same (h : UniqueOn ix tb) (hrows : tb'.rows = tb.rows)
    (hdirty : tb'.dirty = tb.dirty) : UniqueOn ix tb' where
  committed hj hk := by
    rw [hrows] at hj hk
    exact h.committed hj hk
  visible {t i j k} hj hk := by
    have hsame : ∀ k, tb'.visible t k = tb.visible t k := by
      intro k
      rw [Table.visible, Table.visible, hrows, hdirty]
    rw [hsame] at hj hk
    exact h.visible hj hk
  pending hj hk := by
    rw [under_pending, hdirty] at hj hk
    exact h.pending (under_pending.2 hj) (under_pending.2 hk)

/-- An admitted write of one row. -/
theorem UniqueOn.wrote {v : V} (h : UniqueOn ix tb) (hw : Wrote t k (some v) tb tb')
    (hadmits : tb.Admits ix t k v) : UniqueOn ix tb' := by
  -- another row under the written key would have been met by the check
  have hnew : ∀ {i j}, ix v = some i → j ≠ k →
      Under ix i (tb.visible t j) ∨ Under ix i (tb.pending j).join → False := by
    intro i j hi hj hunder
    rw [Admits, hi] at hadmits
    have hkey : j ∈ tb.keys := by
      rcases hunder with hunder | hunder
      · obtain ⟨w, hvisible, -⟩ := Option.bind_eq_some_iff.1 hunder
        exact visible_keys hvisible
      · obtain ⟨u, w, hd, -⟩ := under_pending.1 hunder
        exact tb.lock_keys (tb.dirty_lock hd)
    obtain ⟨hvisible, hpending⟩ := hadmits j hkey hj
    exact hunder.elim hvisible hpending
  have hpend : ∀ {i j}, j ≠ k → Under ix i (tb'.pending j).join →
      Under ix i (tb.pending j).join := by
    intro i j hj hunder
    obtain ⟨u, w, hd, hix⟩ := under_pending.1 hunder
    refine under_pending.2 ⟨u, w, ?_, hix⟩
    by_cases hu : u = t
    · subst hu
      exact (hw.rest j hj).symm.trans hd
    · exact ((hw.other u hu).dirty j).symm.trans hd
  have hself : ∀ {i}, Under ix i (tb'.pending k).join → ix v = some i := by
    intro i hunder
    obtain ⟨u, w, hd, hix⟩ := under_pending.1 hunder
    obtain rfl := dirty_unique hw.self hd
    cases hw.self.symm.trans hd
    exact hix
  constructor
  case committed =>
    intro i j l hj hl
    rw [hw.rows] at hj hl
    exact h.committed hj hl
  case visible =>
    intro u i j l hj hl
    by_cases hu : u = t
    · subst hu
      by_cases hjk : j = k <;> by_cases hlk : l = k
      · rw [hjk, hlk]
      · rw [hjk, hw.visible_self] at hj
        rw [hw.visible_rest hlk] at hl
        exact (hnew hj hlk (.inl hl)).elim
      · rw [hlk, hw.visible_self] at hl
        rw [hw.visible_rest hjk] at hj
        exact (hnew hl hjk (.inl hj)).elim
      · rw [hw.visible_rest hjk] at hj
        rw [hw.visible_rest hlk] at hl
        exact h.visible hj hl
    · have hsame : ∀ k, tb'.visible u k = tb.visible u k := by
        intro k
        rw [Table.visible, Table.visible, hw.rows, (hw.other u hu).dirty]
      rw [hsame] at hj hl
      exact h.visible hj hl
  case pending =>
    intro i j l hj hl
    by_cases hjk : j = k <;> by_cases hlk : l = k
    · rw [hjk, hlk]
    · subst hjk
      exact (hnew (hself hj) hlk (.inr (hpend hlk hl))).elim
    · subst hlk
      exact (hnew (hself hl) hjk (.inr (hpend hjk hj))).elim
    · exact h.pending (hpend hjk hj) (hpend hlk hl)

variable [DecidableEq T]

/-- A version `u` sees once `t` has committed was written by one of the two, or by neither. -/
theorem under_commit (h : Under ix i ((tb.commit t).visible u j)) :
    (∃ s v, (s = u ∨ s = t) ∧ tb.dirty s j = some (some v) ∧ ix v = some i) ∨
      (tb.dirty u j = none ∧ tb.dirty t j = none ∧ Under ix i (tb.rows j)) := by
  cases hd : (tb.commit t).dirty u j with
  | some w =>
    rw [visible_of_dirty hd] at h
    obtain ⟨v, rfl, hix⟩ := Option.bind_eq_some_iff.1 h
    exact .inl ⟨u, v, .inl rfl, (commit_dirty.1 hd).2, hix⟩
  | none =>
    rw [visible_of_clean hd, commit_rows] at h
    have hclean : u ≠ t → tb.dirty u j = none := fun hu => (if_neg hu).symm.trans hd
    cases ht : tb.dirty t j with
    | some w =>
      rw [visible_of_dirty ht] at h
      obtain ⟨v, rfl, hix⟩ := Option.bind_eq_some_iff.1 h
      exact .inl ⟨t, v, .inr rfl, ht, hix⟩
    | none =>
      rw [visible_of_clean ht] at h
      refine .inr ⟨?_, rfl, h⟩
      by_cases hu : u = t
      · rw [hu, ht]
      · exact hclean hu

/-- A commit publishes a row that was checked. -/
theorem UniqueOn.commit (h : UniqueOn ix tb) (t : T) : UniqueOn ix (tb.commit t) where
  committed hj hk := h.visible hj hk
  visible {u i j k} hj hk := by
    -- a row written by one of the two, and a row written by neither
    have hmixed : ∀ {j k s v}, s = u ∨ s = t → tb.dirty s j = some (some v) → ix v = some i →
        tb.dirty u k = none → tb.dirty t k = none → Under ix i (tb.rows k) → j = k := by
      intro j k s v hs hd hix hu ht hrow
      have hclean : tb.dirty s k = none := by
        rcases hs with rfl | rfl
        · exact hu
        · exact ht
      refine h.visible (t := s) (i := i) ?_ ?_
      · rw [visible_of_dirty hd]
        exact hix
      · rw [visible_of_clean hclean]
        exact hrow
    rcases under_commit hj with ⟨s, v, hs, hd, hix⟩ | ⟨hu, ht, hrow⟩ <;>
      rcases under_commit hk with ⟨s', v', hs', hd', hix'⟩ | ⟨hu', ht', hrow'⟩
    · exact h.pending (under_pending.2 ⟨s, v, hd, hix⟩) (under_pending.2 ⟨s', v', hd', hix'⟩)
    · exact hmixed hs hd hix hu' ht' hrow'
    · exact (hmixed hs' hd' hix' hu ht hrow).symm
    · exact h.committed hrow hrow'
  pending {i j k} hj hk := by
    obtain ⟨u, v, hd, hix⟩ := under_pending.1 hj
    obtain ⟨u', v', hd', hix'⟩ := under_pending.1 hk
    exact h.pending (under_pending.2 ⟨u, v, (commit_dirty.1 hd).2, hix⟩)
      (under_pending.2 ⟨u', v', (commit_dirty.1 hd').2, hix'⟩)

theorem UniqueOn.rollback (h : UniqueOn ix tb) (t : T) : UniqueOn ix (tb.rollback t) where
  committed hj hk := h.committed hj hk
  visible {u i j k} hj hk := by
    by_cases hu : u = t
    · -- it sees the committed rows again
      have hclean : ∀ k, (tb.rollback t).dirty u k = none := fun _ => if_pos hu
      rw [visible_of_clean (hclean _)] at hj hk
      exact h.committed hj hk
    · have hsame : ∀ k, (tb.rollback t).visible u k = tb.visible u k := by
        intro k
        rw [Table.visible, Table.visible, rollback_rows, (rollback_sameFor hu).dirty]
      rw [hsame] at hj hk
      exact h.visible hj hk
  pending {i j k} hj hk := by
    obtain ⟨u, v, hd, hix⟩ := under_pending.1 hj
    obtain ⟨u', v', hd', hix'⟩ := under_pending.1 hk
    exact h.pending (under_pending.2 ⟨u, v, (rollback_dirty.1 hd).2, hix⟩)
      (under_pending.2 ⟨u', v', (rollback_dirty.1 hd').2, hix'⟩)

end Table

end Systems

end RealEstate
