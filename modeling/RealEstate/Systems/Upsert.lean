import RealEstate.Systems.Table

/-!
# Inserts that meet a row

PostgreSQL's `INSERT … ON CONFLICT` on the primary key of a `Table`.

- `insertIgnore`: `DO NOTHING`, with whether it inserted. A row that is visible is left
  alone and not locked; behind another transaction's uncommitted insert it waits.
- `upsert`: `DO UPDATE`, on the row as it is once its lock is granted.
- `Wrote`: what writing one row does, however it came about.
-/

namespace RealEstate

namespace Systems

namespace Table

universe u

variable {K V T : Type u} [DecidableEq K] [DecidableEq T]

/-- `INSERT … ON CONFLICT DO NOTHING`. -/
def insertIgnore (tb : Table K V T) (t : T) (k : K) (v : V) : Option (Table K V T × Bool) :=
  if (tb.visible t k).isSome then some (tb, false)
  else if k ∈ tb.keys then (tb.write t k (some v)).map (·, true)
  else (tb.insert t k v).map (·, true)

/-- `INSERT … ON CONFLICT DO UPDATE`. -/
def upsert (tb : Table K V T) (t : T) (k : K) (f : Option V → V) : Option (Table K V T) :=
  if k ∈ tb.keys then tb.write t k (some (f (tb.visible t k)))
  else tb.insert t k (f none)

/-- Transaction `t` wrote the version `v` of row `k`, and holds its lock. -/
structure Wrote (t : T) (k : K) (v : Option V) (tb tb' : Table K V T) : Prop where
  rows : tb'.rows = tb.rows
  keys : tb'.keys = tb.keys ∨ (k ∉ tb.keys ∧ tb'.keys = k :: tb.keys)
  mem_keys : k ∈ tb'.keys
  self : tb'.dirty t k = some v
  rest : ∀ j, j ≠ k → tb'.dirty t j = tb.dirty t j
  lock : ∀ j, tb'.lock j = some t ↔ j = k ∨ tb.lock j = some t
  other : ∀ u, u ≠ t → SameFor u tb tb'

variable {tb tb' : Table K V T} {t : T} {k : K}

omit [DecidableEq K] [DecidableEq T] in
theorem Wrote.visible_self {v : Option V} (h : Wrote t k v tb tb') : tb'.visible t k = v :=
  visible_of_dirty h.self

omit [DecidableEq K] [DecidableEq T] in
theorem Wrote.visible_rest {v : Option V} (h : Wrote t k v tb tb') {j : K} (hj : j ≠ k) :
    tb'.visible t j = tb.visible t j := by
  rw [visible, visible, h.rest j hj, h.rows]

omit [DecidableEq K] [DecidableEq T] in
/-- A key that was not in use had no row to see. -/
theorem visible_of_not_mem (h : k ∉ tb.keys) : tb.visible t k = none := by
  cases hv : tb.visible t k with
  | none => rfl
  | some v => exact absurd (visible_keys hv) h

theorem wrote_of_write {v : Option V} (h : tb.write t k v = some tb') : Wrote t k v tb tb' := by
  obtain ⟨hk, rfl⟩ := write_eq_some.mp h
  exact {
    rows := rfl
    keys := .inl rfl
    mem_keys := hk.1
    self := setDirty_self ..
    rest := fun j hj => setDirty_of_ne_key hj
    lock := fun j => written_lock_self hk
    other := fun u hu => written_sameFor hu hk }

theorem wrote_of_insert {v : V} (h : tb.insert t k v = some tb') :
    Wrote t k (some v) tb tb' := by
  obtain ⟨hk, rfl⟩ := insert_eq_some.mp h
  exact {
    rows := rfl
    keys := .inr ⟨hk, rfl⟩
    mem_keys := List.mem_cons_self
    self := setDirty_self ..
    rest := fun j hj => setDirty_of_ne_key hj
    lock := fun j => inserted_lock_self hk
    other := fun u hu => inserted_sameFor hu hk }

/-- An upsert writes what it makes of the row it meets. -/
theorem wrote_of_upsert {f : Option V → V} (h : tb.upsert t k f = some tb') :
    Wrote t k (some (f (tb.visible t k))) tb tb' := by
  unfold upsert at h
  split at h
  · exact wrote_of_write h
  · next hk =>
    rw [visible_of_not_mem hk]
    exact wrote_of_insert h

/-- An insert that meets no row writes it; one that does leaves the table as it is. -/
theorem insertIgnore_cases {v : V} {inserted : Bool}
    (h : tb.insertIgnore t k v = some (tb', inserted)) :
    (inserted = false ∧ tb' = tb ∧ ∃ w, tb.visible t k = some w) ∨
      (inserted = true ∧ tb.visible t k = none ∧ Wrote t k (some v) tb tb') := by
  unfold insertIgnore at h
  split at h
  · next hvisible =>
    cases h
    exact .inl ⟨rfl, rfl, Option.isSome_iff_exists.mp hvisible⟩
  · next hnone =>
    have hnone := Option.not_isSome_iff_eq_none.mp hnone
    split at h
    · obtain ⟨written, hwrite, heq⟩ := Option.map_eq_some_iff.mp h
      cases heq
      exact .inr ⟨rfl, hnone, wrote_of_write hwrite⟩
    · obtain ⟨written, hinsert, heq⟩ := Option.map_eq_some_iff.mp h
      cases heq
      exact .inr ⟨rfl, hnone, wrote_of_insert hinsert⟩

end Table

end Systems

end RealEstate
