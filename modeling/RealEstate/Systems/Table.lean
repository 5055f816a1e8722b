import Mathlib.Data.List.Nodup
import Mathlib.Logic.Function.Basic

/-!
# A table under READ COMMITTED, with row locks

`Table K V T` is one relational table as concurrent transactions see it: the
last *committed* version of every row, the uncommitted versions each open
transaction `t : T` has written, and the row locks. The operations are the
statements a transaction can issue, each one an atomic step:

- `visible t k`: what a plain `SELECT` of row `k` returns inside `t` — its own
  uncommitted version, else the last committed one. Plain reads take no lock
  and see whatever is committed *at that statement* (READ COMMITTED).
- `scan t p`: the keys of the visible rows that satisfy `p`, i.e. the snapshot
  a bulk `UPDATE … WHERE p` starts from. Rows committed later are not in it.
  `select t p` returns the rows themselves, and `load t ks` those under given keys.
- `acquire t k` / `write t k v` / `insert t k v`: `SELECT … FOR UPDATE`, an
  `UPDATE`/`DELETE` of one row, an `INSERT`. They need the row lock, so they are
  `none` (blocked) while another transaction holds it; the lock is kept to the
  end of the transaction.
- `commit t` / `rollback t`: publish or drop `t`'s versions, release its locks.

Row locks are exclusive and cover every uncommitted version (`dirty_lock`, a
field), so an ill-locked table cannot be built. `none` as a row version is a
deleted row.
-/

namespace RealEstate

namespace Systems

universe u

/-- One table: committed rows, uncommitted versions by transaction, row locks.
`keys` lists every key ever inserted, committed or not. -/
structure Table (K V T : Type u) where
  keys : List K
  rows : K → Option V
  dirty : T → K → Option (Option V)
  lock : K → Option T
  keys_nodup : keys.Nodup
  rows_keys : ∀ {k v}, rows k = some v → k ∈ keys
  dirty_lock : ∀ {t k v}, dirty t k = some v → lock k = some t
  lock_keys : ∀ {t k}, lock k = some t → k ∈ keys

namespace Table

variable {K V T : Type u}

/-- The table no transaction has touched yet. -/
def empty : Table K V T where
  keys := []
  rows _ := none
  dirty _ _ := none
  lock _ := none
  keys_nodup := List.nodup_nil
  rows_keys h := nomatch h
  dirty_lock h := nomatch h
  lock_keys h := nomatch h

@[simp] theorem empty_rows (k : K) : (empty : Table K V T).rows k = none := rfl
@[simp] theorem empty_dirty (t : T) (k : K) : (empty : Table K V T).dirty t k = none := rfl
@[simp] theorem empty_lock (k : K) : (empty : Table K V T).lock k = none := rfl
@[simp] theorem empty_keys : (empty : Table K V T).keys = [] := rfl

/-! ### Reads -/

/-- The version of row `k` a statement of transaction `t` sees. -/
def visible (tb : Table K V T) (t : T) (k : K) : Option V :=
  (tb.dirty t k).getD (tb.rows k)

/-- A transaction that has not written a row sees the committed one. -/
theorem visible_of_clean {tb : Table K V T} {t : T} {k : K} (h : tb.dirty t k = none) :
    tb.visible t k = tb.rows k := by
  rw [visible, h]
  rfl

/-- One that has sees its own. -/
theorem visible_of_dirty {tb : Table K V T} {t : T} {k : K} {v : Option V}
    (h : tb.dirty t k = some v) : tb.visible t k = v := by
  rw [visible, h]
  rfl

/-- What is seen has a key of the table. -/
theorem visible_keys {tb : Table K V T} {t : T} {k : K} {v : V}
    (h : tb.visible t k = some v) : k ∈ tb.keys := by
  cases hd : tb.dirty t k with
  | none => exact tb.rows_keys (visible_of_clean hd ▸ h)
  | some w => exact tb.lock_keys (tb.dirty_lock hd)

/-- A key that was never used has no committed row. -/
theorem rows_of_not_mem {tb : Table K V T} {k : K} (h : k ∉ tb.keys) : tb.rows k = none := by
  cases hrow : tb.rows k with
  | none => rfl
  | some v => exact absurd (tb.rows_keys hrow) h

/-- The snapshot of a statement with condition `p`: the visible rows it matches. -/
def scan (tb : Table K V T) (t : T) (p : V → Bool) : List K :=
  tb.keys.filter fun k => (tb.visible t k).any p

theorem mem_scan {tb : Table K V T} {t : T} {p : V → Bool} {k : K} :
    k ∈ tb.scan t p ↔ ∃ v, tb.visible t k = some v ∧ p v = true := by
  rw [scan, List.mem_filter]
  constructor
  · rintro ⟨-, h⟩
    cases hv : tb.visible t k with
    | none => rw [hv] at h; cases h
    | some v => exact ⟨v, rfl, by rw [hv] at h; exact h⟩
  · rintro ⟨v, hv, hp⟩
    exact ⟨visible_keys hv, by rw [hv]; exact hp⟩

/-- A scan finds no key twice. -/
theorem scan_nodup (tb : Table K V T) (t : T) (p : V → Bool) : (tb.scan t p).Nodup :=
  tb.keys_nodup.filter _

/-- The rows of a `SELECT` with condition `p`. -/
def select (tb : Table K V T) (t : T) (p : V → Bool) : List V :=
  (tb.scan t p).filterMap (tb.visible t)

theorem mem_select {tb : Table K V T} {t : T} {p : V → Bool} {v : V} :
    v ∈ tb.select t p ↔ ∃ k, tb.visible t k = some v ∧ p v = true := by
  rw [select, List.mem_filterMap]
  constructor
  · rintro ⟨k, hk, hv⟩
    obtain ⟨w, hw, hp⟩ := mem_scan.mp hk
    obtain rfl := Option.some.inj (hw.symm.trans hv)
    exact ⟨k, hv, hp⟩
  · rintro ⟨k, hv, hp⟩
    exact ⟨k, mem_scan.mpr ⟨v, hv, hp⟩, hv⟩

/-- Selecting rows is filtering all that are visible. -/
theorem select_eq_filter (tb : Table K V T) (t : T) (p : V → Bool) :
    tb.select t p = (tb.keys.filterMap (tb.visible t)).filter p := by
  rw [select, scan, List.filterMap_filter, List.filter_filterMap]
  congr 1
  funext k
  cases tb.visible t k with
  | none => rfl
  | some v => by_cases hp : p v <;> simp [hp, Option.filter]

/-- The rows under some keys, as they are loaded. -/
def load (tb : Table K V T) (t : T) (ks : List K) : List (K × V) :=
  ks.filterMap fun k => (tb.visible t k).map (k, ·)

/-- What is loaded is among the keys asked for, as the transaction sees it. -/
theorem mem_load {tb : Table K V T} {t : T} {ks : List K} {row : K × V}
    (h : row ∈ tb.load t ks) : row.1 ∈ ks ∧ tb.visible t row.1 = some row.2 := by
  obtain ⟨k, hk, hrow⟩ := List.mem_filterMap.mp h
  obtain ⟨v, hv, rfl⟩ := Option.map_eq_some_iff.mp hrow
  exact ⟨hk, hv⟩

/-- The keys of the rows that are there. -/
theorem map_load (tb : Table K V T) (t : T) (ks : List K) :
    ((tb.load t ks).map Prod.fst).Sublist ks := by
  induction ks with
  | nil => exact List.Sublist.slnil
  | cons k ks ih =>
    unfold load
    rw [List.filterMap_cons]
    cases tb.visible t k with
    | none => exact ih.cons k
    | some v => exact ih.cons_cons k

/-! ### Row locks and writes -/

/-- Row `k` is unlocked, or already locked by `t`. -/
def Free (tb : Table K V T) (t : T) (k : K) : Prop :=
  tb.lock k = none ∨ tb.lock k = some t

/-- At most one transaction holds an uncommitted version of a row. -/
theorem dirty_unique {tb : Table K V T} {t u : T} {k : K} {v w : Option V}
    (ht : tb.dirty t k = some v) (hu : tb.dirty u k = some w) : t = u :=
  Option.some.inj ((tb.dirty_lock ht).symm.trans (tb.dirty_lock hu))

/-- A row under a lock is written by nobody else. -/
theorem dirty_none_of_lock {tb : Table K V T} {t u : T} {k : K} (hl : tb.lock k = some t)
    (hu : u ≠ t) : tb.dirty u k = none := by
  cases hd : tb.dirty u k with
  | none => rfl
  | some w => exact absurd (Option.some.inj ((tb.dirty_lock hd).symm.trans hl)) hu

/-- Nor is one the transaction could lock. -/
theorem dirty_none_of_free {tb : Table K V T} {t u : T} {k : K} (hf : tb.Free t k)
    (hu : u ≠ t) : tb.dirty u k = none := by
  rcases hf with hl | hl
  · cases hd : tb.dirty u k with
    | none => rfl
    | some w => exact absurd ((tb.dirty_lock hd).symm.trans hl) (by simp)
  · exact dirty_none_of_lock hl hu

section Statements

variable [DecidableEq K] [DecidableEq T]

/-- Whether a row can be locked is decided by its lock. -/
instance (tb : Table K V T) (t : T) (k : K) : Decidable (tb.Free t k) :=
  inferInstanceAs (Decidable (_ ∨ _))

/-- Overwrite one transaction's version of one row. -/
def setDirty (d : T → K → Option (Option V)) (t : T) (k : K) (v : Option V) :
    T → K → Option (Option V) :=
  fun u j => if u = t ∧ j = k then some v else d u j

@[simp] theorem setDirty_self (d : T → K → Option (Option V)) (t : T) (k : K) (v : Option V) :
    setDirty d t k v t k = some v := by simp [setDirty]

theorem setDirty_of_ne_txn {d : T → K → Option (Option V)} {t u : T} {k j : K} {v : Option V}
    (h : u ≠ t) : setDirty d t k v u j = d u j := by simp [setDirty, h]

theorem setDirty_of_ne_key {d : T → K → Option (Option V)} {t u : T} {k j : K} {v : Option V}
    (h : j ≠ k) : setDirty d t k v u j = d u j := by simp [setDirty, h]

/-- Locking row `k` for `t` keeps every uncommitted version covered, whatever
`t` now writes there. -/
theorem dirty_lock_update {tb : Table K V T} {t : T} {k : K} {d : T → K → Option (Option V)}
    (hother : ∀ u, u ≠ t → d u k = none) (hkey : ∀ u j, j ≠ k → d u j = tb.dirty u j)
    {u : T} {j : K} {v : Option V} (hd : d u j = some v) :
    Function.update tb.lock k (some t) j = some u := by
  by_cases hj : j = k
  · subst hj
    by_cases hu : u = t
    · rw [Function.update_self, hu]
    · rw [hother u hu] at hd
      cases hd
  · rw [Function.update_of_ne hj]
    exact tb.dirty_lock (hkey u j hj ▸ hd)

omit [DecidableEq T] in
/-- A lock more is of a key of the table. -/
theorem lock_keys_update {tb : Table K V T} {t : T} {k : K} {ks : List K} (hk : k ∈ ks)
    (hsub : ∀ j ∈ tb.keys, j ∈ ks) {u : T} {j : K}
    (hl : Function.update tb.lock k (some t) j = some u) : j ∈ ks := by
  by_cases hj : j = k
  · exact hj ▸ hk
  · rw [Function.update_of_ne hj] at hl
    exact hsub j (tb.lock_keys hl)

/-- The table once `t` holds the lock of row `k`. -/
def acquired (tb : Table K V T) (t : T) (k : K) (h : k ∈ tb.keys ∧ tb.Free t k) :
    Table K V T :=
  { tb with
    lock := Function.update tb.lock k (some t)
    dirty_lock :=
      dirty_lock_update (fun _ hu => dirty_none_of_free h.2 hu) fun _ _ _ => rfl
    lock_keys := lock_keys_update h.1 fun _ hj => hj }

/-- `SELECT … FOR UPDATE SKIP LOCKED`: lock those of the rows `ks` that exist and no
other transaction has locked. -/
def skipLocked (tb : Table K V T) (t : T) (ks : List K) : Table K V T :=
  { tb with
    lock := fun k => if k ∈ ks ∧ k ∈ tb.keys ∧ tb.Free t k then some t else tb.lock k
    dirty_lock := fun {u k v} hd => by
      have hl := tb.dirty_lock hd
      by_cases hc : k ∈ ks ∧ k ∈ tb.keys ∧ tb.Free t k
      · rw [if_pos hc]
        rcases hc.2.2 with hn | ht
        · rw [hl] at hn
          cases hn
        · exact ht.symm.trans hl
      · rw [if_neg hc]
        exact hl
    lock_keys := fun {u k} hl => by
      by_cases hc : k ∈ ks ∧ k ∈ tb.keys ∧ tb.Free t k
      · exact hc.2.1
      · rw [if_neg hc] at hl
        exact tb.lock_keys hl }

/-- The table once `t` wrote a new version of row `k`. -/
def written (tb : Table K V T) (t : T) (k : K) (v : Option V)
    (h : k ∈ tb.keys ∧ tb.Free t k) : Table K V T :=
  { tb with
    dirty := setDirty tb.dirty t k v
    lock := Function.update tb.lock k (some t)
    dirty_lock :=
      dirty_lock_update
        (fun _ hu => (setDirty_of_ne_txn hu).trans (dirty_none_of_free h.2 hu))
        fun _ _ hj => setDirty_of_ne_key hj
    lock_keys := lock_keys_update h.1 fun _ hj => hj }

/-- The table once `t` inserted a row under the new key `k`. -/
def inserted (tb : Table K V T) (t : T) (k : K) (v : V) (h : k ∉ tb.keys) : Table K V T :=
  { tb with
    keys := k :: tb.keys
    dirty := setDirty tb.dirty t k (some v)
    lock := Function.update tb.lock k (some t)
    keys_nodup := List.nodup_cons.mpr ⟨h, tb.keys_nodup⟩
    rows_keys := fun hr => List.mem_cons_of_mem _ (tb.rows_keys hr)
    dirty_lock :=
      dirty_lock_update
        (fun u hu => by
          rw [setDirty_of_ne_txn hu]
          cases hd : tb.dirty u k with
          | none => rfl
          | some w => exact absurd (tb.lock_keys (tb.dirty_lock hd)) h)
        fun _ _ hj => setDirty_of_ne_key hj
    lock_keys := lock_keys_update List.mem_cons_self fun _ hj => List.mem_cons_of_mem _ hj }

/-- The table once a row under the new key `k` was inserted and committed by a
transaction of its own. -/
def published (tb : Table K V T) (k : K) (v : V) (h : k ∉ tb.keys) : Table K V T :=
  { tb with
    keys := k :: tb.keys
    rows := Function.update tb.rows k (some v)
    keys_nodup := List.nodup_cons.mpr ⟨h, tb.keys_nodup⟩
    rows_keys := fun {j w} hr => by
      by_cases hj : j = k
      · exact hj ▸ List.mem_cons_self
      · rw [Function.update_of_ne hj] at hr
        exact List.mem_cons_of_mem _ (tb.rows_keys hr)
    lock_keys := fun hl => List.mem_cons_of_mem _ (tb.lock_keys hl) }

section Fields

variable {tb : Table K V T} {t : T} {k : K} {v : Option V} {w : V}

@[simp] theorem acquired_keys {h} : (tb.acquired t k h).keys = tb.keys := rfl
@[simp] theorem acquired_rows {h} : (tb.acquired t k h).rows = tb.rows := rfl
@[simp] theorem acquired_dirty {h} : (tb.acquired t k h).dirty = tb.dirty := rfl
@[simp] theorem acquired_lock {h} :
    (tb.acquired t k h).lock = Function.update tb.lock k (some t) := rfl

@[simp] theorem skipLocked_keys {ks : List K} : (tb.skipLocked t ks).keys = tb.keys := rfl
@[simp] theorem skipLocked_rows {ks : List K} : (tb.skipLocked t ks).rows = tb.rows := rfl
@[simp] theorem skipLocked_dirty {ks : List K} :
    (tb.skipLocked t ks).dirty = tb.dirty := rfl
/-- The free rows among those asked for are locked, the others skipped. -/
theorem skipLocked_lock {ks : List K} (k : K) : (tb.skipLocked t ks).lock k =
    if k ∈ ks ∧ k ∈ tb.keys ∧ tb.Free t k then some t else tb.lock k := rfl

@[simp] theorem written_keys {h} : (tb.written t k v h).keys = tb.keys := rfl
@[simp] theorem written_rows {h} : (tb.written t k v h).rows = tb.rows := rfl
@[simp] theorem written_dirty {h} :
    (tb.written t k v h).dirty = setDirty tb.dirty t k v := rfl
@[simp] theorem written_lock {h} :
    (tb.written t k v h).lock = Function.update tb.lock k (some t) := rfl

@[simp] theorem inserted_keys {h} : (tb.inserted t k w h).keys = k :: tb.keys := rfl
@[simp] theorem inserted_rows {h} : (tb.inserted t k w h).rows = tb.rows := rfl
@[simp] theorem inserted_dirty {h} :
    (tb.inserted t k w h).dirty = setDirty tb.dirty t k (some w) := rfl
@[simp] theorem inserted_lock {h} :
    (tb.inserted t k w h).lock = Function.update tb.lock k (some t) := rfl

omit [DecidableEq T]

@[simp] theorem published_keys {h} : (tb.published k w h).keys = k :: tb.keys := rfl
@[simp] theorem published_rows {h} :
    (tb.published k w h).rows = Function.update tb.rows k (some w) := rfl
@[simp] theorem published_dirty {h} : (tb.published k w h).dirty = tb.dirty := rfl
@[simp] theorem published_lock {h} : (tb.published k w h).lock = tb.lock := rfl

end Fields

/-- `SELECT … FOR UPDATE` of an existing row. -/
def acquire (tb : Table K V T) (t : T) (k : K) : Option (Table K V T) :=
  if h : k ∈ tb.keys ∧ tb.Free t k then some (tb.acquired t k h) else none

/-- An `UPDATE` (or, with `none`, a `DELETE`) of one row: lock it and write the
new version. -/
def write (tb : Table K V T) (t : T) (k : K) (v : Option V) : Option (Table K V T) :=
  if h : k ∈ tb.keys ∧ tb.Free t k then some (tb.written t k v h) else none

/-- An `INSERT` of a row whose key was never used. -/
def insert (tb : Table K V T) (t : T) (k : K) (v : V) : Option (Table K V T) :=
  if h : k ∉ tb.keys then some (tb.inserted t k v h) else none

/-- An `INSERT` committed on its own. -/
def publish (tb : Table K V T) (k : K) (v : V) : Option (Table K V T) :=
  if h : k ∉ tb.keys then some (tb.published k v h) else none

theorem acquire_eq_some {tb tb' : Table K V T} {t : T} {k : K} :
    tb.acquire t k = some tb' ↔ ∃ h, tb.acquired t k h = tb' := by
  rw [acquire, Option.dite_none_right_eq_some]
  simp only [Option.some.injEq]

theorem write_eq_some {tb tb' : Table K V T} {t : T} {k : K} {v : Option V} :
    tb.write t k v = some tb' ↔ ∃ h, tb.written t k v h = tb' := by
  rw [write, Option.dite_none_right_eq_some]
  simp only [Option.some.injEq]

theorem insert_eq_some {tb tb' : Table K V T} {t : T} {k : K} {v : V} :
    tb.insert t k v = some tb' ↔ ∃ h, tb.inserted t k v h = tb' := by
  rw [insert, Option.dite_none_right_eq_some]
  simp only [Option.some.injEq]

omit [DecidableEq T] in
/-- When a row is inserted and committed at once. -/
theorem publish_eq_some {tb tb' : Table K V T} {k : K} {v : V} :
    tb.publish k v = some tb' ↔ ∃ h, tb.published k v h = tb' := by
  rw [publish, Option.dite_none_right_eq_some]
  simp only [Option.some.injEq]

/-! ### The end of a transaction -/

omit [DecidableEq K]

/-- Release every lock `t` holds. -/
def unlock (tb : Table K V T) (t : T) : K → Option T :=
  fun k => if tb.lock k = some t then none else tb.lock k

theorem unlock_of_ne {tb : Table K V T} {t u : T} {k : K} (hu : u ≠ t)
    (h : tb.lock k = some u) : tb.unlock t k = some u := by
  rw [unlock, if_neg (fun ht => hu (Option.some.inj (h.symm.trans ht)))]
  exact h

/-- What is still locked was locked by another. -/
theorem lock_of_unlock {tb : Table K V T} {t u : T} {k : K} (h : tb.unlock t k = some u) :
    tb.lock k = some u ∧ u ≠ t := by
  rw [unlock] at h
  by_cases hl : tb.lock k = some t
  · rw [if_pos hl] at h
    cases h
  · rw [if_neg hl] at h
    exact ⟨h, fun he => hl (he ▸ h)⟩

/-- Publish `t`'s versions and release its locks. -/
def commit (tb : Table K V T) (t : T) : Table K V T where
  keys := tb.keys
  rows := tb.visible t
  dirty u k := if u = t then none else tb.dirty u k
  lock := tb.unlock t
  keys_nodup := tb.keys_nodup
  rows_keys h := visible_keys h
  dirty_lock {u k v} h := by
    by_cases hu : u = t
    · rw [if_pos hu] at h
      cases h
    · -- The others' versions stay under the others' locks.
      rw [if_neg hu] at h
      exact unlock_of_ne hu (tb.dirty_lock h)
  lock_keys h := tb.lock_keys (lock_of_unlock h).1

/-- Drop `t`'s versions and release its locks. -/
def rollback (tb : Table K V T) (t : T) : Table K V T where
  keys := tb.keys
  rows := tb.rows
  dirty u k := if u = t then none else tb.dirty u k
  lock := tb.unlock t
  keys_nodup := tb.keys_nodup
  rows_keys h := tb.rows_keys h
  dirty_lock {u k v} h := by
    by_cases hu : u = t
    · rw [if_pos hu] at h
      cases h
    · rw [if_neg hu] at h
      exact unlock_of_ne hu (tb.dirty_lock h)
  lock_keys h := tb.lock_keys (lock_of_unlock h).1

@[simp] theorem commit_keys {tb : Table K V T} {t : T} : (tb.commit t).keys = tb.keys := rfl
@[simp] theorem commit_rows {tb : Table K V T} {t : T} :
    (tb.commit t).rows = tb.visible t := rfl
@[simp] theorem rollback_keys {tb : Table K V T} {t : T} :
    (tb.rollback t).keys = tb.keys := rfl
@[simp] theorem rollback_rows {tb : Table K V T} {t : T} :
    (tb.rollback t).rows = tb.rows := rfl

/-- A commit ends the transaction's own writes only. -/
theorem commit_dirty {tb : Table K V T} {t u : T} {k : K} {v : Option V} :
    (tb.commit t).dirty u k = some v ↔ u ≠ t ∧ tb.dirty u k = some v := by
  show (if u = t then none else tb.dirty u k) = some v ↔ _
  by_cases hu : u = t <;> simp [hu]

theorem rollback_dirty {tb : Table K V T} {t u : T} {k : K} {v : Option V} :
    (tb.rollback t).dirty u k = some v ↔ u ≠ t ∧ tb.dirty u k = some v := by
  show (if u = t then none else tb.dirty u k) = some v ↔ _
  by_cases hu : u = t <;> simp [hu]

/-- A commit ends the transaction's own locks only. -/
theorem commit_lock {tb : Table K V T} {t u : T} {k : K} :
    (tb.commit t).lock k = some u ↔ u ≠ t ∧ tb.lock k = some u := by
  constructor
  · intro h
    exact (lock_of_unlock h).symm
  · rintro ⟨hu, h⟩
    exact unlock_of_ne hu h

theorem rollback_lock {tb : Table K V T} {t u : T} {k : K} :
    (tb.rollback t).lock k = some u ↔ u ≠ t ∧ tb.lock k = some u := by
  constructor
  · intro h
    exact (lock_of_unlock h).symm
  · rintro ⟨hu, h⟩
    exact unlock_of_ne hu h

/-- A commit does not change a row locked by another transaction. -/
theorem commit_rows_of_lock {tb : Table K V T} {t u : T} {k : K} (hl : tb.lock k = some u)
    (hu : u ≠ t) : (tb.commit t).rows k = tb.rows k :=
  visible_of_clean (dirty_none_of_lock hl fun h => hu h.symm)

end Statements

/-! ### What a transaction sees of the others' statements -/

/-- Between `tb` and `tb'` only other transactions acted: `t` keeps its versions and its
locks, and no row it has locked changed. -/
structure SameFor (t : T) (tb tb' : Table K V T) : Prop where
  dirty : ∀ k, tb'.dirty t k = tb.dirty t k
  lock : ∀ k, tb'.lock k = some t ↔ tb.lock k = some t
  rows : ∀ k, tb.lock k = some t → tb'.rows k = tb.rows k

theorem SameFor.refl (t : T) (tb : Table K V T) : SameFor t tb tb :=
  ⟨fun _ => rfl, fun _ => Iff.rfl, fun _ _ => rfl⟩

theorem SameFor.trans {t : T} {tb tb' tb'' : Table K V T} (h : SameFor t tb tb')
    (h' : SameFor t tb' tb'') : SameFor t tb tb'' where
  dirty k := (h'.dirty k).trans (h.dirty k)
  lock k := (h'.lock k).trans (h.lock k)
  rows k hl := (h'.rows k ((h.lock k).mpr hl)).trans (h.rows k hl)

/-- A row `t` has locked looks the same to it. -/
theorem SameFor.visible {t : T} {tb tb' : Table K V T} (h : SameFor t tb tb') {k : K}
    (hl : tb.lock k = some t) : tb'.visible t k = tb.visible t k := by
  rw [Table.visible, Table.visible, h.dirty, h.rows k hl]

/-- A commit leaves the writes and locks of others. -/
theorem commit_sameFor [DecidableEq T] {tb : Table K V T} {t u : T} (hu : u ≠ t) :
    SameFor u tb (tb.commit t) where
  dirty _ := if_neg hu
  lock _ := commit_lock.trans (and_iff_right hu)
  rows _ hl := commit_rows_of_lock hl hu

theorem rollback_sameFor [DecidableEq T] {tb : Table K V T} {t u : T} (hu : u ≠ t) :
    SameFor u tb (tb.rollback t) where
  dirty _ := if_neg hu
  lock _ := rollback_lock.trans (and_iff_right hu)
  rows _ _ := rfl

/-- Outside its locks a transaction sees the committed rows. -/
theorem visible_of_unlocked {tb : Table K V T} {t : T} {k : K} (h : tb.lock k ≠ some t) :
    tb.visible t k = tb.rows k := by
  refine visible_of_clean ?_
  cases hd : tb.dirty t k with
  | none => rfl
  | some v => exact absurd (tb.dirty_lock hd) h

section Writes

variable [DecidableEq K] {tb : Table K V T} {t u : T} {k : K}

/-- A lock taken is of nobody else. -/
theorem update_lock_iff {j : K} (hu : u ≠ t) (hk : tb.Free t k) :
    Function.update tb.lock k (some t) j = some u ↔ tb.lock j = some u := by
  by_cases hj : j = k
  · subst hj
    rw [Function.update_self]
    constructor
    · intro h
      exact absurd (Option.some.inj h).symm hu
    · intro h
      rcases hk with hn | ht
      · rw [hn] at h
        cases h
      · exact absurd (Option.some.inj (h.symm.trans ht)) hu
  · rw [Function.update_of_ne hj]

omit [DecidableEq K] in
/-- Nobody has locked a key that was never inserted. -/
theorem free_of_not_mem_keys (t : T) (h : k ∉ tb.keys) : tb.Free t k := by
  refine .inl ?_
  cases hl : tb.lock k with
  | none => rfl
  | some v => exact absurd (tb.lock_keys hl) h

/-- An insert that commits at once concerns no open transaction. -/
theorem published_sameFor {w : V} (u : T) (h : k ∉ tb.keys) :
    SameFor u tb (tb.published k w h) where
  dirty _ := rfl
  lock _ := Iff.rfl
  rows j hl := by
    have hj : j ≠ k := fun he => h (he ▸ tb.lock_keys hl)
    exact Function.update_of_ne hj ..

variable [DecidableEq T]

/-- A lock concerns its own transaction. -/
theorem acquired_sameFor (hu : u ≠ t) (h : k ∈ tb.keys ∧ tb.Free t k) :
    SameFor u tb (tb.acquired t k h) where
  dirty _ := rfl
  lock _ := update_lock_iff hu h.2
  rows _ _ := rfl

/-- A write concerns its own transaction. -/
theorem written_sameFor {v : Option V} (hu : u ≠ t) (h : k ∈ tb.keys ∧ tb.Free t k) :
    SameFor u tb (tb.written t k v h) where
  dirty _ := setDirty_of_ne_txn hu
  lock _ := update_lock_iff hu h.2
  rows _ _ := rfl

theorem inserted_sameFor {w : V} (hu : u ≠ t) (h : k ∉ tb.keys) :
    SameFor u tb (tb.inserted t k w h) where
  dirty _ := setDirty_of_ne_txn hu
  lock _ := update_lock_iff hu (free_of_not_mem_keys t h)
  rows _ _ := rfl

/-- What the transaction itself holds after a write. -/
theorem written_lock_self {v : Option V} {j : K} (h : k ∈ tb.keys ∧ tb.Free t k) :
    (tb.written t k v h).lock j = some t ↔ j = k ∨ tb.lock j = some t := by
  rw [written_lock]
  by_cases hj : j = k
  · simp [hj]
  · rw [Function.update_of_ne hj]
    simp [hj]

theorem inserted_lock_self {w : V} {j : K} (h : k ∉ tb.keys) :
    (tb.inserted t k w h).lock j = some t ↔ j = k ∨ tb.lock j = some t := by
  rw [inserted_lock]
  by_cases hj : j = k
  · simp [hj]
  · rw [Function.update_of_ne hj]
    simp [hj]

/-- Locks that skip what is taken concern their own transaction. -/
theorem skipLocked_sameFor (hu : u ≠ t) (ks : List K) :
    SameFor u tb (tb.skipLocked t ks) where
  dirty _ := rfl
  lock j := by
    rw [skipLocked_lock]
    by_cases hc : j ∈ ks ∧ j ∈ tb.keys ∧ tb.Free t j
    · have hlock := update_lock_iff (j := j) hu hc.2.2
      rw [Function.update_self] at hlock
      rw [if_pos hc]
      exact hlock
    · rw [if_neg hc]
  rows _ _ := rfl

end Writes

end Table

end Systems

end RealEstate
