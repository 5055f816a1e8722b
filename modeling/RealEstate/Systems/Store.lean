import Mathlib.Logic.Function.Basic

/-!
# A key-value store with expiry

`Store K V` is a shared store whose commands are atomic and whose entries may
carry a deadline. An entry is gone the moment its deadline is reached; nothing
has to remove it.

- `get`, `set`, `setNx`, `del`, `expire`, `incr`: the commands, with their times to
  live in seconds from `now`.
- `wait`: time passes.
- `HoldsUntil`: an entry that is there until some instant.

The `@[simp]` lemmas say what `get` returns after each command.
-/

namespace RealEstate

namespace Systems

universe u v

/-- A stored value and the instant it expires, if any. -/
structure Entry (V : Type v) where
  value : V
  deadline : Option Int

/-- The value, until the deadline is reached. -/
def Entry.read {V : Type v} (now : Int) (e : Entry V) : Option V :=
  match e.deadline with
  | none => some e.value
  | some d => if now < d then some e.value else none

/-- What can be read at some instant could be read before it. -/
theorem Entry.read_of_later {V : Type v} {e : Entry V} {v : V} {now later : Int}
    (hle : now ≤ later) (h : e.read later = some v) : e.read now = some v := by
  unfold Entry.read at h ⊢
  split
  · next hd =>
    rw [hd] at h
    exact h
  · next d hd =>
    simp only [hd] at h
    split at h
    · rw [if_pos (by omega)]
      exact h
    · cases h

theorem Entry.eq_of_read {V : Type v} {e : Entry V} {v : V} {now : Int}
    (h : e.read now = some v) : e.value = v := by
  unfold Entry.read at h
  split at h
  · exact Option.some.inj h
  · split at h
    · exact Option.some.inj h
    · cases h

theorem Entry.lt_of_read {V : Type v} {e : Entry V} {v : V} {now d : Int}
    (h : e.read now = some v) (hd : e.deadline = some d) : now < d := by
  unfold Entry.read at h
  simp only [hd] at h
  split at h
  · next hlt => exact hlt
  · cases h

/-- Redis: a clock, and entries that may expire. -/
structure Store (K : Type u) (V : Type v) where
  now : Int
  entries : K → Option (Entry V)

namespace Store

variable {K : Type u} {V : Type v}

/-- No entries. -/
def empty : Store K V where
  now := 0
  entries _ := none

/-- The value under a key, unless it expired. -/
def get (r : Store K V) (k : K) : Option V :=
  (r.entries k).bind (Entry.read r.now)

/-- An entry with a deadline is read until then. -/
theorem get_of_entries {r : Store K V} {k : K} {v : V} {d : Int}
    (h : r.entries k = some ⟨v, some d⟩) : r.get k = if r.now < d then some v else none := by
  rw [get, h]
  rfl

@[simp] theorem get_empty (k : K) : (empty : Store K V).get k = none := rfl

/-- `seconds` pass. -/
def wait (r : Store K V) (seconds : Nat) : Store K V :=
  { r with now := r.now + seconds }

/-- What is still there after a while was there before. -/
theorem get_of_get_wait {r : Store K V} {seconds : Nat} {k : K} {v : V}
    (h : (r.wait seconds).get k = some v) : r.get k = some v := by
  rw [get, Option.bind_eq_some_iff] at h ⊢
  obtain ⟨e, he, hread⟩ := h
  have hle : r.now ≤ (r.wait seconds).now := by
    show r.now ≤ r.now + (seconds : Int)
    omega
  exact ⟨e, he, Entry.read_of_later hle hread⟩

/-- The value stays under the key until `d` at least, if no command touches it. -/
def HoldsUntil (r : Store K V) (k : K) (v : V) (d : Int) : Prop :=
  ∃ e, r.entries k = some e ∧ e.value = v ∧ ∀ end_, e.deadline = some end_ → d ≤ end_

/-- What is held is read until then. -/
theorem HoldsUntil.get {r : Store K V} {k : K} {v : V} {d : Int} (h : r.HoldsUntil k v d)
    (hlt : r.now < d) : r.get k = some v := by
  obtain ⟨e, he, rfl, hd⟩ := h
  rw [Store.get, he, Option.bind_some, Entry.read]
  cases hend : e.deadline with
  | none => rfl
  | some end_ =>
    have hle : d ≤ end_ := hd end_ hend
    exact if_pos (by omega)

variable [DecidableEq K]

/-- The instant a time to live ends, counted from now. -/
def deadline (r : Store K V) (ttl : Option Nat) : Option Int :=
  ttl.map fun seconds => r.now + (seconds : Int)

/-- `SET key value [EX ttl]`. -/
def set (r : Store K V) (k : K) (v : V) (ttl : Option Nat) : Store K V :=
  { r with entries := Function.update r.entries k (some ⟨v, r.deadline ttl⟩) }

/-- `SET key value NX EX ttl`: `none` if the key is taken. -/
def setNx (r : Store K V) (k : K) (v : V) (ttl : Option Nat) : Option (Store K V) :=
  if (r.get k).isSome then none else some (r.set k v ttl)

/-- `DEL key`. -/
def del (r : Store K V) (k : K) : Store K V :=
  { r with entries := Function.update r.entries k none }

/-- `EXPIRE key ttl`: it does not touch a missing key. -/
def expire (r : Store K V) (k : K) (ttl : Nat) : Store K V :=
  match r.get k with
  | none => r
  | some v => r.set k v (some ttl)

@[simp] theorem now_set (r : Store K V) (k : K) (v : V) (ttl : Option Nat) :
    (r.set k v ttl).now = r.now := rfl

@[simp] theorem now_del (r : Store K V) (k : K) : (r.del k).now = r.now := rfl

@[simp] theorem now_expire (r : Store K V) (k : K) (ttl : Nat) :
    (r.expire k ttl).now = r.now := by
  unfold expire
  split <;> rfl

theorem get_set_self (r : Store K V) (k : K) (v : V) {ttl : Option Nat}
    (h : ∀ n, ttl = some n → 0 < n) : (r.set k v ttl).get k = some v := by
  show (Function.update r.entries k _ k).bind (Entry.read r.now) = some v
  rw [Function.update_self, Option.bind_some]
  cases ttl with
  | none => rfl
  | some n =>
    have hn := h n rfl
    have hlt : r.now < r.now + (n : Int) := by omega
    exact if_pos hlt

/-- A value just stored is read back, unless its time to live is none at all. -/
theorem get_set_cases (r : Store K V) (k : K) (v : V) (ttl : Option Nat) :
    (r.set k v ttl).get k = some v ∨ (r.set k v ttl).get k = none := by
  have hget : (r.set k v ttl).get k = Entry.read r.now ⟨v, r.deadline ttl⟩ := by
    show (Function.update r.entries k _ k).bind (Entry.read r.now) = _
    rw [Function.update_self, Option.bind_some]
  rw [hget]
  unfold Entry.read
  split
  · exact .inl rfl
  · split
    · exact .inl rfl
    · exact .inr rfl

@[simp] theorem get_set_of_ne (r : Store K V) {j k : K} (v : V) (ttl : Option Nat)
    (h : j ≠ k) : (r.set k v ttl).get j = r.get j := by
  show (Function.update r.entries k _ j).bind (Entry.read r.now) = _
  rw [Function.update_of_ne h]
  rfl

@[simp] theorem get_del_self (r : Store K V) (k : K) : (r.del k).get k = none := by
  show (Function.update r.entries k _ k).bind (Entry.read r.now) = _
  rw [Function.update_self]
  rfl

theorem entries_del_of_ne (r : Store K V) {j k : K} (h : j ≠ k) :
    (r.del k).entries j = r.entries j :=
  Function.update_of_ne h ..

@[simp] theorem get_del_of_ne (r : Store K V) {j k : K} (h : j ≠ k) :
    (r.del k).get j = r.get j := by
  show (Function.update r.entries k _ j).bind (Entry.read r.now) = _
  rw [Function.update_of_ne h]
  rfl

/-- What is read after a value was stored is that value, or was there before. -/
theorem of_get_set {r : Store K V} {j k : K} {v w : V} {ttl : Option Nat}
    (h : (r.set k v ttl).get j = some w) : (j = k ∧ v = w) ∨ (j ≠ k ∧ r.get j = some w) := by
  by_cases hj : j = k
  · subst hj
    rcases get_set_cases r j v ttl with hself | hnone
    · exact .inl ⟨rfl, Option.some.inj (hself.symm.trans h)⟩
    · rw [hnone] at h
      cases h
  · rw [get_set_of_ne r v ttl hj] at h
    exact .inr ⟨hj, h⟩

theorem of_get_del {r : Store K V} {j k : K} {w : V} (h : (r.del k).get j = some w) :
    j ≠ k ∧ r.get j = some w := by
  by_cases hj : j = k
  · subst hj
    rw [get_del_self] at h
    cases h
  · rw [get_del_of_ne r hj] at h
    exact ⟨hj, h⟩

@[simp] theorem get_expire (r : Store K V) (j k : K) {ttl : Nat} (h : 0 < ttl) :
    (r.expire k ttl).get j = r.get j := by
  unfold expire
  split
  · rfl
  · next v hv =>
    by_cases hj : j = k
    · subst hj
      rw [get_set_self r j v fun n hn => Option.some.inj hn ▸ h, hv]
    · exact get_set_of_ne r v _ hj

/-! ### Entries that outlive an instant -/

/-- A key with a time to live is held so long. -/
theorem holdsUntil_set_self (r : Store K V) (k : K) (v : V) {ttl : Option Nat} {d : Int}
    (h : ∀ n : Nat, ttl = some n → d ≤ r.now + n) : (r.set k v ttl).HoldsUntil k v d := by
  refine ⟨_, Function.update_self .., rfl, fun end_ hend => ?_⟩
  cases ttl with
  | none => cases hend
  | some n =>
    obtain rfl := Option.some.inj hend
    exact h n rfl

theorem HoldsUntil.set_of_ne {r : Store K V} {j k : K} {v w : V} {d : Int} {ttl : Option Nat}
    (h : r.HoldsUntil j v d) (hne : j ≠ k) : (r.set k w ttl).HoldsUntil j v d := by
  obtain ⟨e, he, hv⟩ := h
  exact ⟨e, (Function.update_of_ne hne ..).trans he, hv⟩

theorem HoldsUntil.del_of_ne {r : Store K V} {j k : K} {v : V} {d : Int}
    (h : r.HoldsUntil j v d) (hne : j ≠ k) : (r.del k).HoldsUntil j v d := by
  obtain ⟨e, he, hv⟩ := h
  exact ⟨e, (Function.update_of_ne hne ..).trans he, hv⟩

theorem HoldsUntil.expire_of_ne {r : Store K V} {j k : K} {v : V} {d : Int} {ttl : Nat}
    (h : r.HoldsUntil j v d) (hne : j ≠ k) : (r.expire k ttl).HoldsUntil j v d := by
  unfold expire
  split
  · exact h
  · exact h.set_of_ne hne

/-- `SET` and then `EXPIRE`. -/
theorem holdsUntil_expire_set (r : Store K V) (k : K) (v : V) (ttl : Nat) :
    ((r.set k v none).expire k ttl).HoldsUntil k v (r.now + ttl) := by
  unfold expire
  rw [get_set_self r k v (by simp)]
  refine holdsUntil_set_self _ k v fun n hn => ?_
  obtain rfl := Option.some.inj hn
  exact Int.le_refl _

/-! ### Counters -/

/-- `INCR key`, and its reply: a missing key counts from zero and gets no deadline. -/
def incr (r : Store K Nat) (k : K) : Store K Nat × Nat :=
  let n := (r.get k).getD 0 + 1
  let deadline := if (r.get k).isSome then (r.entries k).bind Entry.deadline else none
  ({ r with entries := Function.update r.entries k (some ⟨n, deadline⟩) }, n)

/-- `INCR` and then `EXPIRE`. -/
theorem entries_expire_incr_self (r : Store K Nat) (k : K) (ttl : Nat) :
    ((r.incr k).1.expire k ttl).entries k =
      some ⟨(r.get k).getD 0 + 1, some (r.now + ttl)⟩ := by
  have hget : (r.incr k).1.get k = some ((r.get k).getD 0 + 1) := by
    show (Function.update r.entries k _ k).bind (Entry.read r.now) = _
    rw [Function.update_self, Option.bind_some]
    cases hg : r.get k with
    | none => rfl
    | some n =>
      -- what is read has not reached its deadline, and keeps it
      rw [get, Option.bind_eq_some_iff] at hg
      obtain ⟨e, he, hread⟩ := hg
      show Entry.read r.now ⟨n + 1, (r.entries k).bind Entry.deadline⟩ = some (n + 1)
      rw [he, Option.bind_some]
      unfold Entry.read at hread ⊢
      cases hd : e.deadline with
      | none => rfl
      | some d =>
        simp only [hd] at hread ⊢
        split at hread
        · next hlt => exact if_pos hlt
        · cases hread
  rw [expire, hget]
  exact Function.update_self ..

theorem entries_expire_incr_of_ne (r : Store K Nat) {j k : K} (ttl : Nat) (h : j ≠ k) :
    ((r.incr k).1.expire k ttl).entries j = r.entries j := by
  unfold expire
  split
  · exact Function.update_of_ne h ..
  · exact (Function.update_of_ne h ..).trans (Function.update_of_ne h ..)

@[simp] theorem now_incr (r : Store K Nat) (k : K) : (r.incr k).1.now = r.now := rfl

/-- `SET NX` succeeds on a free key. -/
theorem setNx_eq_some {r r' : Store K V} {k : K} {v : V} {ttl : Option Nat} :
    r.setNx k v ttl = some r' ↔ r.get k = none ∧ r.set k v ttl = r' := by
  rw [setNx]
  cases hg : r.get k with
  | none => simp
  | some w => simp

end Store

end Systems

end RealEstate
