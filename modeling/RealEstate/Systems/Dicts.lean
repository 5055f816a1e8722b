import Mathlib.Data.List.Dedup
import Mathlib.Data.List.Nodup

/-!
# Dicts built from rows

`{key: value for row in rows}`: a later row replaces an earlier one of the same key. Where the
keys of the rows are unique, as a constraint of a table makes them, their order does not matter.

- `dictGet`: what the dict has at a key.
- `dictGet_eq_some_iff`: with unique keys, it is what the rows have.
- `dictGet_perm`: and any two queries that return the same rows agree.
- `dictGet_replace`, `dictGet_filter`: changed and deleted rows.
- `grouped`: `GROUP BY`, one row for each key that the rows have, with an aggregate over its rows.
- `mem_grouped`, `nodup_keys_grouped`: what it returns.
-/

namespace RealEstate

namespace Systems

universe u v w

variable {K : Type u} {V : Type v} [DecidableEq K]

/-- `dict(entries).get(key)`: the last entry wins. -/
def dictGet : List (K × V) → K → Option V
  | [], _ => none
  | (k, v) :: entries, key =>
    (dictGet entries key).or (if k = key then some v else none)

variable {entries entries' : List (K × V)} {k : K} {v : V}

/-- A later entry hides the first. -/
theorem dictGet_cons (entry : K × V) (entries : List (K × V)) (k : K) :
    dictGet (entry :: entries) k =
      (dictGet entries k).or (if entry.1 = k then some entry.2 else none) := rfl

theorem dictGet_append (entries entries' : List (K × V)) (k : K) :
    dictGet (entries ++ entries') k = (dictGet entries' k).or (dictGet entries k) := by
  induction entries with
  | nil => exact Option.or_none.symm
  | cons entry entries ih =>
    rw [List.cons_append, dictGet_cons, ih, Option.or_assoc, dictGet_cons]

/-- What is looked up was entered. -/
theorem mem_of_dictGet (h : dictGet entries k = some v) : (k, v) ∈ entries := by
  induction entries with
  | nil => cases h
  | cons entry entries ih =>
    rw [dictGet_cons] at h
    rcases Option.or_eq_some_iff.1 h with hlater | ⟨-, hhere⟩
    · exact List.mem_cons_of_mem entry (ih hlater)
    · split at hhere
      · next hkey =>
        cases hhere
        rw [← hkey]
        exact List.mem_cons_self
      · cases hhere

theorem dictGet_of_not_mem (h : k ∉ entries.map Prod.fst) : dictGet entries k = none := by
  cases hget : dictGet entries k with
  | none => rfl
  | some v => exact absurd (List.mem_map_of_mem (mem_of_dictGet hget)) h

theorem not_mem_of_dictGet (h : dictGet entries k = none) : k ∉ entries.map Prod.fst := by
  induction entries with
  | nil => exact List.not_mem_nil
  | cons entry entries ih =>
    obtain ⟨hlater, hhere⟩ := Option.or_eq_none_iff.1 (dictGet_cons entry entries k ▸ h)
    intro hmem
    rcases List.mem_cons.1 hmem with heq | hmem
    · rw [if_pos heq.symm] at hhere
      cases hhere
    · exact ih hlater hmem

/-- **With unique keys** the dict has what the rows have. -/
theorem dictGet_eq_some_iff (hunique : (entries.map Prod.fst).Nodup) :
    dictGet entries k = some v ↔ (k, v) ∈ entries := by
  refine ⟨mem_of_dictGet, fun hmem => ?_⟩
  induction entries with
  | nil => cases hmem
  | cons entry entries ih =>
    obtain ⟨hfirst, hrest⟩ := List.nodup_cons.1 hunique
    rw [dictGet_cons]
    rcases List.mem_cons.1 hmem with rfl | hmem
    · rw [dictGet_of_not_mem hfirst, if_pos rfl]
      rfl
    · rw [ih hrest hmem]
      rfl

/-- The order of the rows does not matter. -/
theorem dictGet_perm (hunique : (entries.map Prod.fst).Nodup) (hperm : entries'.Perm entries)
    (k : K) : dictGet entries' k = dictGet entries k := by
  have hunique' : (entries'.map Prod.fst).Nodup := (hperm.map Prod.fst).nodup_iff.2 hunique
  refine Option.ext fun v => ?_
  rw [dictGet_eq_some_iff hunique, dictGet_eq_some_iff hunique', hperm.mem_iff]

/-- The entries of one key get a new value. -/
theorem dictGet_replace {key : K} (hkey : key ∈ entries.map Prod.fst) (value : V) (k : K) :
    dictGet (entries.map fun e => (e.1, if e.1 = key then value else e.2)) k =
      if k = key then some value else dictGet entries k := by
  by_cases hk : k = key
  · subst hk
    rw [if_pos rfl]
    -- The key's entry is in the rest, or it is the first one.
    induction entries with
    | nil => cases hkey
    | cons entry entries ih =>
      rw [List.map_cons, dictGet_cons]
      by_cases hrest : k ∈ entries.map Prod.fst
      · rw [ih hrest]
        rfl
      · -- The last entry of the key is the first of the list.
        have hentry : entry.1 = k := ((List.mem_cons.1 hkey).resolve_right hrest).symm
        have hmap : k ∉ (entries.map fun e => (e.1, if e.1 = k then value else e.2)).map
            Prod.fst := by
          rw [List.map_map]
          exact hrest
        rw [dictGet_of_not_mem hmap, if_pos hentry, if_pos hentry]
        rfl
  · rw [if_neg hk]
    clear hkey
    induction entries with
    | nil => rfl
    | cons entry entries ih =>
      rw [List.map_cons, dictGet_cons, dictGet_cons, ih]
      by_cases hentry : entry.1 = k
      · rw [if_pos hentry, if_pos hentry, if_neg (hentry ▸ hk)]
      · rw [if_neg hentry, if_neg hentry]

/-- The entries of some keys are deleted. -/
theorem dictGet_filter (kept : K → Bool) (entries : List (K × V)) (k : K) :
    dictGet (entries.filter fun e => kept e.1) k =
      if kept k then dictGet entries k else none := by
  induction entries with
  | nil => exact (ite_self _).symm
  | cons entry entries ih =>
    by_cases hentry : kept entry.1 = true
    · have hfilter : (entry :: entries).filter (fun e => kept e.1) =
          entry :: entries.filter fun e => kept e.1 :=
        List.filter_cons.trans (if_pos hentry)
      rw [hfilter, dictGet_cons, dictGet_cons, ih]
      by_cases hk : kept k = true
      · rw [if_pos hk, if_pos hk]
      · have hne : entry.1 ≠ k := fun heq => hk (heq ▸ hentry)
        rw [if_neg hk, if_neg hk, if_neg hne]
        rfl
    · have hfilter : (entry :: entries).filter (fun e => kept e.1) =
          entries.filter fun e => kept e.1 :=
        List.filter_cons.trans (if_neg hentry)
      rw [hfilter, ih, dictGet_cons]
      by_cases hk : kept k = true
      · have hne : entry.1 ≠ k := fun heq => hentry (heq ▸ hk)
        rw [if_pos hk, if_pos hk, if_neg hne, Option.or_none]
      · rw [if_neg hk, if_neg hk]

/-! ### Groups -/

section Groups

variable {E : Type w} {key : E → K} {f : List E → V} {rows : List E}

/-- `SELECT key, f(*) ... GROUP BY key`. The order of the groups is not specified. -/
def grouped (key : E → K) (f : List E → V) (rows : List E) : List (K × V) :=
  (rows.map key).dedup.map fun k => (k, f (rows.filter fun e => key e = k))

theorem nodup_keys_grouped : ((grouped key f rows).map Prod.fst).Nodup := by
  have hkeys : (grouped key f rows).map Prod.fst = (rows.map key).dedup := by
    rw [grouped, List.map_map]
    exact List.map_id (rows.map key).dedup
  rw [hkeys]
  exact List.nodup_dedup (rows.map key)

theorem filter_key_ne_nil : (rows.filter fun e => key e = k) ≠ [] ↔ k ∈ rows.map key := by
  rw [Ne, List.filter_eq_nil_iff, List.mem_map]
  constructor
  · intro h
    by_contra hnone
    exact h fun e he hkey => hnone ⟨e, he, of_decide_eq_true hkey⟩
  · rintro ⟨e, he, rfl⟩ h
    exact h e he (decide_eq_true rfl)

/-- A group holds the rows of its key, if there are any. -/
theorem mem_grouped : (k, v) ∈ grouped key f rows ↔
    (rows.filter fun e => key e = k) ≠ [] ∧ v = f (rows.filter fun e => key e = k) := by
  rw [grouped, List.mem_map, filter_key_ne_nil, ← List.mem_dedup]
  constructor
  · rintro ⟨j, hj, heq⟩
    cases heq
    exact ⟨hj, rfl⟩
  · rintro ⟨hk, rfl⟩
    exact ⟨k, hk, rfl⟩

end Groups

end Systems

end RealEstate
