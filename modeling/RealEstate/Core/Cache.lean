import RealEstate.Core.Base
import RealEstate.Systems.Machine
import RealEstate.Systems.Rows
import RealEstate.Systems.Store

/-!
# Versioned cache keys (`core/cache.py`)

A cached value lies under a key that ends in the version of its group, and a write
retires the whole group by one `INCR` of that version.

- `versionKey`, `valueKey`: the keys, and that no two of them collide.
- `currentVersion`, `lookup`, `remember`, `bumpVersion`: the commands on Redis.
- `Versioned`: what is stored under a version was read after every commit whose bump
  that version counts. Each command keeps it.
-/

namespace RealEstate

namespace Core

namespace Cache

open Systems

/-! ### Keys -/

/-- The entries one version retires: a tenant's id and the name of an entity, neither of which
has a colon in it. -/
structure Group where
  tenantId : String
  entity : String
  tenantId_plain : ':' ∉ tenantId.toList
  entity_plain : ':' ∉ entity.toList
  deriving DecidableEq

/-- `_version_key`. -/
def versionKey (g : Group) : String := "cacheversion:" ++ g.tenantId ++ ":" ++ g.entity

/-- `value_key`. -/
def valueKey (g : Group) (ident : String) (version : Nat) : String :=
  "cache:" ++ g.tenantId ++ ":" ++ g.entity ++ ":" ++ ident ++ ":v" ++ version.repr

/-- Two lists cut at the first occurrence of a separator. -/
theorem append_cons_inj {α : Type} {c : α} :
    ∀ {xs ys xs' ys' : List α}, c ∉ xs → c ∉ xs' → xs ++ c :: ys = xs' ++ c :: ys' →
      xs = xs' ∧ ys = ys'
  | [], _, [], _, _, _, h => ⟨rfl, (List.cons.inj h).2⟩
  | [], _, x' :: _, _, _, hc', h => by
    obtain ⟨rfl, -⟩ := List.cons.inj h
    exact absurd List.mem_cons_self hc'
  | x :: _, _, [], _, hc, _, h => by
    obtain ⟨rfl, -⟩ := List.cons.inj h
    exact absurd List.mem_cons_self hc
  | x :: xs, _, x' :: xs', _, hc, hc', h => by
    obtain ⟨rfl, htail⟩ := List.cons.inj h
    obtain ⟨rfl, hys⟩ := append_cons_inj (fun hm => hc (List.mem_cons_of_mem _ hm))
      (fun hm => hc' (List.mem_cons_of_mem _ hm)) htail
    exact ⟨rfl, hys⟩

/-- The digits of a version hold no colon. -/
theorem colon_not_mem_repr (n : Nat) : ':' ∉ n.repr.toList := by
  rw [Nat.toList_repr]
  intro h
  have hdigit := Nat.isDigit_of_mem_toDigits (by decide) (by decide) h
  revert hdigit
  decide

theorem repr_injective {m n : Nat} (h : m.repr.toList = n.repr.toList) : m = n := by
  rw [Nat.toList_repr, Nat.toList_repr] at h
  have hm := Nat.ofDigitChars_ten_toDigits (n := m)
  rw [h, Nat.ofDigitChars_ten_toDigits] at hm
  exact hm.symm

theorem Group.ext_names {g g' : Group} (ht : g.tenantId.toList = g'.tenantId.toList)
    (he : g.entity.toList = g'.entity.toList) : g = g' := by
  obtain ⟨t, e, _, _⟩ := g
  obtain ⟨t', e', _, _⟩ := g'
  obtain rfl : t = t' := String.toList_injective ht
  obtain rfl : e = e' := String.toList_injective he
  rfl

/-- The text of a version key. -/
theorem toList_versionKey (g : Group) : (versionKey g).toList =
    "cacheversion:".toList ++ (g.tenantId.toList ++ ':' :: g.entity.toList) := by
  unfold versionKey
  rw [String.toList_append, String.toList_append, String.toList_append, List.append_assoc,
    List.append_assoc]
  rfl

/-- The text of a value key. -/
theorem toList_valueKey (g : Group) (ident : String) (version : Nat) :
    (valueKey g ident version).toList = "cache:".toList ++ (g.tenantId.toList ++
      ':' :: (g.entity.toList ++ ':' :: (ident.toList ++ ':' :: 'v' :: version.repr.toList))) := by
  unfold valueKey
  rw [String.toList_append, String.toList_append, String.toList_append, String.toList_append,
    String.toList_append, String.toList_append, String.toList_append, List.append_assoc,
    List.append_assoc, List.append_assoc, List.append_assoc, List.append_assoc,
    List.append_assoc]
  rfl

theorem head?_versionKey (g : Group) : (versionKey g).toList.head? = some 'c' := by
  rw [toList_versionKey, List.head?_append_of_ne_nil _ (by decide)]
  decide

theorem head?_valueKey (g : Group) (ident : String) (version : Nat) :
    (valueKey g ident version).toList.head? = some 'c' := by
  rw [toList_valueKey, List.head?_append_of_ne_nil _ (by decide)]
  decide

/-- Version keys of distinct groups are distinct. -/
theorem versionKey_inj {g g' : Group} (h : versionKey g = versionKey g') : g = g' := by
  have hlist := congrArg String.toList h
  rw [toList_versionKey, toList_versionKey] at hlist
  have hrest := List.append_cancel_left hlist
  obtain ⟨ht, he⟩ := append_cons_inj g.tenantId_plain g'.tenantId_plain hrest
  exact g.ext_names ht he

/-- No value key is a version key. -/
theorem versionKey_ne_valueKey (g g' : Group) (ident : String) (version : Nat) :
    versionKey g ≠ valueKey g' ident version := by
  intro h
  have hlist := congrArg String.toList h
  rw [toList_versionKey, toList_valueKey,
    show "cacheversion:".toList = "cachev".toList ++ "ersion:".toList from rfl,
    List.append_assoc] at hlist
  have hlength : "cachev".toList.length = "cache:".toList.length := by decide
  have hsixth := (List.append_inj hlist hlength).1
  revert hsixth
  decide

/-- Values are never stored under each other's keys. -/
theorem valueKey_inj {g g' : Group} {ident ident' : String} {version version' : Nat}
    (h : valueKey g ident version = valueKey g' ident' version') :
    g = g' ∧ ident = ident' ∧ version = version' := by
  have hlist := congrArg String.toList h
  rw [toList_valueKey, toList_valueKey] at hlist
  have hrest := List.append_cancel_left hlist
  obtain ⟨ht, hrest⟩ := append_cons_inj g.tenantId_plain g'.tenantId_plain hrest
  obtain ⟨he, hrest⟩ := append_cons_inj g.entity_plain g'.entity_plain hrest
  -- The identifier may have colons; the version is cut off from the right.
  have hrev : version.repr.toList.reverse ++ ['v'] ++ ':' :: ident.toList.reverse =
      version'.repr.toList.reverse ++ ['v'] ++ ':' :: ident'.toList.reverse := by
    have hreverse := congrArg List.reverse hrest
    simpa using hreverse
  have hcut : ∀ n : Nat, ':' ∉ n.repr.toList.reverse ++ ['v'] := by
    intro n hm
    rcases List.mem_append.mp hm with hm | hm
    · exact colon_not_mem_repr n (List.mem_reverse.mp hm)
    · revert hm
      decide
  obtain ⟨hversion, hident⟩ := append_cons_inj (hcut version) (hcut version') hrev
  have hdigits := List.append_cancel_right hversion
  exact ⟨g.ext_names ht he, String.toList_injective (List.reverse_injective hident),
    repr_injective (List.reverse_injective hdigits)⟩

/-! ### Commands -/

/-- A value read when `loadedAt` transactions had committed. -/
structure Stamped (A : Type) where
  value : A
  loadedAt : Nat
  deriving DecidableEq

/-- What lies under a key: a version, or the encoding of a value. -/
inductive Cached (B : Type) where
  | counter (n : Nat)
  | blob (encoded : Stamped B)

section Commands

variable {B : Type}

/-- `_current_version`; a missing counter is `_INITIAL_VERSION`. -/
def currentVersion (redis : Store String (Cached B)) (g : Group) : Nat :=
  match redis.get (versionKey g) with
  | some (.counter n) => n
  | _ => 0

/-- The blob under a key. -/
def lookup (redis : Store String (Cached B)) (key : String) : Option (Stamped B) :=
  match redis.get key with
  | some (.blob encoded) => some encoded
  | _ => none

/-- The `SET` of a value with its time to live. -/
def remember (redis : Store String (Cached B)) (key : String) (encoded : Stamped B)
    (ttlSeconds : Nat) : Store String (Cached B) :=
  redis.set key (.blob encoded) (some ttlSeconds)

/-- `bump_version`: `INCR` starts at 1 and leaves the counter without a deadline. -/
def bumpVersion (redis : Store String (Cached B)) (g : Group) : Store String (Cached B) :=
  match redis.get (versionKey g) with
  | none => redis.set (versionKey g) (.counter 1) none
  | some (.counter n) => redis.set (versionKey g) (.counter (n + 1)) none
  | some (.blob _) => redis

theorem lookup_eq_some {redis : Store String (Cached B)} {key : String} {b : Stamped B} :
    lookup redis key = some b ↔ redis.get key = some (.blob b) := by
  unfold lookup
  constructor
  · intro h
    split at h
    · next hget =>
      rw [hget, Option.some.inj h]
    · cases h
  · intro h
    rw [h]

/-- The version of `g` is `n`, and it does not expire. -/
def Counts (redis : Store String (Cached B)) (g : Group) (n : Nat) : Prop :=
  redis.entries (versionKey g) = if n = 0 then none else some ⟨.counter n, none⟩

theorem Counts.get {redis : Store String (Cached B)} {g : Group} {n : Nat}
    (h : Counts redis g n) :
    redis.get (versionKey g) = if n = 0 then none else some (.counter n) := by
  rw [Store.get, show redis.entries (versionKey g) = _ from h]
  split <;> rfl

/-- The current version is the count of bumps. -/
theorem Counts.currentVersion {redis : Store String (Cached B)} {g : Group} {n : Nat}
    (h : Counts redis g n) : currentVersion redis g = n := by
  rw [Cache.currentVersion, h.get]
  by_cases hn : n = 0
  · rw [if_pos hn, hn]
  · rw [if_neg hn]

/-- The `INCR` goes through. -/
theorem Counts.bumpVersion_eq {redis : Store String (Cached B)} {g : Group} {n : Nat}
    (h : Counts redis g n) :
    bumpVersion redis g = redis.set (versionKey g) (.counter (n + 1)) none := by
  rw [bumpVersion, h.get]
  by_cases hn : n = 0
  · rw [if_pos hn, hn]
  · rw [if_neg hn]

/-! ### What a version stands for -/

/-- `bumped g` lists, in order, the commits whose bumps of `g` ran. What lies under version `v`
was read after the first `v` of them. -/
structure Versioned (redis : Store String (Cached B)) (bumped : Group → List Nat) : Prop where
  counts : ∀ g, Counts redis g (bumped g).length
  fresh : ∀ g ident v b, redis.get (valueKey g ident v) = some (.blob b) →
    v ≤ (bumped g).length ∧ ∀ c ∈ (bumped g).take v, c ≤ b.loadedAt

/-- The bumps finished at the start are among those an as late version counts. -/
theorem mem_take_of_initial {after bumped : List Nat} {version c : Nat} (hpre : after <+: bumped)
    (hlen : after.length ≤ version) (hc : c ∈ after) : c ∈ bumped.take version := by
  obtain ⟨rest, rfl⟩ := hpre
  rw [List.take_append]
  refine List.mem_append_left _ ?_
  rw [List.take_of_length_le hlen]
  exact hc

/-- A finished invalidation is added to its own list only. -/
theorem prefix_update_append {K : Type} [DecidableEq K] (f : K → List Nat) (k j : K) (c : Nat) :
    f j <+: Function.update f k (f k ++ [c]) j := by
  by_cases hj : j = k
  · subst hj
    rw [Function.update_self]
    exact List.prefix_append ..
  · have hsame : Function.update f k (f k ++ [c]) j = f j := Function.update_of_ne hj ..
    exact hsame.symm ▸ List.prefix_refl (f j)

/-- A list that has grown by one. -/
theorem mem_update_append {K : Type} [DecidableEq K] {f : K → List Nat} {k j : K} {c d : Nat}
    (h : d ∈ Function.update f k (f k ++ [c]) j) : d ∈ f j ∨ (j = k ∧ d = c) := by
  by_cases hj : j = k
  · subst hj
    rw [Function.update_self] at h
    rcases List.mem_append.mp h with hd | hd
    · exact .inl hd
    · exact .inr ⟨rfl, List.mem_singleton.mp hd⟩
  · rw [Function.update_of_ne hj] at h
    exact .inl h

namespace Versioned

variable {redis : Store String (Cached B)} {bumped : Group → List Nat}

theorem empty : Versioned (.empty : Store String (Cached B)) fun _ => [] where
  counts _ := rfl
  fresh _ _ _ _ h := nomatch h

/-- What `current_version` reads. -/
theorem currentVersion (h : Versioned redis bumped) (g : Group) :
    currentVersion redis g = (bumped g).length := (h.counts g).currentVersion

/-- Time does not touch the counters, which never expire. -/
theorem wait (h : Versioned redis bumped) (seconds : Nat) :
    Versioned (redis.wait seconds) bumped where
  counts := h.counts
  fresh g ident v b hget := h.fresh g ident v b (Store.get_of_get_wait hget)

/-- A value stored under any key but a version's, fresh if the key is a value's. -/
theorem set (h : Versioned redis bumped) {key : String} {encoded : Stamped B} {ttl : Option Nat}
    (hkey : ∀ g, key ≠ versionKey g)
    (hfresh : ∀ g ident v, key = valueKey g ident v →
      v ≤ (bumped g).length ∧ ∀ c ∈ (bumped g).take v, c ≤ encoded.loadedAt) :
    Versioned (redis.set key (.blob encoded) ttl) bumped where
  counts g := by
    have hsame : (redis.set key (.blob encoded) ttl).entries (versionKey g) =
        redis.entries (versionKey g) := Function.update_of_ne (hkey g).symm ..
    rw [Counts, hsame]
    exact h.counts g
  fresh g ident v b hget := by
    by_cases he : valueKey g ident v = key
    · rw [he] at hget
      rcases redis.get_set_cases key (.blob encoded) ttl with hset | hset
      · rw [hset] at hget
        cases hget
        exact hfresh g ident v he.symm
      · rw [hset] at hget
        cases hget
    · rw [Store.get_set_of_ne _ _ _ he] at hget
      exact h.fresh g ident v b hget

/-- A value is stored under a version of the past. -/
theorem remember (h : Versioned redis bumped) {g : Group} {ident : String} {v : Nat}
    {encoded : Stamped B} {ttlSeconds : Nat} (hv : v ≤ (bumped g).length)
    (hc : ∀ c ∈ (bumped g).take v, c ≤ encoded.loadedAt) :
    Versioned (remember redis (valueKey g ident v) encoded ttlSeconds) bumped := by
  refine h.set (fun g' he => versionKey_ne_valueKey g' g ident v he.symm) ?_
  intro g' ident' v' he
  obtain ⟨rfl, rfl, rfl⟩ := valueKey_inj he
  exact ⟨hv, hc⟩

theorem del (h : Versioned redis bumped) {key : String} (hkey : ∀ g, key ≠ versionKey g) :
    Versioned (redis.del key) bumped where
  counts g := by
    have hsame : (redis.del key).entries (versionKey g) = redis.entries (versionKey g) :=
      Function.update_of_ne (hkey g).symm ..
    rw [Counts, hsame]
    exact h.counts g
  fresh g ident v b hget := by
    by_cases he : valueKey g ident v = key
    · rw [he, Store.get_del_self] at hget
      cases hget
    · rw [Store.get_del_of_ne _ he] at hget
      exact h.fresh g ident v b hget

/-- A bump opens an empty version: what is stored stays under the earlier ones. -/
theorem bump (h : Versioned redis bumped) (g : Group) (c : Nat) :
    Versioned (bumpVersion redis g) (Function.update bumped g (bumped g ++ [c])) := by
  rw [(h.counts g).bumpVersion_eq]
  constructor
  · intro g'
    by_cases hg : g' = g
    · subst hg
      have hlen : (bumped g' ++ [c]).length ≠ 0 := by simp
      rw [Counts, Function.update_self, if_neg hlen, List.length_append]
      exact Function.update_self ..
    · have hkey : versionKey g' ≠ versionKey g := fun he => hg (versionKey_inj he)
      have hsame : (redis.set (versionKey g) (.counter ((bumped g).length + 1)) none).entries
          (versionKey g') = redis.entries (versionKey g') := Function.update_of_ne hkey ..
      rw [Counts, Function.update_of_ne hg, hsame]
      exact h.counts g'
  · intro g' ident v b hget
    rw [Store.get_set_of_ne _ _ _ (versionKey_ne_valueKey g g' ident v).symm] at hget
    obtain ⟨hv, hc⟩ := h.fresh g' ident v b hget
    by_cases hg : g' = g
    · subst hg
      rw [Function.update_self, List.length_append, List.take_append_of_le_length hv]
      exact ⟨by omega, hc⟩
    · rw [Function.update_of_ne hg]
      exact ⟨hv, hc⟩

end Versioned

end Commands

end Cache

end Core

end RealEstate
