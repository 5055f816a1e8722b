import Mathlib.Algebra.Order.Group.Basic
import Mathlib.Data.List.Sort

/-!
# Sorted sets and sliding windows

- `SortedSet M T`: members with scores, kept in the order of their scores, and
  the commands `zadd`, `zremrangebyscore`, `zcard` and `oldest` on it.
- `Spaced window limit log`: every entry of the log (latest first) came when
  fewer than `limit` of the entries before it were younger than `window`.
- `Spaced.countP_le`: then no stretch of time shorter than the window
  (`Narrow`) holds more than `limit` entries, wherever it lies.
-/

namespace RealEstate

namespace Systems

universe u v

/-! ### Sorted sets -/

/-- Members with scores, in the order of the scores. -/
structure SortedSet (M : Type u) (T : Type v) [LinearOrder T] where
  hits : List (M × T)
  sorted : hits.Pairwise fun a b => a.2 ≤ b.2

namespace SortedSet

variable {M : Type u} {T : Type v} [LinearOrder T]

/-- No members. -/
def empty : SortedSet M T where
  hits := []
  sorted := .nil

/-- `ZREMRANGEBYSCORE lo hi`. -/
def zremrangebyscore (z : SortedSet M T) (lo hi : T) : SortedSet M T where
  hits := z.hits.filter fun hit => ¬ (lo ≤ hit.2 ∧ hit.2 ≤ hi)
  sorted := z.sorted.filter _

/-- `ZADD`: a member that is there gets the new score. -/
def zadd [DecidableEq M] (z : SortedSet M T) (member : M) (score : T) : SortedSet M T where
  hits := (z.hits.filter fun hit => hit.1 ≠ member).orderedInsert
    (fun a b => a.2 ≤ b.2) (member, score)
  sorted := by
    have : Std.Total fun a b : M × T => a.2 ≤ b.2 := ⟨fun a b => le_total a.2 b.2⟩
    have : IsTrans (M × T) fun a b => a.2 ≤ b.2 := ⟨fun _ _ _ h₁ h₂ => le_trans h₁ h₂⟩
    exact (z.sorted.filter _).orderedInsert (member, score)

/-- `ZCARD`. -/
def zcard (z : SortedSet M T) : Nat := z.hits.length

/-- `ZRANGE 0 0 WITHSCORES`. -/
def oldest (z : SortedSet M T) : Option (M × T) := z.hits.head?

/-- The members scored above `lo`. -/
def above (z : SortedSet M T) (lo : T) : Nat := z.hits.countP fun hit => lo < hit.2

theorem above_le_zcard (z : SortedSet M T) (lo : T) : z.above lo ≤ z.zcard :=
  List.countP_le_length

/-- Removing scores up to `hi` removes nothing that lies above a later bound. -/
theorem above_zremrangebyscore (z : SortedSet M T) {lo hi bound : T} (h : hi ≤ bound) :
    (z.zremrangebyscore lo hi).above bound = z.above bound := by
  show List.countP _ (List.filter _ _) = List.countP _ _
  rw [List.countP_filter]
  refine List.countP_congr fun hit _ => ?_
  have hkept : bound < hit.2 → ¬ (lo ≤ hit.2 ∧ hit.2 ≤ hi) := fun hlt hin =>
    absurd (lt_of_le_of_lt h hlt) (not_lt.2 hin.2)
  simp only [Bool.and_eq_true, decide_eq_true_eq]
  exact ⟨fun hboth => hboth.1, fun hlt => ⟨hlt, hkept hlt⟩⟩

section Zadd

variable [DecidableEq M] (z : SortedSet M T) {member : M}

/-- A new member leaves the others in place. -/
theorem perm_zadd (hnew : ∀ hit ∈ z.hits, hit.1 ≠ member) (score : T) :
    (z.zadd member score).hits.Perm ((member, score) :: z.hits) := by
  have hsame : z.hits.filter (fun hit => decide (hit.1 ≠ member)) = z.hits :=
    List.filter_eq_self.2 fun hit hhit => decide_eq_true (hnew hit hhit)
  show (List.orderedInsert _ _ (z.hits.filter fun hit => decide (hit.1 ≠ member))).Perm _
  rw [hsame]
  exact List.perm_orderedInsert _ _ _

/-- A new member counts. -/
theorem zcard_zadd (hnew : ∀ hit ∈ z.hits, hit.1 ≠ member) (score : T) :
    (z.zadd member score).zcard = z.zcard + 1 :=
  (z.perm_zadd hnew score).length_eq

/-- It counts if it is above. -/
theorem above_zadd (hnew : ∀ hit ∈ z.hits, hit.1 ≠ member) (score lo : T) :
    (z.zadd member score).above lo = z.above lo + if lo < score then 1 else 0 := by
  show List.countP _ _ = List.countP _ _ + _
  rw [(z.perm_zadd hnew score).countP_eq, List.countP_cons]
  simp only [decide_eq_true_eq]

end Zadd

end SortedSet

/-! ### Sliding windows -/

section Spaced

variable {T : Type v} [AddCommGroup T] [LinearOrder T]

/-- Each entry (the latest first) came when fewer than `limit` of the entries before it
were younger than `window`. -/
def Spaced (window : T) (limit : Nat) : List T → Prop
  | [] => True
  | t :: before => (before.countP fun x => t - window < x) < limit ∧ Spaced window limit before

/-- Any two instants of the stretch `p` lie less than `window` apart. -/
def Narrow (window : T) (p : T → Prop) : Prop := ∀ x y, p x → p y → y - window < x

/-- A stretch shorter than the window holds at most `limit` entries: the latest of them
came when the others were all younger than the window. -/
theorem Spaced.countP_le {window : T} {limit : Nat} {p : T → Prop} [DecidablePred p]
    (hp : Narrow window p) : ∀ {log : List T}, Spaced window limit log →
      (log.countP fun x => p x) ≤ limit
  | [], _ => Nat.zero_le _
  | t :: before, h => by
    by_cases ht : p t
    · have hyoung : (before.countP fun x => p x) ≤ before.countP fun x => t - window < x := by
        refine List.countP_mono_left fun x _ hx => ?_
        exact decide_eq_true (hp x t (of_decide_eq_true hx) ht)
      rw [List.countP_cons, if_pos (decide_eq_true ht)]
      exact lt_of_le_of_lt hyoung h.1
    · rw [List.countP_cons, if_neg (by simpa using ht)]
      exact h.2.countP_le hp

variable [IsOrderedAddMonoid T]

/-- An interval that is open above. -/
theorem narrow_closed_open (window a : T) : Narrow window fun t => a ≤ t ∧ t < a + window := by
  rintro x y ⟨hx, -⟩ ⟨-, hy⟩
  exact lt_of_lt_of_le (sub_lt_iff_lt_add.2 hy) hx

theorem narrow_open_closed (window a : T) : Narrow window fun t => a < t ∧ t ≤ a + window := by
  rintro x y ⟨hx, -⟩ ⟨-, hy⟩
  exact lt_of_le_of_lt (sub_le_iff_le_add.2 hy) hx

end Spaced

end Systems

end RealEstate
