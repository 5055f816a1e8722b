import Mathlib.Data.Int.Order.Basic
import Mathlib.Order.MinMax

/-!
# Time zones

The clock of a place is ahead of UTC by an offset, which changes at certain instants. Set back, a
clock shows some times twice; set forward, it skips some. All times are in microseconds.

- `TimeZone`: the offsets of a place and the instants of their changes, as the tz database has them.
- `TimeZone.localOf`, `TimeZone.toUtc`: what a clock shows at an instant, and the instant of a
  time: of two the first one, and of none what the clock would have shown without the change.
- `TimeZone.change_of_late`, `TimeZone.change_of_early`: where the two disagree on an order.
- `TimeZone.localOf_before`, `TimeZone.toUtc_before` and so on: both in the days around a change.
-/

namespace RealEstate

namespace Systems

/-- From an instant on, a clock is ahead of UTC by another offset, of less than a day. -/
structure OffsetChange where
  instant : Int
  offset : Int
  bounded : -86400000000 < offset ∧ offset < 86400000000

/-- `bisect_right` among the instants of the changes. -/
def offsetFrom (before : Int) : List OffsetChange → Int → Int
  | [], _ => before
  | c :: changes, x => if x < c.instant then before else offsetFrom c.offset changes x

/-- `bisect_right` among the wall times of the changes with `fold=0`: times that are skipped still
have the offset before the change, and times that are shown twice as well. -/
def wallOffset (before : Int) : List OffsetChange → Int → Int
  | [], _ => before
  | c :: changes, y =>
    if y < c.instant + max before c.offset then before else wallOffset c.offset changes y

/-- At `t` the offset goes from `b` to `f`. -/
def IsChange (before : Int) : List OffsetChange → Int → Int → Int → Prop
  | [], _, _, _ => False
  | c :: changes, t, b, f =>
    (t = c.instant ∧ b = before ∧ f = c.offset) ∨ IsChange c.offset changes t b f

/-- There are three days and more between changes. -/
def DaysApart (changes : List OffsetChange) : Prop :=
  changes.Pairwise fun c d => c.instant + 259200000000 ≤ d.instant

/-- Over pairs of changes. -/
instance : DecidablePred DaysApart := fun changes =>
  inferInstanceAs (Decidable (changes.Pairwise fun c d => c.instant + 259200000000 ≤ d.instant))

section

variable {before t b f x y : Int} {changes : List OffsetChange}

theorem bounds_offsetFrom (changes : List OffsetChange) (x : Int)
    (hbefore : -86400000000 < before ∧ before < 86400000000) :
    -86400000000 < offsetFrom before changes x ∧ offsetFrom before changes x < 86400000000 := by
  induction changes generalizing before with
  | nil => exact hbefore
  | cons c changes ih =>
    rw [offsetFrom]
    split
    · exact hbefore
    · exact ih c.bounded

theorem bounds_wallOffset (changes : List OffsetChange) (y : Int)
    (hbefore : -86400000000 < before ∧ before < 86400000000) :
    -86400000000 < wallOffset before changes y ∧ wallOffset before changes y < 86400000000 := by
  induction changes generalizing before with
  | nil => exact hbefore
  | cons c changes ih =>
    rw [wallOffset]
    split
    · exact hbefore
    · exact ih c.bounded

theorem bounds_of_isChange (hbefore : -86400000000 < before ∧ before < 86400000000)
    (hchange : IsChange before changes t b f) :
    (-86400000000 < b ∧ b < 86400000000) ∧ -86400000000 < f ∧ f < 86400000000 := by
  induction changes generalizing before with
  | nil => exact hchange.elim
  | cons c changes ih =>
    rcases hchange with ⟨rfl, rfl, rfl⟩ | hchange
    · exact ⟨hbefore, c.bounded⟩
    · exact ih c.bounded hchange

theorem IsChange.exists_mem (hchange : IsChange before changes t b f) :
    ∃ c ∈ changes, c.instant = t := by
  induction changes generalizing before with
  | nil => exact hchange.elim
  | cons c changes ih =>
    rcases hchange with ⟨rfl, rfl, rfl⟩ | hchange
    · exact ⟨c, List.mem_cons_self, rfl⟩
    · obtain ⟨d, hd, ht⟩ := ih hchange
      exact ⟨d, List.mem_cons_of_mem c hd, ht⟩

/-! ### Before all changes -/

theorem offsetFrom_of_lt (h : ∀ c ∈ changes, x < c.instant) :
    offsetFrom before changes x = before := by
  cases changes with
  | nil => rfl
  | cons c changes => exact if_pos (h c List.mem_cons_self)

/-- Wall times a day before all changes. -/
theorem wallOffset_of_lt (h : ∀ c ∈ changes, y + 86400000000 ≤ c.instant) :
    wallOffset before changes y = before := by
  cases changes with
  | nil => rfl
  | cons c changes =>
    have hfirst := h c List.mem_cons_self
    have hbounded := c.bounded
    exact if_pos (by omega)

/-! ### Orders that the clock does not keep -/

/-- An instant from that of a time on shows an earlier time only after the clock was set back. -/
theorem change_of_late (h : DaysApart changes)
    (hbefore : -86400000000 < before ∧ before < 86400000000)
    (hx : y - wallOffset before changes y ≤ x) (hy : x + offsetFrom before changes x < y) :
    ∃ t b f, IsChange before changes t b f ∧ t ≤ x ∧ t + f < y ∧ y < t + b := by
  induction changes generalizing before with
  | nil =>
    rw [wallOffset] at hx
    rw [offsetFrom] at hy
    omega
  | cons c changes ih =>
    obtain ⟨hfirst, hrest⟩ := List.pairwise_cons.1 h
    have hoffset := c.bounded
    rw [wallOffset] at hx
    rw [offsetFrom] at hy
    by_cases hwall : y < c.instant + max before c.offset
    · rw [if_pos hwall] at hx
      by_cases hinstant : x < c.instant
      · rw [if_pos hinstant] at hy
        omega
      · rw [if_neg hinstant] at hy
        -- It is before the change by the wall clock and behind it by the instant: the change is the
        -- one.
        refine ⟨_, _, _, .inl ⟨rfl, rfl, rfl⟩, Int.not_lt.1 hinstant, ?_⟩
        by_cases hnear : x < c.instant + 259200000000
        · rw [offsetFrom_of_lt fun d hd => hnear.trans_le (hfirst d hd)] at hy
          omega
        · have hlocal := bounds_offsetFrom changes x c.bounded
          omega
    · rw [if_neg hwall] at hx
      -- The next change is two days on, too far for the instant to lie before this one.
      have hinstant : ¬x < c.instant := by
        by_cases hnear : y < c.instant + 172800000000
        · rw [wallOffset_of_lt fun d hd => by have := hfirst d hd; omega] at hx
          omega
        · have hlocal := bounds_wallOffset changes y c.bounded
          omega
      rw [if_neg hinstant] at hy
      obtain ⟨t, b, f, hchange, hrest⟩ := ih hrest c.bounded hx hy
      exact ⟨t, b, f, .inr hchange, hrest⟩

/-- An instant up to that of a time shows a later time only where the clock skipped that time. -/
theorem change_of_early (hx : x ≤ y - wallOffset before changes y)
    (hy : y < x + offsetFrom before changes x) :
    ∃ t b f, IsChange before changes t b f ∧ t ≤ x ∧ x ≤ y - b ∧ t + b ≤ y ∧ y < t + f := by
  induction changes generalizing before with
  | nil =>
    rw [wallOffset] at hx
    rw [offsetFrom] at hy
    omega
  | cons c changes ih =>
    rw [wallOffset] at hx
    rw [offsetFrom] at hy
    by_cases hwall : y < c.instant + max before c.offset
    · rw [if_pos hwall] at hx
      by_cases hinstant : x < c.instant
      · rw [if_pos hinstant] at hy
        omega
      · -- The wall clock is before the change, and the instant behind it.
        refine ⟨_, _, _, .inl ⟨rfl, rfl, rfl⟩, Int.not_lt.1 hinstant, hx, ?_⟩
        omega
    · rw [if_neg hwall] at hx
      by_cases hinstant : x < c.instant
      · rw [if_pos hinstant] at hy
        omega
      · -- Behind this change on both sides, so it is one of the later ones.
        rw [if_neg hinstant] at hy
        obtain ⟨t, b, f, hchange, hrest⟩ := ih hx hy
        exact ⟨t, b, f, .inr hchange, hrest⟩

/-! ### Around a change -/

/-- Three days to either side of a change, the clock has the offsets of that change. -/
theorem offsetFrom_near (h : DaysApart changes) (hchange : IsChange before changes t b f)
    (hx : t - 259200000000 ≤ x) (hx' : x < t + 259200000000) :
    offsetFrom before changes x = if x < t then b else f := by
  induction changes generalizing before with
  | nil => exact hchange.elim
  | cons c changes ih =>
    obtain ⟨hfirst, hrest⟩ := List.pairwise_cons.1 h
    rw [offsetFrom]
    rcases hchange with ⟨rfl, rfl, rfl⟩ | hchange
    · rw [offsetFrom_of_lt fun d hd => hx'.trans_le (hfirst d hd)]
    · obtain ⟨d, hd, rfl⟩ := hchange.exists_mem
      have hpast := hfirst d hd
      rw [if_neg (by omega)]
      exact ih hrest hchange

/-- Two days to either side of a change, times have the offsets of that change. -/
theorem wallOffset_near (h : DaysApart changes)
    (hbefore : -86400000000 < before ∧ before < 86400000000)
    (hchange : IsChange before changes t b f) (hy : t - 172800000000 ≤ y)
    (hy' : y < t + 172800000000) :
    wallOffset before changes y = if y < t + max b f then b else f := by
  induction changes generalizing before with
  | nil => exact hchange.elim
  | cons c changes ih =>
    obtain ⟨hfirst, hrest⟩ := List.pairwise_cons.1 h
    have hoffset := c.bounded
    rw [wallOffset]
    rcases hchange with ⟨rfl, rfl, rfl⟩ | hchange
    · rw [wallOffset_of_lt fun d hd => by have := hfirst d hd; omega]
    · obtain ⟨d, hd, rfl⟩ := hchange.exists_mem
      have hpast := hfirst d hd
      rw [if_neg (by omega)]
      exact ih hrest c.bounded hchange

end

/-! ### Time zones -/

/-- The offsets of a place; in all of the tz database, offsets are of less than a day and changes
lie days apart. -/
structure TimeZone where
  initial : Int
  bounded : -86400000000 < initial ∧ initial < 86400000000
  changes : List OffsetChange
  daysApart : DaysApart changes

namespace TimeZone

variable (zone : TimeZone) {t b f x y : Int}

/-- `t.astimezone(zone)`: what the clock shows at an instant. -/
def localOf (x : Int) : Int := x + offsetFrom zone.initial zone.changes x

/-- `t.replace(tzinfo=zone).astimezone(UTC)`: the instant of a time on the clock. -/
def toUtc (y : Int) : Int := y - wallOffset zone.initial zone.changes y

/-- At `t` the clock is set from the offset `b` to the offset `f`. -/
def HasChange (t b f : Int) : Prop := IsChange zone.initial zone.changes t b f

variable {zone}

/-- **Later instants show earlier times** only after the clock was set back over that time. -/
theorem change_of_late (hx : zone.toUtc y ≤ x) (hy : zone.localOf x < y) :
    ∃ t b f, zone.HasChange t b f ∧ t ≤ x ∧ t + f < y ∧ y < t + b :=
  Systems.change_of_late zone.daysApart zone.bounded hx hy

/-- **Earlier instants show later times** only where the clock skipped that time. -/
theorem change_of_early (hx : x ≤ zone.toUtc y) (hy : y < zone.localOf x) :
    ∃ t b f, zone.HasChange t b f ∧ t ≤ x ∧ x ≤ y - b ∧ t + b ≤ y ∧ y < t + f :=
  Systems.change_of_early hx hy

theorem HasChange.bounds (h : zone.HasChange t b f) :
    (-86400000000 < b ∧ b < 86400000000) ∧ -86400000000 < f ∧ f < 86400000000 :=
  bounds_of_isChange zone.bounded h

theorem localOf_before (h : zone.HasChange t b f) (hx : t - 259200000000 ≤ x) (hx' : x < t) :
    zone.localOf x = x + b :=
  congrArg (x + ·) ((offsetFrom_near zone.daysApart h hx (by omega)).trans (if_pos hx'))

theorem localOf_after (h : zone.HasChange t b f) (hx : t ≤ x) (hx' : x < t + 259200000000) :
    zone.localOf x = x + f :=
  congrArg (x + ·) ((offsetFrom_near zone.daysApart h (by omega) hx').trans (if_neg (by omega)))

/-- A wall time before the change. -/
theorem toUtc_before (h : zone.HasChange t b f) (hy : t - 172800000000 ≤ y)
    (hy' : y < t + b ∨ y < t + f) : zone.toUtc y = y - b := by
  have hbounds := h.bounds
  have hnear := wallOffset_near zone.daysApart zone.bounded h hy (by omega)
  exact congrArg (y - ·) (hnear.trans (if_pos (by omega)))

theorem toUtc_after (h : zone.HasChange t b f) (hb : t + b ≤ y) (hf : t + f ≤ y)
    (hy : y < t + 172800000000) : zone.toUtc y = y - f := by
  have hbounds := h.bounds
  have hnear := wallOffset_near zone.daysApart zone.bounded h (by omega) hy
  exact congrArg (y - ·) (hnear.trans (if_neg (by omega)))

end TimeZone

end Systems

end RealEstate
