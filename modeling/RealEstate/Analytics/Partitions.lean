import Mathlib.Algebra.Order.Field.Basic
import Mathlib.Tactic.Linarith
import RealEstate.Systems.Integers
import RealEstate.Systems.JsonText
import RealEstate.Systems.Months

/-!
# Partitions of the raw events (`modules/analytics/service.py`, `repository.py`)

Raw events lie in one partition a month. A job creates the partitions of the months to come,
another one drops those that are past the retention period; it finds the month of a partition by
reading its name.

- `monthPartition`, `partitionMonthEnd`: the name and bounds of a month, and the month of a name.
- `Catalog`: the partitions there are, and the names of all other tables.
- `ensurePartitions`, `pruneRawEvents`: the two jobs.
- `Ensured`, `Pruned`: what each of them is for.
- `Sound`: names that read as months are those of months.
- `partitions_maintained`: over such tables every run of the jobs does what it is for.
-/

namespace RealEstate

namespace Analytics

namespace Partitions

open Systems

/-! ### Months -/

/-- `RAW_RETENTION_DAYS`. -/
def rawRetentionDays : Nat := 90

/-- `PARTITION_LOOKAHEAD_MONTHS`. -/
def partitionLookaheadMonths : Nat := 3

/-- `_add_month`. -/
def addMonth (year month : Int) : Int × Int :=
  if month = 12 then (year + 1, 1) else (year, month + 1)

/-- What fits an `int` of C. -/
def InCInt (n : Int) : Prop := -2147483648 ≤ n ∧ n ≤ 2147483647

/-- Two comparisons. -/
instance : DecidablePred InCInt := fun n => inferInstanceAs (Decidable (_ ≤ n ∧ n ≤ _))

/-- `date(year, month, 1)`; a date is its ordinal. -/
def firstDay (year month : Int) : Except PyException Nat :=
  if ¬(InCInt year ∧ InCInt month) then .error .overflowError
  else if (1 ≤ year ∧ year ≤ 9999) ∧ 1 ≤ month ∧ month ≤ 12 then
    .ok (ymdToOrd year.toNat month.toNat 1)
  else .error .valueError

/-- `f"analytics_events_{year:04d}_{month:02d}"`, for the years and months of dates. -/
def monthName (year month : Nat) : Text :=
  ("analytics_events".toList ++ '_' :: numeral 10 4 year) ++ '_' :: two month

/-- A day's first instant in UTC, in microseconds. -/
def midnight (ordinal : Nat) : Int := ordinal * 86400000000

/-- A child of `analytics_events`, with the bounds of its range. -/
structure Partition where
  name : Text
  lower : Int
  upper : Int
  deriving DecidableEq

/-- `_month_partition`. -/
def monthPartition (year month : Int) : Except PyException Partition := do
  let start ← firstDay year month
  let stop ← firstDay (addMonth year month).1 (addMonth year month).2
  return ⟨monthName year.toNat month.toNat, midnight start, midnight stop⟩

/-- `_partition_month_end`: a name without two underscores, or without two numbers that are a
month, is no partition of a month. -/
def partitionMonthEnd (name : Text) : Except PyException (Option Nat) :=
  let last := rpartition '_' name
  let middle := rpartition '_' last.1
  if last.2.1 = [] ∨ middle.2.1 = [] then .ok none
  else match parseInt 10 middle.2.2, parseInt 10 last.2.2 with
    | some year, some month =>
      match firstDay (addMonth year month).1 (addMonth year month).2 with
      | .ok stop => .ok (some stop)
      | .error .valueError => .ok none
      | .error e => .error e
    | _, _ => .ok none

/-! ### Tables -/

/-- The partitions of `analytics_events`, and the names of the other tables. -/
structure Catalog where
  partitions : List Partition
  tables : List Text
  deriving DecidableEq

/-- Two ranges without a common instant. -/
def Apart (p q : Partition) : Prop := p.upper ≤ q.lower ∨ q.upper ≤ p.lower

/-- Two comparisons of dates. -/
instance : DecidableRel Apart := fun p q => inferInstanceAs (Decidable (p.upper ≤ q.lower ∨ _))

/-- What fails: Python, or PostgreSQL where ranges would overlap. -/
inductive Failure where
  | exception (e : PyException)
  | overlap
  deriving DecidableEq

/-- `existing_partition_names`. -/
def Catalog.existingPartitionNames (c : Catalog) : List Text := c.partitions.map (·.name)

/-- `create_partition`: `IF NOT EXISTS` is about the name, of whatever table. -/
def Catalog.createPartition (c : Catalog) (p : Partition) : Except Failure Catalog :=
  if p.name ∈ c.existingPartitionNames ++ c.tables then .ok c
  else if ∀ q ∈ c.partitions, Apart p q then .ok { c with partitions := p :: c.partitions }
  else .error .overlap

/-- `drop_partition`. -/
def Catalog.dropPartition (c : Catalog) (name : Text) : Catalog :=
  { c with partitions := c.partitions.filter (·.name ≠ name) }

/-! ### Jobs -/

/-- A `datetime` in UTC. -/
abbrev UtcTime := { t : Datetime // t.val.offset = some 0 }

/-- Its microseconds, on the scale of `midnight`. -/
def UtcTime.micros (now : UtcTime) : Int := now.val.val.micros

/-- The day of a time, as `date.toordinal` counts. -/
def UtcTime.ordinal (now : UtcTime) : Nat :=
  ymdToOrd now.val.val.year now.val.val.month now.val.val.day

/-- The loop of `ensure_partitions`, with the names that it created. -/
def ensureLoop (existing : List Text) :
    Nat → Int → Int → Catalog → Except Failure (Catalog × List Text)
  | 0, _, _, c => .ok (c, [])
  | n + 1, year, month, c => do
    let p ← (monthPartition year month).mapError Failure.exception
    let next := addMonth year month
    if p.name ∈ existing then ensureLoop existing n next.1 next.2 c
    else
      let c ← c.createPartition p
      let (c, created) ← ensureLoop existing n next.1 next.2 c
      return (c, p.name :: created)

/-- `ensure_partitions`. -/
def ensurePartitions (now : UtcTime) (c : Catalog) : Except Failure (Catalog × List Text) :=
  ensureLoop c.existingPartitionNames (partitionLookaheadMonths + 1) now.val.val.year
    now.val.val.month c

/-- `(now - timedelta(days=RAW_RETENTION_DAYS)).date()`. -/
def cutoff (now : UtcTime) : Except Failure Nat :=
  if rawRetentionDays < now.ordinal then .ok (now.ordinal - rawRetentionDays)
  else .error (.exception .overflowError)

/-- The loop of `prune_raw_events`, with the names that it dropped. -/
def pruneLoop (cutoff : Nat) : List Text → Catalog → Except Failure (Catalog × List Text)
  | [], c => .ok (c, [])
  | name :: names, c => do
    match ← (partitionMonthEnd name).mapError Failure.exception with
    | some monthEnd =>
      if monthEnd ≤ cutoff then
        let (c, dropped) ← pruneLoop cutoff names (c.dropPartition name)
        return (c, name :: dropped)
      else pruneLoop cutoff names c
    | none => pruneLoop cutoff names c

/-- `prune_raw_events`. -/
def pruneRawEvents (now : UtcTime) (c : Catalog) : Except Failure (Catalog × List Text) := do
  pruneLoop (← cutoff now) c.existingPartitionNames c

/-- The two jobs. -/
inductive Job where
  | ensure
  | prune

/-- One of the two nightly tasks. -/
def Job.run (now : UtcTime) (c : Catalog) : Job → Except Failure (Catalog × List Text)
  | .ensure => ensurePartitions now c
  | .prune => pruneRawEvents now c

/-! ### What the jobs are for -/

/-- A partition with the name and the bounds of a month. -/
def IsMonth (p : Partition) : Prop := ∃ year month, monthPartition year month = .ok p

/-- Every instant of the partition is at least the retention period old. -/
def AllOld (now : UtcTime) (p : Partition) : Prop :=
  ∀ instant : ℚ, (p.lower : ℚ) ≤ instant → instant < p.upper →
    (midnight rawRetentionDays : ℚ) ≤ now.micros - instant

/-- The months from the current one on have their partitions, one after the other. -/
structure Ensured (now : UtcTime) (before after : Catalog) : Prop where
  months : ∃ month : Nat → Partition,
    (∀ i ≤ partitionLookaheadMonths, IsMonth (month i) ∧ month i ∈ after.partitions) ∧
      ((month 0).lower ≤ now.micros ∧ now.micros < (month 0).upper) ∧
        ∀ i < partitionLookaheadMonths, (month i).upper = (month (i + 1)).lower
  kept : ∀ p ∈ before.partitions, p ∈ after.partitions
  apart : after.partitions.Pairwise Apart

/-- The partitions of months that are old are gone, and nothing else is. -/
structure Pruned (now : UtcTime) (before after : Catalog) : Prop where
  partitions : ∀ p, p ∈ after.partitions ↔
    p ∈ before.partitions ∧ ¬(IsMonth p ∧ AllOld now p)
  tables : after.tables = before.tables

/-- What a task is for. -/
def Job.Done (now : UtcTime) (before after : Catalog) : Job → Prop
  | .ensure => Ensured now before after
  | .prune => Pruned now before after

/-- Every job of a run succeeds, and does what it is for. -/
def Maintained : List (UtcTime × Job) → Catalog → Prop
  | [], _ => True
  | (now, job) :: jobs, c => ∃ after names, job.run now c = .ok (after, names) ∧
      job.Done now c after ∧ Maintained jobs after

section

variable {c after : Catalog} {p q : Partition} {j k n : Nat} {now : UtcTime}

/-! ### Months by number -/

/-- The partition of a month by its number. -/
def monthOf (k : Nat) : Partition :=
  ⟨monthName (k / 12) (k % 12 + 1), midnight (firstOf k), midnight (firstOf (k + 1))⟩

/-- The months whose first day and whose end are dates. -/
def Representable (k : Nat) : Prop := 12 ≤ k ∧ k + 1 < 120000

/-- In the count of months, `_add_month` adds one. -/
theorem addMonth_number (k : Nat) :
    addMonth (k / 12 : Nat) (k % 12 + 1 : Nat) =
      ((((k + 1) / 12 : Nat) : Int), (((k + 1) % 12 + 1 : Nat) : Int)) := by
  unfold addMonth
  split
  · next h => exact Prod.ext (by dsimp only; omega) (by dsimp only; omega)
  · next h => exact Prod.ext (by dsimp only; omega) (by dsimp only; omega)

/-- In the count of months, `date(year, month, 1)` is `firstOf`. -/
theorem firstDay_number (h : 12 ≤ k) (h' : k < 120000) :
    firstDay (k / 12 : Nat) (k % 12 + 1 : Nat) = .ok (firstOf k) := by
  have hint : InCInt (k / 12 : Nat) ∧ InCInt (k % 12 + 1 : Nat) := by
    unfold InCInt
    omega
  unfold firstDay
  rw [if_neg (not_not_intro hint), if_pos (by omega)]
  rfl

/-- In the count of months, `_month_partition` is `monthOf`. -/
theorem monthPartition_number (h : Representable k) :
    monthPartition (k / 12 : Nat) (k % 12 + 1 : Nat) = .ok (monthOf k) := by
  obtain ⟨hlow, hhigh⟩ := h
  unfold monthPartition
  rw [addMonth_number, firstDay_number hlow (by omega),
    firstDay_number (by omega : 12 ≤ k + 1) hhigh]
  rfl

theorem of_firstDay {year month : Int} {day : Nat} (h : firstDay year month = .ok day) :
    (1 ≤ year ∧ year ≤ 9999) ∧ 1 ≤ month ∧ month ≤ 12 := by
  unfold firstDay at h
  split at h
  · cases h
  · split at h
    · next hrange => exact hrange
    · cases h

/-- The partitions that the code makes are those of representable months. -/
theorem isMonth_iff : IsMonth p ↔ ∃ k, Representable k ∧ p = monthOf k := by
  constructor
  · rintro ⟨year, month, h⟩
    have hstart : ∃ start, firstDay year month = .ok start := by
      cases hstart : firstDay year month with
      | error e =>
        unfold monthPartition at h
        rw [hstart] at h
        cases h
      | ok start => exact ⟨start, rfl⟩
    obtain ⟨start, hstart⟩ := hstart
    have hstop : ∃ stop, firstDay (addMonth year month).1 (addMonth year month).2 = .ok stop := by
      cases hstop : firstDay (addMonth year month).1 (addMonth year month).2 with
      | error e =>
        unfold monthPartition at h
        rw [hstart, hstop] at h
        cases h
      | ok stop => exact ⟨stop, rfl⟩
    obtain ⟨stop, hstop⟩ := hstop
    -- Both months exist as dates, so the year and the month are in range and have a number.
    have hrange := of_firstDay hstart
    obtain ⟨k, hyear, hmonth⟩ : ∃ k : Nat, year = (k / 12 : Nat) ∧ month = (k % 12 + 1 : Nat) :=
      ⟨12 * year.toNat + (month.toNat - 1), by omega, by omega⟩
    rw [hyear, hmonth, addMonth_number] at hstop
    have hnext := of_firstDay hstop
    have hk : Representable k := by
      unfold Representable
      omega
    rw [hyear, hmonth, monthPartition_number hk] at h
    cases h
    exact ⟨k, hk, rfl⟩
  · rintro ⟨k, hk, rfl⟩
    exact ⟨_, _, monthPartition_number hk⟩

/-! ### Names -/

/-- `int` reads a numeral of fixed width back. -/
theorem parseInt_numeral {width n : Nat} (hwidth : 0 < width) (hlimit : width ≤ maxStrDigits)
    (hn : n < 10 ^ width) : parseInt 10 (numeral 10 width n) = some (n : Int) := by
  have hdigits : ∀ c ∈ numeral 10 width n, (digitValue c).isSome := by
    intro c hc
    rw [digitValue, if_pos (isDigit_of_mem_numeral hc)]
    rfl
  rw [parseInt_of_digits (numeral_ne_nil hwidth) hdigits
    (fun _ => (length_numeral (by decide) hn).symm ▸ hlimit),
    parseNumeral_numeral (by decide) (by decide) hwidth]
  rfl

/-- The name of a month is read as the end of the month. -/
theorem partitionMonthEnd_monthOf (h : Representable k) :
    partitionMonthEnd (monthOf k).name = .ok (some (firstOf (k + 1))) := by
  obtain ⟨hlow, hhigh⟩ := h
  have hdash : ∀ {width n : Nat}, '_' ∉ numeral 10 width n := fun hc =>
    Bool.false_ne_true (isDigit_of_mem_numeral hc)
  have hyear : parseInt 10 (numeral 10 4 (k / 12)) = some ((k / 12 : Nat) : Int) :=
    parseInt_numeral (by decide) (by decide) (by omega)
  have hmonth : parseInt 10 (two (k % 12 + 1)) = some ((k % 12 + 1 : Nat) : Int) :=
    parseInt_numeral (by decide) (by decide) (by omega)
  have hlast : rpartition '_' (monthOf k).name =
      ("analytics_events".toList ++ '_' :: numeral 10 4 (k / 12), ['_'], two (k % 12 + 1)) :=
    rpartition_append hdash _
  have hmiddle : rpartition '_' ("analytics_events".toList ++ '_' :: numeral 10 4 (k / 12)) =
      ("analytics_events".toList, ['_'], numeral 10 4 (k / 12)) := rpartition_append hdash _
  unfold partitionMonthEnd
  dsimp only
  rw [hlast, hmiddle, if_neg (not_or.2 ⟨List.cons_ne_nil _ _, List.cons_ne_nil _ _⟩), hyear, hmonth]
  dsimp only
  rw [addMonth_number, firstDay_number (by omega : 12 ≤ k + 1) hhigh]

/-- A name belongs to one month. -/
theorem eq_of_name_eq (hj : Representable j) (hk : Representable k)
    (h : (monthOf j).name = (monthOf k).name) : j = k := by
  have hends := partitionMonthEnd_monthOf hj
  rw [h, partitionMonthEnd_monthOf hk] at hends
  have hfirst : firstOf (k + 1) = firstOf (j + 1) := Option.some.inj (Except.ok.inj hends)
  obtain ⟨hj, -⟩ := hj
  obtain ⟨hk, -⟩ := hk
  rcases Nat.lt_trichotomy j k with hlt | heq | hlt
  · have := @firstOf_lt_firstOf (j + 1) (k + 1) (by omega) (by omega)
    omega
  · exact heq
  · have := @firstOf_lt_firstOf (k + 1) (j + 1) (by omega) (by omega)
    omega

theorem midnight_le {a b : Nat} (h : a ≤ b) : midnight a ≤ midnight b := by
  unfold midnight
  omega

/-- Different months do not overlap. -/
theorem apart_monthOf (hj : Representable j) (hk : Representable k) (h : j ≠ k) :
    Apart (monthOf j) (monthOf k) := by
  obtain ⟨hj, -⟩ := hj
  obtain ⟨hk, -⟩ := hk
  rcases Nat.lt_or_gt_of_ne h with hlt | hlt
  · exact .inl (midnight_le (firstOf_le_firstOf (by omega) hlt))
  · exact .inr (midnight_le (firstOf_le_firstOf (by omega) hlt))

/-! ### Sound tables -/

/-- Names that read as months are those of months, and no other partition reaches into month `k`
or beyond. -/
structure Sound (k : Nat) (c : Catalog) : Prop where
  apart : c.partitions.Pairwise Apart
  names : ∀ p ∈ c.partitions, partitionMonthEnd p.name = .ok none ∨ IsMonth p
  foreign : ∀ p ∈ c.partitions, IsMonth p ∨ p.upper ≤ midnight (firstOf k)
  tables : ∀ p, IsMonth p → p.name ∉ c.tables

/-- Later, fewer months are to come. -/
theorem Sound.mono (h : Sound j c) (hj : 12 ≤ j) (hjk : j ≤ k) : Sound k c where
  apart := h.apart
  names := h.names
  foreign := fun p hp => (h.foreign p hp).imp_right fun hupper =>
    hupper.trans (midnight_le (firstOf_le_firstOf hj hjk))
  tables := h.tables

/-- The name of a month is that of its partition. -/
theorem Sound.mem_of_name (h : Sound k c) (hj : Representable j)
    (hname : (monthOf j).name ∈ c.existingPartitionNames) : monthOf j ∈ c.partitions := by
  obtain ⟨p, hp, hpname⟩ := List.mem_map.1 hname
  rcases h.names p hp with hnone | hmonth
  · rw [hpname, partitionMonthEnd_monthOf hj] at hnone
    cases hnone
  · obtain ⟨i, hi, rfl⟩ := isMonth_iff.1 hmonth
    obtain rfl := eq_of_name_eq hi hj hpname
    exact hp

/-- The partition of a month to come can be created. -/
theorem Sound.createPartition (h : Sound k c) (hk : 12 ≤ k) (hkj : k ≤ j) (hj : Representable j) :
    ∃ after, c.createPartition (monthOf j) = .ok after ∧ Sound k after ∧
      ∀ p, p ∈ after.partitions ↔ p = monthOf j ∨ p ∈ c.partitions := by
  have hmonth : IsMonth (monthOf j) := isMonth_iff.2 ⟨j, hj, rfl⟩
  unfold Catalog.createPartition
  by_cases hname : (monthOf j).name ∈ c.existingPartitionNames ++ c.tables
  · -- A partition of this name is there already, and no table has it.
    have hmem : monthOf j ∈ c.partitions := by
      rcases List.mem_append.1 hname with hname | hname
      · exact h.mem_of_name hj hname
      · exact absurd hname (h.tables _ hmonth)
    refine ⟨c, if_pos hname, h, fun p => ⟨.inr, ?_⟩⟩
    rintro (rfl | hp)
    · exact hmem
    · exact hp
  · -- The new partition is apart from those of other months, and from older foreign ones.
    have hapart : ∀ q ∈ c.partitions, Apart (monthOf j) q := by
      intro q hq
      rcases h.foreign q hq with hq' | hupper
      · obtain ⟨i, hi, rfl⟩ := isMonth_iff.1 hq'
        refine apart_monthOf hj hi ?_
        rintro rfl
        exact hname (List.mem_append_left _ (List.mem_map_of_mem hq))
      · exact .inr (hupper.trans (midnight_le (firstOf_le_firstOf hk hkj)))
    rw [if_neg hname, if_pos hapart]
    exact ⟨_, rfl, {
      apart := List.pairwise_cons.2 ⟨hapart, h.apart⟩
      names := List.forall_mem_cons.2 ⟨.inr hmonth, h.names⟩
      foreign := List.forall_mem_cons.2 ⟨.inl hmonth, h.foreign⟩
      tables := h.tables }, fun p => List.mem_cons⟩

/-! ### The jobs -/

/-- The loop leaves every month that it goes through with a partition. -/
theorem ensureLoop_spec {existing : List Text} (n : Nat) (hk : 12 ≤ k) (hkj : k ≤ j)
    (hj : j + n < 120000) (h : Sound k c)
    (hexisting : ∀ name ∈ existing, name ∈ c.existingPartitionNames) :
    ∃ after created, ensureLoop existing n (j / 12 : Nat) (j % 12 + 1 : Nat) c =
        .ok (after, created) ∧ Sound k after ∧ (∀ p ∈ c.partitions, p ∈ after.partitions) ∧
          ∀ i, j ≤ i → i < j + n → monthOf i ∈ after.partitions := by
  induction n generalizing j c with
  | zero => exact ⟨c, [], rfl, h, fun p hp => hp, fun i hi hi' => absurd hi' (by omega)⟩
  | succ n ih =>
    have hmonth : Representable j := ⟨by omega, by omega⟩
    unfold ensureLoop
    rw [monthPartition_number hmonth, addMonth_number]
    by_cases hname : (monthOf j).name ∈ existing
    · have hmem := h.mem_of_name hmonth (hexisting _ hname)
      obtain ⟨after, created, hloop, hafter, hkept, hmonths⟩ :=
        @ih c (j + 1) (by omega) (by omega) h hexisting
      refine ⟨after, created, ?_, hafter, hkept, fun i hi hi' => ?_⟩
      · exact (if_pos hname).trans hloop
      · rcases Nat.eq_or_lt_of_le hi with rfl | hlt
        · exact hkept _ hmem
        · exact hmonths i hlt (by omega)
    · -- Created, it joins what the rest of the loop keeps.
      obtain ⟨next, hcreate, hnext, hpartitions⟩ := h.createPartition hk hkj hmonth
      obtain ⟨after, created, hloop, hafter, hkept, hmonths⟩ :=
        @ih next (j + 1) (by omega) (by omega) hnext fun name hin => by
          obtain ⟨p, hp, hpname⟩ := List.mem_map.1 (hexisting name hin)
          exact List.mem_map.2 ⟨p, (hpartitions p).2 (.inr hp), hpname⟩
      refine ⟨after, (monthOf j).name :: created, ?_, hafter,
        fun p hp => hkept p ((hpartitions p).2 (.inr hp)), fun i hi hi' => ?_⟩
      · refine (if_neg hname).trans ?_
        rw [hcreate]
        show (ensureLoop existing n _ _ next >>= _) = _
        rw [hloop]
        rfl
      · rcases Nat.eq_or_lt_of_le hi with rfl | hlt
        · exact hkept _ ((hpartitions _).2 (.inl rfl))
        · exact hmonths i hlt (by omega)

/-- A name that reads as a month which ended by a date. -/
def EndsBy (cutoff : Nat) (name : Text) : Prop :=
  ∃ monthEnd, partitionMonthEnd name = .ok (some monthEnd) ∧ monthEnd ≤ cutoff

/-- The loop drops what has such a name. -/
theorem pruneLoop_spec {cutoff : Nat} {names : List Text}
    (hnames : ∀ name ∈ names, ∃ r, partitionMonthEnd name = .ok r) :
    ∃ after dropped, pruneLoop cutoff names c = .ok (after, dropped) ∧ after.tables = c.tables ∧
      after.partitions.Sublist c.partitions ∧
        ∀ p, p ∈ after.partitions ↔
          p ∈ c.partitions ∧ ¬(p.name ∈ names ∧ EndsBy cutoff p.name) := by
  induction names generalizing c with
  | nil =>
    refine ⟨c, [], rfl, rfl, List.Sublist.refl _, fun p => ?_⟩
    exact ⟨fun hp => ⟨hp, fun hin => List.not_mem_nil hin.1⟩, fun hp => hp.1⟩
  | cons name names ih =>
    obtain ⟨r, hr⟩ := hnames name List.mem_cons_self
    have hrest := fun name' hname => hnames name' (List.mem_cons_of_mem name hname)
    -- a name that is kept counts for nothing
    have hkeep : ¬EndsBy cutoff name → ∀ p : Partition,
        (p.name ∈ name :: names ∧ EndsBy cutoff p.name) ↔
          p.name ∈ names ∧ EndsBy cutoff p.name := by
      intro hname p
      refine ⟨?_, fun hp => ⟨List.mem_cons_of_mem _ hp.1, hp.2⟩⟩
      rintro ⟨hin, hends⟩
      rcases List.mem_cons.1 hin with heq | hin
      · exact absurd (heq ▸ hends) hname
      · exact ⟨hin, hends⟩
    unfold pruneLoop
    rw [hr]
    cases r with
    | none =>
      obtain ⟨after, dropped, hloop, htables, hsublist, hmem⟩ := @ih c hrest
      refine ⟨after, dropped, hloop, htables, hsublist, fun p => ?_⟩
      rw [hmem, hkeep]
      rintro ⟨monthEnd, hend, -⟩
      rw [hr] at hend
      cases hend
    | some monthEnd =>
      by_cases hcutoff : monthEnd ≤ cutoff
      · obtain ⟨after, dropped, hloop, htables, hsublist, hmem⟩ := @ih (c.dropPartition name) hrest
        refine ⟨after, name :: dropped, ?_, htables, hsublist.trans List.filter_sublist,
          fun p => ?_⟩
        · refine (if_pos hcutoff).trans ?_
          rw [hloop]
          rfl
        · have hends : p.name = name → EndsBy cutoff p.name := by
            rintro rfl
            exact ⟨monthEnd, hr, hcutoff⟩
          rw [hmem, Catalog.dropPartition, List.mem_filter, decide_eq_true_eq, List.mem_cons]
          constructor
          · rintro ⟨⟨hp, hne⟩, hnot⟩
            refine ⟨hp, ?_⟩
            rintro ⟨heq | hin, hends⟩
            · exact hne heq
            · exact hnot ⟨hin, hends⟩
          · rintro ⟨hp, hnot⟩
            exact ⟨⟨hp, fun heq => hnot ⟨.inl heq, hends heq⟩⟩,
              fun hin => hnot ⟨.inr hin.1, hin.2⟩⟩
      · obtain ⟨after, dropped, hloop, htables, hsublist, hmem⟩ := @ih c hrest
        refine ⟨after, dropped, (if_neg hcutoff).trans hloop, htables, hsublist, fun p => ?_⟩
        rw [hmem, hkeep]
        rintro ⟨monthEnd', hend, hle⟩
        rw [hr] at hend
        cases hend
        exact hcutoff hle

/-! ### The present -/

/-- The number of the current month. -/
def UtcTime.month (now : UtcTime) : Nat := monthNumber now.val.val.year now.val.val.month

theorem UtcTime.valid (now : UtcTime) : now.val.val.Valid := now.val.property

/-- A time lies within its day. -/
theorem UtcTime.micros_bounds (now : UtcTime) :
    midnight now.ordinal ≤ now.micros ∧ now.micros < midnight (now.ordinal + 1) := by
  obtain ⟨-, -, -, hhour, hminute, hsecond, hmicrosecond, -⟩ := now.valid
  unfold UtcTime.micros UtcTime.ordinal DatetimeFields.micros midnight
  omega

/-- A day lies within its month. -/
theorem UtcTime.month_bounds (now : UtcTime) :
    firstOf now.month ≤ now.ordinal ∧ now.ordinal < firstOf (now.month + 1) := by
  obtain ⟨hyear, hmonth, hday, -⟩ := now.valid
  exact mem_month hyear.1 hmonth.1 hmonth.2 hday.1 hday.2

theorem UtcTime.twelve_le_month (now : UtcTime) : 12 ≤ now.month := by
  obtain ⟨hyear, -⟩ := now.valid
  unfold UtcTime.month monthNumber
  omega

/-- The current month contains the present. -/
theorem UtcTime.mem_month (now : UtcTime) :
    (monthOf now.month).lower ≤ now.micros ∧ now.micros < (monthOf now.month).upper := by
  obtain ⟨hlower, hupper⟩ := now.micros_bounds
  obtain ⟨hfirst, hnext⟩ := now.month_bounds
  exact ⟨(midnight_le hfirst).trans hlower, hupper.trans_le (midnight_le hnext)⟩

/-- Later times are in later months. -/
theorem UtcTime.month_le {now' : UtcTime} (h : now.micros ≤ now'.micros) :
    now.month ≤ now'.month := by
  refine Nat.le_of_not_lt fun hlt => ?_
  have hlate : now'.micros < midnight (firstOf (now'.month + 1)) := now'.mem_month.2
  have hearly : midnight (firstOf now.month) ≤ now.micros := now.mem_month.1
  have hmonths := midnight_le
    (firstOf_le_firstOf (Nat.le_succ_of_le now'.twelve_le_month) hlt)
  exact absurd h (not_le.2 (hlate.trans_le (hmonths.trans hearly)))

/-- The times at which both jobs stay among the years of dates. -/
def InRange (now : UtcTime) : Prop :=
  rawRetentionDays < now.ordinal ∧ now.month + (partitionLookaheadMonths + 1) < 120000

/-- Two comparisons. -/
instance : DecidablePred InRange := fun now =>
  inferInstanceAs (Decidable (rawRetentionDays < now.ordinal ∧ _))

/-- A range is old as soon as its end is. -/
theorem allOld_iff (h : p.lower < p.upper) :
    AllOld now p ↔ p.upper + midnight rawRetentionDays ≤ now.micros := by
  unfold AllOld
  constructor
  · intro hold
    refine not_lt.1 fun hyoung => ?_
    -- an instant of the range that is too young, if its end is
    have hbelow : (now.micros : ℚ) - midnight rawRetentionDays < p.upper := by
      have hcast : (now.micros : ℚ) < p.upper + midnight rawRetentionDays := by
        exact_mod_cast hyoung
      linarith
    have hlower : (p.lower : ℚ) < p.upper := by exact_mod_cast h
    obtain ⟨instant, hinstant, hupper⟩ := exists_between (max_lt hlower hbelow)
    have hstart := (le_max_left _ _).trans_lt hinstant
    have hlate := (le_max_right _ _).trans_lt hinstant
    have hage := hold instant hstart.le hupper
    linarith
  · intro hend instant hlower hupper
    have hcast : (p.upper : ℚ) + midnight rawRetentionDays ≤ now.micros := by exact_mod_cast hend
    linarith

/-- What a name says of the end of a month decides whether the month is old. -/
theorem Sound.endsBy_iff (h : Sound k c) (hp : p ∈ c.partitions)
    (hdays : rawRetentionDays < now.ordinal) :
    EndsBy (now.ordinal - rawRetentionDays) p.name ↔ IsMonth p ∧ AllOld now p := by
  obtain ⟨hstart, hstop⟩ := now.micros_bounds
  -- For the months of the code: the last midnight is past the cutoff just in case all its rows are.
  have hmonth : ∀ i, Representable i → (EndsBy (now.ordinal - rawRetentionDays) (monthOf i).name ↔
      AllOld now (monthOf i)) := by
    intro i hi
    have hname := partitionMonthEnd_monthOf hi
    have hbounds : (monthOf i).lower < (monthOf i).upper := by
      have hlt : firstOf i < firstOf (i + 1) := firstOf_lt_firstOf hi.1 (Nat.lt_succ_self i)
      show midnight (firstOf i) < midnight (firstOf (i + 1))
      unfold midnight
      omega
    rw [allOld_iff hbounds]
    show _ ↔ midnight (firstOf (i + 1)) + midnight rawRetentionDays ≤ now.micros
    constructor
    · rintro ⟨monthEnd, hend, hle⟩
      rw [hname] at hend
      cases hend
      unfold midnight at hstart hstop ⊢
      omega
    · intro hold
      refine ⟨_, hname, ?_⟩
      unfold midnight at hstart hstop hold
      omega
  constructor
  · intro hends
    rcases h.names p hp with hnone | hp'
    · obtain ⟨monthEnd, hend, -⟩ := hends
      rw [hnone] at hend
      cases hend
    · obtain ⟨i, hi, rfl⟩ := isMonth_iff.1 hp'
      exact ⟨hp', (hmonth i hi).1 hends⟩
  · rintro ⟨hp', hold⟩
    obtain ⟨i, hi, rfl⟩ := isMonth_iff.1 hp'
    exact (hmonth i hi).2 hold

/-! ### Runs -/

/-- `ensure_partitions` succeeds from a sound catalog, does its job and leaves it sound. -/
theorem Sound.ensured (h : Sound now.month c) (hrange : InRange now) :
    ∃ after names, ensurePartitions now c = .ok (after, names) ∧ Ensured now c after ∧
      Sound now.month after := by
  obtain ⟨-, hmonth, -⟩ := now.valid
  have hnumber : now.month / 12 = now.val.val.year ∧ now.month % 12 + 1 = now.val.val.month := by
    unfold UtcTime.month monthNumber
    omega
  obtain ⟨after, created, hloop, hafter, hkept, hmonths⟩ :=
    ensureLoop_spec (partitionLookaheadMonths + 1) now.twelve_le_month (Nat.le_refl _) hrange.2 h
      fun name hname => hname
  rw [hnumber.1, hnumber.2] at hloop
  refine ⟨after, created, hloop, ?_, hafter⟩
  exact {
    months := by
      refine ⟨fun i => monthOf (now.month + i), fun i hi => ⟨?_, ?_⟩, now.mem_month,
        fun i _ => rfl⟩
      · have hsome := hrange.2
        exact isMonth_iff.2 ⟨_, ⟨Nat.le_add_right_of_le now.twelve_le_month, by omega⟩, rfl⟩
      · exact hmonths _ (Nat.le_add_right _ _) (by omega)
    kept := hkept
    apart := hafter.apart }

theorem Sound.pruned (h : Sound now.month c) (hrange : InRange now) :
    ∃ after names, pruneRawEvents now c = .ok (after, names) ∧ Pruned now c after ∧
      Sound now.month after := by
  -- Every name that is read back is of a month, or of no partition of the code's.
  have hnames : ∀ name ∈ c.existingPartitionNames, ∃ r, partitionMonthEnd name = .ok r := by
    intro name hname
    obtain ⟨p, hp, rfl⟩ := List.mem_map.1 hname
    rcases h.names p hp with hnone | hmonth
    · exact ⟨_, hnone⟩
    · obtain ⟨i, hi, rfl⟩ := isMonth_iff.1 hmonth
      exact ⟨_, partitionMonthEnd_monthOf hi⟩
  obtain ⟨after, dropped, hloop, htables, hsublist, hmem⟩ :=
    @pruneLoop_spec c (now.ordinal - rawRetentionDays) _ hnames
  have hcutoff : cutoff now = .ok (now.ordinal - rawRetentionDays) := if_pos hrange.1
  refine ⟨after, dropped, ?_, ?_, ?_⟩
  · unfold pruneRawEvents
    rw [hcutoff]
    exact hloop
  · refine ⟨fun p => ?_, htables⟩
    rw [hmem]
    refine and_congr_right fun hp => not_congr ?_
    rw [h.endsBy_iff hp hrange.1, and_iff_right_iff_imp]
    exact fun _ => List.mem_map_of_mem hp
  · exact {
      apart := h.apart.sublist hsublist
      names := fun p hp => h.names p (hsublist.subset hp)
      foreign := fun p hp => h.foreign p (hsublist.subset hp)
      tables := fun p hp => htables ▸ h.tables p hp }

theorem Sound.done (h : Sound now.month c) (hrange : InRange now) (job : Job) :
    ∃ after names, job.run now c = .ok (after, names) ∧ job.Done now c after ∧
      Sound now.month after := by
  cases job with
  | ensure => exact h.ensured hrange
  | prune => exact h.pruned hrange

/-- **Over sound tables the partitions are maintained**: at any times that go forward, in any
order of the two jobs, the months to come have their partitions and just the old ones go. -/
theorem partitions_maintained {jobs : List (UtcTime × Job)} {c : Catalog}
    (hforward : jobs.Pairwise fun first later => first.1.micros ≤ later.1.micros)
    (hrange : ∀ job ∈ jobs, InRange job.1)
    (hsound : ∀ first ∈ jobs.head?, Sound first.1.month c) : Maintained jobs c := by
  induction jobs generalizing c with
  | nil => trivial
  | cons job jobs ih =>
    obtain ⟨now, job⟩ := job
    obtain ⟨hlater, hforward⟩ := List.pairwise_cons.1 hforward
    have hnow : Sound now.month c := hsound _ rfl
    obtain ⟨after, names, hrun, hdone, hafter⟩ :=
      hnow.done (hrange (now, job) List.mem_cons_self) job
    refine ⟨after, names, hrun, hdone, ih hforward
      (fun job hjob => hrange job (List.mem_cons_of_mem _ hjob)) fun next hnext => ?_⟩
    exact hafter.mono now.twelve_le_month
      (UtcTime.month_le (hlater next (List.mem_of_mem_head? hnext)))

end

/-! ### Two catalogs -/

/-- A noon in UTC. -/
def noon (year month day : Nat)
    (h : (⟨year, month, day, 12, 0, 0, 0, some 0⟩ : DatetimeFields).Valid) : UtcTime :=
  ⟨⟨⟨year, month, day, 12, 0, 0, 0, some 0⟩, h⟩, rfl⟩

/-- A month, and what there was before the months. -/
def archived : Catalog where
  partitions := [
    ⟨monthName 2026 7, midnight (ymdToOrd 2026 7 1), midnight (ymdToOrd 2026 8 1)⟩,
    ⟨"analytics_events_archive".toList, midnight 1, midnight (ymdToOrd 2026 7 1)⟩]
  tables := ["listings".toList]

/-- A catalog that holds an old partition, over two nights. -/
theorem archived_maintained :
    Maintained [(noon 2026 7 23 (by decide), .ensure), (noon 2026 12 31 (by decide), .prune)]
      archived := by
  have hjuly : IsMonth ⟨monthName 2026 7, midnight (ymdToOrd 2026 7 1),
      midnight (ymdToOrd 2026 8 1)⟩ := ⟨2026, 7, by decide⟩
  have harchive : partitionMonthEnd "analytics_events_archive".toList = .ok none := by
    decide
  refine partitions_maintained (by decide) (by decide) fun first hfirst => ?_
  obtain rfl := Option.some.inj hfirst
  exact {
    apart := by decide
    names := List.forall_mem_cons.2 ⟨.inr hjuly, List.forall_mem_singleton.2 (.inl harchive)⟩
    foreign := List.forall_mem_cons.2
      ⟨.inl hjuly, List.forall_mem_singleton.2 (.inr (by decide))⟩
    tables := by
      rintro p hp hname
      obtain ⟨k, -, rfl⟩ := isMonth_iff.1 hp
      have hhead : some 'a' = some 'l' := congrArg List.head? (List.mem_singleton.1 hname)
      exact absurd hhead (by decide) }

/-- A quarter, named after its first month. -/
def quarter : Partition :=
  ⟨"analytics_events_quarter_2026_04".toList, midnight (ymdToOrd 2026 4 1),
    midnight (ymdToOrd 2026 7 1)⟩

/-- The quarter is dropped in the middle of the next one, with events of June that are younger
than the retention period; and a table that has the name of a month keeps the partition of that
month from being created. -/
theorem names_misread :
    ¬(∀ (now : UtcTime) (c after : Catalog) (names : List Text),
      pruneRawEvents now c = .ok (after, names) → Pruned now c after) ∧
    ¬∀ (now : UtcTime) (c after : Catalog) (names : List Text),
      ensurePartitions now c = .ok (after, names) → Ensured now c after := by
  constructor
  · intro h
    have hprune : pruneRawEvents (noon 2026 8 15 (by decide)) ⟨[quarter], []⟩ =
        .ok (⟨[], []⟩, [quarter.name]) := by decide
    have hyoung : ¬AllOld (noon 2026 8 15 (by decide)) quarter := by
      rw [allOld_iff (by decide)]
      decide
    refine List.not_mem_nil (((h _ _ _ _ hprune).partitions quarter).2 ⟨List.mem_cons_self, ?_⟩)
    exact fun hold => hyoung hold.2
  · intro h
    have hensure : ensurePartitions (noon 2026 8 15 (by decide)) ⟨[], [monthName 2026 8]⟩ =
        .ok (⟨[monthOf 24322, monthOf 24321, monthOf 24320], [monthName 2026 8]⟩,
          [monthName 2026 8, monthName 2026 9, monthName 2026 10, monthName 2026 11]) := by
      decide
    obtain ⟨month, hmonths, hnow, -⟩ := (h _ _ _ _ hensure).months
    have hlate : ∀ p ∈ [monthOf 24322, monthOf 24321, monthOf 24320],
        ¬p.lower ≤ (noon 2026 8 15 (by decide)).micros := by decide
    exact hlate _ (hmonths 0 (Nat.zero_le _)).2 hnow.1

end Partitions

end Analytics

end RealEstate
