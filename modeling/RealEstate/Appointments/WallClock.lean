import RealEstate.Appointments.Calendar
import RealEstate.Systems.Zones

/-!
# Blocks on the clock of the tenant (`modules/appointments/service.py`)

Windows and blocks are times on the clock of the tenant's timezone; they are compared as instants.
On a day when the clock is changed the two differ. Instants, times and lengths are counted in
microseconds here, as a time of a row may have a fraction.

- `zoneOf`: a timezone as slots are computed with it.
- `OverlapsOnClock`: a slot, read on the clock, meets the time of a row.
- `Kept`: whatever else the calendar holds, no slot meets a block on the clock.
- `EndShownTwice`, `StartSkipped`: what a change of the clock does to the two ends of a block.
- `kept_iff`: a block is kept unless one of these happens to it.
-/

namespace RealEstate

namespace Appointments

namespace WallClock

open RealEstate.Core Systems

/-- A time of a day on the clock, in microseconds. -/
def wall (day : Date) (time : Time) : Int := day * 86400000000 + time

/-- `ZoneInfo` of a timezone. -/
def zoneOf (zone : TimeZone) : Zone where
  toUtc day time := zone.toUtc (wall day time)
  dateOf instant := zone.localOf instant / 86400000000

/-- Both ends of a slot are read on the clock. -/
def OverlapsOnClock (zone : TimeZone) (day : Date) (slot : Slot) (row : AgentAvailability) : Prop :=
  zone.localOf slot.1 < wall day row.endTime ∧ wall day row.startTime < zone.localOf slot.2

/-- Whatever else the calendar holds, no slot of the day meets the block on the clock. -/
def Kept (zone : TimeZone) (settings : AppointmentSettings) (tenantId agentUserId : Uuid)
    (day : Date) (block : AgentAvailability) : Prop :=
  ∀ (now : DateTime) (calendar : Calendar),
    (∀ row ∈ calendar.availability, row.endTime < 86400000000) → block ∈ calendar.availability →
      ∀ slot ∈ calendar.freeSlots settings now tenantId agentUserId day,
        ¬OverlapsOnClock zone day slot block

/-- The clock is set back over the end of the block, and of a window from before the change a slot
is left after it, before the end of the block comes again. -/
def EndShownTwice (zone : TimeZone) (slotLen : Seconds) (day : Date) (block : AgentAvailability) :
    Prop :=
  ∃ t b f, zone.HasChange t b f ∧ t + f < wall day block.endTime ∧ wall day block.endTime < t + b ∧
    t + b ≤ wall day 86399999999 ∧ ∃ (startTime : Time) (k : ℕ) (first : Int),
      first = wall day startTime - b + k * slotLen ∧ wall day startTime < t + b ∧ t ≤ first ∧
        first + f < wall day block.endTime ∧ wall day block.startTime < first + slotLen + f ∧
          first + slotLen + f ≤ wall day 86399999999

/-- The clock is set forward over the start of the block, and there is time for a slot: on that day
up to the start of the block, or after the change. -/
def StartSkipped (zone : TimeZone) (slotLen : Seconds) (day : Date) (block : AgentAvailability) :
    Prop :=
  ∃ t b f, zone.HasChange t b f ∧ t + b ≤ wall day block.startTime ∧
    wall day block.startTime < t + f ∧
      ((wall day 0 + slotLen ≤ wall day block.startTime ∧
          (wall day 0 < t + b ∨ wall day 0 - b + f < wall day block.endTime)) ∨
        (t + b + slotLen ≤ wall day block.startTime ∧ t + f < wall day block.endTime ∧
          t + f + slotLen ≤ wall day 86399999999))

section

variable {zone : TimeZone} {settings : AppointmentSettings} {tenantId agentUserId : Uuid}
  {day : Date} {block : AgentAvailability} {startTime endTime : Time} {a slotLen : Int} {k : ℕ}

/-! ### Times of a day -/

/-- The day begins at midnight, whatever the zone does. -/
theorem wall_zero_le (day : Date) (time : Time) : wall day 0 ≤ wall day time :=
  Int.add_le_add_left (Int.natCast_nonneg time) _

/-- Wall times of one day compare as the times do. -/
theorem wall_lt_wall (day : Date) : wall day startTime < wall day endTime ↔ startTime < endTime :=
  (Int.add_lt_add_iff_left _).trans Int.ofNat_lt

theorem wall_le_last (day : Date) (h : endTime < 86400000000) :
    wall day endTime ≤ wall day 86399999999 :=
  Int.add_le_add_left (Int.ofNat_le.2 (Nat.le_pred_of_lt h)) _

theorem wall_last (day : Date) : wall day 86399999999 = wall day 0 + 86399999999 := by
  unfold wall
  omega

/-- Every instant from the first to the last one of a day is a time of it. -/
theorem exists_time (day : Date) (h : wall day 0 ≤ a) (h' : a ≤ wall day 86399999999) :
    ∃ time : Time, wall day time = a ∧ time < 86400000000 := by
  obtain ⟨n, hn⟩ := Int.eq_ofNat_of_zero_le (Int.sub_nonneg.2 h)
  have hlast := wall_last day
  have hlt : n < 86400000000 := by omega
  refine ⟨n, ?_, hlt⟩
  unfold wall at hn ⊢
  omega

/-! ### What is kept -/

/-- A slot after the end of a block meets it on the clock only if that end is shown twice. -/
theorem endShownTwice_of_late (hpositive : 0 < slotLen)
    (hfrom : a = zone.toUtc (wall day startTime) + k * slotLen)
    (hto : a + slotLen ≤ zone.toUtc (wall day endTime)) (htime : startTime < endTime)
    (hend : endTime < 86400000000) (hblock : block.endTime < 86400000000)
    (hlate : zone.toUtc (wall day block.endTime) ≤ a)
    (hclock : zone.localOf a < wall day block.endTime)
    (hclock' : wall day block.startTime < zone.localOf (a + slotLen)) :
    EndShownTwice zone slotLen day block := by
  obtain ⟨t, b, f, hchange, ht, hlow, hhigh⟩ := TimeZone.change_of_late hlate hclock
  have hbounds := hchange.bounds
  have hk : 0 ≤ k * slotLen := mul_nonneg (Int.natCast_nonneg k) hpositive.le
  have hlast := wall_last day
  have hzero := wall_zero_le day block.endTime
  have hzero' := wall_zero_le day startTime
  have hwindow := (wall_lt_wall day).2 htime
  have hwindow' := wall_le_last day hend
  have hblock' := wall_le_last day hblock
  -- the window ends after the change, and starts before it
  have hafter : t + b ≤ wall day endTime := by
    refine not_lt.1 fun hlt => ?_
    have htoUtc := TimeZone.toUtc_before hchange (by omega) (.inl hlt)
    omega
  have htoUtc := TimeZone.toUtc_after hchange hafter (by omega) (by omega)
  have hlocal := TimeZone.localOf_after (x := a) hchange ht (by omega)
  have hlocal' := TimeZone.localOf_after (x := a + slotLen) hchange (by omega) (by omega)
  have hbefore : wall day startTime < t + b := by
    refine not_le.1 fun hle => ?_
    have hfromUtc := TimeZone.toUtc_after hchange hle (by omega) (by omega)
    omega
  have hfromUtc := TimeZone.toUtc_before hchange (by omega) (.inl hbefore)
  exact ⟨t, b, f, hchange, hlow, hhigh, by omega, startTime, k, _, rfl, hbefore, by omega, by omega,
    by omega, by omega⟩

/-- A slot before the start of a block meets it on the clock only if that start is skipped. -/
theorem startSkipped_of_early (hpositive : 0 < slotLen)
    (hfrom : zone.toUtc (wall day startTime) ≤ a)
    (hto : a + slotLen ≤ zone.toUtc (wall day endTime)) (htime : startTime < endTime)
    (hend : endTime < 86400000000) (hblock : block.endTime < 86400000000)
    (hearly : a + slotLen ≤ zone.toUtc (wall day block.startTime))
    (hclock : zone.localOf a < wall day block.endTime)
    (hclock' : wall day block.startTime < zone.localOf (a + slotLen)) :
    StartSkipped zone slotLen day block := by
  obtain ⟨t, b, f, hchange, ht, hinstant, hlow, hhigh⟩ := TimeZone.change_of_early hearly hclock'
  -- The change lies within the day, where clock and instant differ by one of two offsets.
  have hbounds := hchange.bounds
  have hlast := wall_last day
  have hzero := wall_zero_le day block.startTime
  have hzero' := wall_zero_le day startTime
  have hwindow := (wall_lt_wall day).2 htime
  have hwindow' := wall_le_last day hend
  have hblocktime := (wall_lt_wall day).2 block.start_before_end
  have hblock' := wall_le_last day hblock
  refine ⟨t, b, f, hchange, hlow, hhigh, ?_⟩
  by_cases hwindowstart : wall day startTime < t + f
  · -- The window begins before the times that are skipped.
    have hfromUtc := TimeZone.toUtc_before hchange (by omega) (.inr hwindowstart)
    refine .inl ⟨by omega, ?_⟩
    by_cases hday : wall day 0 < t + b
    · exact .inl hday
    · have hlocal := TimeZone.localOf_after (x := a) hchange (by omega) (by omega)
      exact .inr (by omega)
  · have hfromUtc := TimeZone.toUtc_after hchange (by omega) (not_lt.1 hwindowstart) (by omega)
    have htoUtc := TimeZone.toUtc_after (y := wall day endTime) hchange (by omega) (by omega)
      (by omega)
    have hlocal := TimeZone.localOf_after (x := a) hchange (by omega) (by omega)
    exact .inr ⟨by omega, by omega, by omega⟩

theorem kept_of_changes (htz : settings.tz = zoneOf zone)
    (hblock : block.Blocks tenantId agentUserId day) (hbt : block.endTime < 86400000000)
    (hend : ¬EndShownTwice zone settings.slotLen day block)
    (hstart : ¬StartSkipped zone settings.slotLen day block) :
    Kept zone settings tenantId agentUserId day block := by
  intro now calendar htimes hmem slot hslot hclock
  have hfree := mem_freeSlots_iff.1 hslot
  obtain ⟨row, hrow, -, k, hfrom, hlen, hto⟩ := hfree.grid
  have hapart := hfree.blocks block hmem hblock
  unfold windowUtc at hfrom hto hapart
  rw [htz] at hfrom hto hapart
  rw [hlen] at hto
  unfold OverlapsOnClock at hclock
  rw [hlen] at hclock
  obtain ⟨hbefore, hafter⟩ := hclock
  have hpositive := settings.slotLen_pos
  -- As instants the slot is clear of the block: after its end, or before its start.
  by_cases hlate : zone.toUtc (wall day block.endTime) ≤ slot.1
  · exact hend (endShownTwice_of_late hpositive hfrom hto row.start_before_end (htimes row hrow)
      hbt hlate hbefore hafter)
  · have hk : 0 ≤ (k : Int) * settings.slotLen := mul_nonneg (Int.natCast_nonneg k) hpositive.le
    have hearly : slot.1 + settings.slotLen ≤ zone.toUtc (wall day block.startTime) := by
      rw [← hlen]
      exact not_lt.1 fun hlt => hapart ⟨not_le.1 hlate, hlt⟩
    exact hstart (startSkipped_of_early hpositive (hfrom ▸ Int.le_add_of_nonneg_right hk) hto
      row.start_before_end (htimes row hrow) hbt hearly hbefore hafter)

/-! ### What is not kept -/

/-- A window of the day, from one time to another. -/
def windowRow (tenantId agentUserId : Uuid) (day : Date) (startTime endTime : Time)
    (h : startTime < endTime) : AgentAvailability where
  tenantId := tenantId
  agentUserId := agentUserId
  date := some day
  startTime := startTime
  endTime := endTime
  isBlock := false
  weekly_xor_exception := Bool.noConfusion
  start_before_end := h
  block_is_exception := nofun

/-- The slot from `a` on is offered, if a window has it and it is clear of the block. -/
theorem not_kept_of_slot (htz : settings.tz = zoneOf zone)
    (hblock : block.Blocks tenantId agentUserId day) (hbt : block.endTime < 86400000000)
    (hwindow : startTime < endTime) (hend : endTime < 86400000000)
    (hfrom : a = zone.toUtc (wall day startTime) + k * settings.slotLen)
    (hto : a + settings.slotLen ≤ zone.toUtc (wall day endTime))
    (hclear : zone.toUtc (wall day block.endTime) ≤ a ∨
      a + settings.slotLen ≤ zone.toUtc (wall day block.startTime))
    (hclock : zone.localOf a < wall day block.endTime)
    (hclock' : wall day block.startTime < zone.localOf (a + settings.slotLen)) :
    ¬Kept zone settings tenantId agentUserId day block := by
  intro hkept
  let window := windowRow tenantId agentUserId day startTime endTime hwindow
  let calendar : Calendar := ⟨[block, window], []⟩
  have htimes : ∀ row ∈ calendar.availability, row.endTime < 86400000000 :=
    List.forall_mem_cons.2 ⟨hbt, List.forall_mem_singleton.2 hend⟩
  -- The calendar has this block and a window for this slot, and no appointment.
  have hfree : IsFree settings (a - 1) tenantId agentUserId day calendar
      (a, a + settings.slotLen) := by
    refine ⟨?_, Int.sub_lt_self a Int.one_pos, ?_, fun _ h => absurd h List.not_mem_nil⟩
    · refine ⟨window, List.mem_cons_of_mem _ List.mem_cons_self, ⟨rfl, rfl, .inr ⟨rfl, rfl⟩⟩, k, ?_⟩
      unfold windowUtc
      rw [htz]
      exact ⟨hfrom, rfl, hto⟩
    · intro row hrow hblocks
      rcases List.mem_cons.1 hrow with rfl | hrow
      · unfold windowUtc
        rw [htz]
        rintro ⟨hlt, hlt'⟩
        exact hclear.elim (not_le.2 hlt) (not_le.2 hlt')
      · obtain rfl := List.mem_singleton.1 hrow
        exact absurd hblocks.2.2.2 Bool.false_ne_true
  exact hkept (a - 1) calendar htimes List.mem_cons_self (a, a + settings.slotLen)
    (mem_freeSlots_iff.2 hfree) ⟨hclock, hclock'⟩

/-- When the end of a block is shown twice, a slot comes between the two. -/
theorem not_kept_of_shownTwice (htz : settings.tz = zoneOf zone)
    (hblock : block.Blocks tenantId agentUserId day) (hbt : block.endTime < 86400000000)
    (h : EndShownTwice zone settings.slotLen day block) :
    ¬Kept zone settings tenantId agentUserId day block := by
  obtain ⟨t, b, f, hchange, hlow, hhigh, hroom, startTime, k, first, hfirst, hbefore, ht, hmeets,
    hmeets', hlast'⟩ := h
  have hpositive : (0 : Int) < settings.slotLen := settings.slotLen_pos
  have hbounds := hchange.bounds
  have hlast := wall_last day
  have hzero := wall_zero_le day startTime
  have hzero' := wall_zero_le day block.endTime
  have hblock' := wall_le_last day hbt
  -- the window ends as late as the slot, and after the change
  obtain ⟨endTime, hend, hendtime⟩ :=
    exists_time day (a := max (t + b) (first + settings.slotLen + f)) (by omega) (by omega)
  have hwindow : startTime < endTime := (wall_lt_wall day).1 (by omega)
  have hfromUtc := TimeZone.toUtc_before hchange (by omega) (.inl hbefore)
  have htoUtc := TimeZone.toUtc_after (y := wall day endTime) hchange (by omega) (by omega)
    (by omega)
  have hblockUtc := TimeZone.toUtc_before hchange (by omega) (.inl hhigh)
  have hlocal := TimeZone.localOf_after (x := first) hchange ht (by omega)
  have hlocal' :=
    TimeZone.localOf_after (x := first + settings.slotLen) hchange (by omega) (by omega)
  exact not_kept_of_slot (a := first) (k := k) htz hblock hbt hwindow hendtime (by omega)
    (by omega) (.inl (by omega)) (by omega) (by omega)

/-- When the start of a block is skipped, a slot ends where the clock would have shown it. -/
theorem not_kept_of_skipped (htz : settings.tz = zoneOf zone)
    (hblock : block.Blocks tenantId agentUserId day) (hbt : block.endTime < 86400000000)
    (h : StartSkipped zone settings.slotLen day block) :
    ¬Kept zone settings tenantId agentUserId day block := by
  obtain ⟨t, b, f, hchange, hlow, hhigh, hroom⟩ := h
  have hpositive : (0 : Int) < settings.slotLen := settings.slotLen_pos
  have hbounds := hchange.bounds
  have hlast := wall_last day
  have hzero := wall_zero_le day block.startTime
  have hblocktime := (wall_lt_wall day).2 block.start_before_end
  have hblock' := wall_le_last day hbt
  have hblockUtc := TimeZone.toUtc_before hchange (by omega) (.inr hhigh)
  rcases hroom with ⟨hroom, hday⟩ | ⟨hroom, hend, hroom'⟩
  · -- a window up to the start of the block
    obtain ⟨startTime, hstart, -⟩ :=
      exists_time day (a := max (wall day 0) (t + b - settings.slotLen)) (by omega)
        (by omega)
    have hwindow : startTime < block.startTime := (wall_lt_wall day).1 (by omega)
    have hfromUtc := TimeZone.toUtc_before (y := wall day startTime) hchange (by omega)
      (.inr (by omega))
    have hlocal : zone.localOf (wall day startTime - b) < wall day block.endTime := by
      by_cases hlt : wall day startTime < t + b
      · rw [TimeZone.localOf_before hchange (by omega) (by omega)]
        omega
      · rw [TimeZone.localOf_after hchange (by omega) (by omega)]
        omega
    have hlocal' := TimeZone.localOf_after (x := wall day startTime - b + settings.slotLen) hchange
      (by omega) (by omega)
    exact not_kept_of_slot (a := wall day startTime - b) (k := 0) htz hblock hbt hwindow
      (block.start_before_end.trans hbt) (by omega) (by omega) (.inr (by omega)) hlocal (by omega)
  · -- a window from the end of the skipped times on
    obtain ⟨startTime, hstart, -⟩ :=
      exists_time day (a := t + f) (by omega) (by omega)
    obtain ⟨endTime, hend, hendtime⟩ :=
      exists_time day (a := t + f + settings.slotLen) (by omega) (by omega)
    have hwindow : startTime < endTime := (wall_lt_wall day).1 (by omega)
    have hfromUtc := TimeZone.toUtc_after (y := wall day startTime) hchange (by omega) (by omega)
      (by omega)
    have htoUtc := TimeZone.toUtc_after (y := wall day endTime) hchange (by omega) (by omega)
      (by omega)
    have hlocal := TimeZone.localOf_after (x := t) hchange le_rfl (by omega)
    have hlocal' :=
      TimeZone.localOf_after (x := t + settings.slotLen) hchange (by omega) (by omega)
    exact not_kept_of_slot (a := t) (k := 0) htz hblock hbt hwindow hendtime (by omega) (by omega)
      (.inr (by omega)) (by omega) (by omega)

/-- A block holds on the clock unless the clock is set back over its end or forward over its start,
with time for a slot to come between. -/
theorem kept_iff (htz : settings.tz = zoneOf zone)
    (hblock : block.Blocks tenantId agentUserId day) (hbt : block.endTime < 86400000000) :
    Kept zone settings tenantId agentUserId day block ↔
      ¬EndShownTwice zone settings.slotLen day block ∧
        ¬StartSkipped zone settings.slotLen day block := by
  constructor
  · intro hkept
    exact ⟨fun h => not_kept_of_shownTwice htz hblock hbt h hkept,
      fun h => not_kept_of_skipped htz hblock hbt h hkept⟩
  · rintro ⟨hend, hstart⟩
    exact kept_of_changes htz hblock hbt hend hstart

end

/-! ### A Sunday in October -/

/-- Central European time, in 2026. -/
def berlin : TimeZone where
  initial := 3600000000
  bounded := by decide
  changes := [⟨1774746000000000, 7200000000, by decide⟩, ⟨1792890000000000, 3600000000, by decide⟩]
  daysApart := by decide

/-- Slots of half an hour. -/
def inBerlin : AppointmentSettings :=
  { hourly with slotLen := 1800000000, slotLen_pos := by decide, tz := zoneOf berlin }

/-- A block on the day on which summer time ends. -/
def october (startTime endTime : Time) (h : startTime < endTime) : AgentAvailability :=
  { windowRow 1 7 20751 startTime endTime h with
    isBlock := true
    block_is_exception := fun _ => rfl }

/-- From nine to twelve. -/
theorem kept_morning :
    Kept berlin inBerlin 1 7 20751 (october 32400000000 43200000000 (by decide)) := by
  refine (kept_iff rfl ⟨rfl, rfl, rfl, rfl⟩ (by decide)).2 ⟨?_, ?_⟩
  · rintro ⟨t, b, f, ⟨rfl, rfl, rfl⟩ | ⟨rfl, rfl, rfl⟩ | hnone, hlow, hhigh, -⟩
    · exact absurd hhigh (by decide)
    · exact absurd hhigh (by decide)
    · exact hnone
  · rintro ⟨t, b, f, ⟨rfl, rfl, rfl⟩ | ⟨rfl, rfl, rfl⟩ | hnone, hlow, hhigh, -⟩
    · exact absurd hhigh (by decide)
    · exact absurd hhigh (by decide)
    · exact hnone

/-- Between a quarter past two and a quarter to three a slot is offered at two. -/
theorem offered_at_two : ¬∀ (zone : TimeZone) (settings : AppointmentSettings),
    settings.tz = zoneOf zone → ∀ (now : DateTime) (tenantId agentUserId : Uuid) (day : Date)
      (calendar : Calendar), (∀ row ∈ calendar.availability, row.endTime < 86400000000) →
        ∀ slot ∈ calendar.freeSlots settings now tenantId agentUserId day,
          ∀ block ∈ calendar.availability, block.Blocks tenantId agentUserId day →
            ¬OverlapsOnClock zone day slot block := by
  intro hall
  let block := october 8100000000 9900000000 (by decide)
  let window := windowRow 1 7 20751 3600000000 14400000000 (by decide)
  exact hall berlin inBerlin rfl 0 1 7 20751 ⟨[block, window], []⟩ (by decide)
    (1792890000000000, 1792891800000000) (by decide) block List.mem_cons_self ⟨rfl, rfl, rfl, rfl⟩
    ⟨by decide, by decide⟩

end WallClock

end Appointments

end RealEstate
