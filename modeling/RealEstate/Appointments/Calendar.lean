import RealEstate.Appointments.Booking
import RealEstate.Core.Exceptions

/-!
# What is shown and what can be booked (`modules/appointments/service.py`)

`_free_slots` with its two queries, and `book` up to the appointment, over the rows of
`agent_availability` and `appointments` as one request sees them.

- `IsFree`: the slots a calendar has, without the loop: on the grid of an open window, in the
  future, and clear of every block and every live appointment with its buffer.
- `mem_scanWindow_iff`: the loop visits the whole grid of a window.
- `mem_freeSlots_iff`, `freeSlots_sorted`: `Calendar.freeSlots` lists these slots and no others,
  by their start, although it asks for the appointments of one interval only.
- `slots_exact`: so a tour is accepted when it starts with such a slot of its own day.

Nothing here depends on the unit of `DateTime`.
-/

namespace RealEstate

namespace Appointments

open RealEstate.Core Systems

/-- The rows of `agent_availability` and `appointments`. -/
structure Calendar where
  availability : List AgentAvailability
  appointments : List Appointment

section Calendar

variable (settings : AppointmentSettings) (now : DateTime) (tenantId agentUserId : Uuid)
  (day : Date) (calendar : Calendar)

namespace Calendar

/-- `availability_for_date`. -/
def availabilityForDate : List AgentAvailability :=
  calendar.availability.filter (·.onDate tenantId agentUserId day)

/-- `active_between`. -/
def activeBetween (window : Slot) : List Appointment :=
  calendar.appointments.filter (·.activeBetween tenantId agentUserId window)

/-- `_free_slots`. -/
def freeSlots : List Slot :=
  let rows := calendar.availabilityForDate tenantId agentUserId day
  match busyWindow settings.buffer (openWindows settings.tz day rows) with
  | none => []
  | some window =>
    Appointments.freeSlots settings now day rows
      (calendar.activeBetween tenantId agentUserId window)

end Calendar

/-- The row opens a window of the agent on the day: the weekday's template, or an exception that
adds one. -/
def AgentAvailability.Opens (row : AgentAvailability) : Prop :=
  row.tenantId = tenantId ∧ row.agentUserId = agentUserId ∧
    (row.dayOfWeek = some (weekday day) ∨ (row.date = some day ∧ row.isBlock = false))

/-- The row takes time off the agent's day. -/
def AgentAvailability.Blocks (row : AgentAvailability) : Prop :=
  row.tenantId = tenantId ∧ row.agentUserId = agentUserId ∧ row.date = some day ∧
    row.isBlock = true

/-- A slot the agent has free on the day. -/
structure IsFree (slot : Slot) : Prop where
  grid : ∃ row ∈ calendar.availability, row.Opens tenantId agentUserId day ∧ ∃ k : ℕ,
    slot.1 = (windowUtc settings.tz day row).1 + k * settings.slotLen ∧
      slot.2 = slot.1 + settings.slotLen ∧ slot.2 ≤ (windowUtc settings.tz day row).2
  future : now < slot.1
  blocks : ∀ row ∈ calendar.availability, row.Blocks tenantId agentUserId day →
    ¬Overlap slot (windowUtc settings.tz day row)
  busy : ∀ a ∈ calendar.appointments, a.tenantId = tenantId → a.agentUserId = agentUserId →
    a.status.active = true → ¬Overlap slot (busySlot settings.buffer a)

end Calendar

/-! ### The rows of the day -/

section Rows

variable {tenantId agentUserId : Uuid} {day : Date} {calendar : Calendar}

/-- A row is weekly or dated, and not both. -/
theorem AgentAvailability.date_eq_none {row : AgentAvailability} (h : row.dayOfWeek.isSome = true) :
    row.date = none := by
  have hxor := row.weekly_xor_exception
  cases hdate : row.date with
  | none => rfl
  | some d =>
    obtain ⟨w, hw⟩ := Option.isSome_iff_exists.mp h
    rw [hdate, hw] at hxor
    exact absurd rfl hxor

/-- `availability_for_date` finds the weekly rows of the weekday and the rows of the date. -/
theorem mem_availabilityForDate {row : AgentAvailability} :
    row ∈ calendar.availabilityForDate tenantId agentUserId day ↔
      row ∈ calendar.availability ∧ row.tenantId = tenantId ∧ row.agentUserId = agentUserId ∧
        (row.dayOfWeek = some (weekday day) ∨ row.date = some day) := by
  unfold Calendar.availabilityForDate AgentAvailability.onDate
  rw [List.mem_filter, decide_eq_true_eq]

/-- The open windows of a day are its rows that are no blocks. -/
theorem mem_openWindows {tz : Zone} {w : Slot} :
    w ∈ openWindows tz day (calendar.availabilityForDate tenantId agentUserId day) ↔
      ∃ row ∈ calendar.availability, row.Opens tenantId agentUserId day ∧
        windowUtc tz day row = w := by
  unfold openWindows
  rw [List.mem_map]
  constructor
  · rintro ⟨row, hrow, hw⟩
    rw [List.mem_append, List.mem_filter, List.mem_filter, mem_availabilityForDate] at hrow
    rcases hrow with ⟨⟨hmem, ht, ha, hday⟩, hweekly⟩ | ⟨⟨hmem, ht, ha, hday⟩, hdated⟩
    · -- The table's check keeps weekly and dated rows apart.
      have hnone : row.date = none := row.date_eq_none hweekly
      rw [hnone] at hday
      exact ⟨row, hmem, ⟨ht, ha, .inl (hday.resolve_right nofun)⟩, hw⟩
    · rw [Bool.and_eq_true, Bool.not_eq_true'] at hdated
      rcases hday with hweekly | hdate
      · have hnone : row.date = none := row.date_eq_none (by rw [hweekly]; rfl)
        rw [hnone] at hdated
        cases hdated.1
      · exact ⟨row, hmem, ⟨ht, ha, .inr ⟨hdate, hdated.2⟩⟩, hw⟩
  · rintro ⟨row, hmem, ⟨ht, ha, hday⟩, hw⟩
    refine ⟨row, ?_, hw⟩
    rw [List.mem_append, List.mem_filter, List.mem_filter, mem_availabilityForDate]
    rcases hday with hweekly | ⟨hdate, hopen⟩
    · exact .inl ⟨⟨hmem, ht, ha, .inl hweekly⟩, by rw [hweekly]; rfl⟩
    · exact .inr ⟨⟨hmem, ht, ha, .inr hdate⟩, by rw [hdate, hopen]; rfl⟩

/-- The blocks of a day are its rows that are. -/
theorem mem_blocks {tz : Zone} {w : Slot} :
    w ∈ blocks tz day (calendar.availabilityForDate tenantId agentUserId day) ↔
      ∃ row ∈ calendar.availability, row.Blocks tenantId agentUserId day ∧
        windowUtc tz day row = w := by
  unfold blocks
  rw [List.mem_map]
  constructor
  · rintro ⟨row, hrow, hw⟩
    rw [List.mem_filter, mem_availabilityForDate, Bool.and_eq_true] at hrow
    obtain ⟨⟨hmem, ht, ha, hday⟩, hdated, hblock⟩ := hrow
    rcases hday with hweekly | hdate
    · have hnone : row.date = none := row.date_eq_none (by rw [hweekly]; rfl)
      rw [hnone] at hdated
      cases hdated
    · exact ⟨row, hmem, ⟨ht, ha, hdate, hblock⟩, hw⟩
  · rintro ⟨row, hmem, ⟨ht, ha, hdate, hblock⟩, hw⟩
    refine ⟨row, ?_, hw⟩
    rw [List.mem_filter, mem_availabilityForDate, Bool.and_eq_true]
    exact ⟨⟨hmem, ht, ha, .inr hdate⟩, by rw [hdate]; rfl, hblock⟩

end Rows

/-! ### The loop visits the whole grid -/

section Loop

variable {slotLen windowEnd : Int} {free : Slot → Bool} {slot : Slot}

/-- The grid of a cursor is the slot at the cursor, and the grid of the next one. -/
theorem grid_cons {cursor : Int} :
    (∃ k : ℕ, slot = (cursor + k * slotLen, cursor + k * slotLen + slotLen)) ↔
      slot = (cursor, cursor + slotLen) ∨ ∃ k : ℕ, slot =
        (cursor + slotLen + k * slotLen, cursor + slotLen + k * slotLen + slotLen) := by
  have hshift : ∀ k : ℕ, cursor + slotLen + (k : Int) * slotLen =
      cursor + ((k + 1 : ℕ) : Int) * slotLen := by
    intro k
    rw [Nat.cast_succ, add_mul, one_mul]
    omega
  constructor
  · rintro ⟨k, rfl⟩
    cases k with
    | zero => exact .inl (by simp)
    | succ k => exact .inr ⟨k, by rw [hshift k]⟩
  · rintro (rfl | ⟨k, rfl⟩)
    · exact ⟨0, by simp⟩
    · exact ⟨k + 1, by rw [hshift k]⟩

/-- What the loop over a window collects, given the fuel to reach its end. -/
theorem mem_scanWindow_iff (hlen : 0 < slotLen) :
    ∀ {fuel : ℕ} {cursor : Int} {slots : List Slot}, windowFuel windowEnd cursor ≤ fuel →
      (slot ∈ scanWindow slotLen windowEnd free fuel cursor slots ↔ slot ∈ slots ∨
        ((∃ k : ℕ, slot = (cursor + k * slotLen, cursor + k * slotLen + slotLen)) ∧
          slot.2 ≤ windowEnd ∧ free slot = true)) := by
  intro fuel
  induction fuel with
  | zero =>
    intro cursor slots hfuel
    refine ⟨.inl, ?_⟩
    rintro (h | ⟨⟨k, rfl⟩, hend, -⟩)
    · exact h
    · -- without fuel the cursor is at the end of the window already
      have hk : 0 ≤ (k : Int) * slotLen := by positivity
      unfold windowFuel at hfuel
      replace hend : cursor + k * slotLen + slotLen ≤ windowEnd := hend
      omega
  | succ fuel ih =>
    intro cursor slots hfuel
    rw [scanWindow]
    split
    · next hnext =>
      -- One slot further there is need for one step less.
      have hfuel' : windowFuel windowEnd (cursor + slotLen) ≤ fuel := by
        unfold windowFuel at hfuel ⊢
        omega
      rw [ih hfuel', @grid_cons slotLen slot cursor]
      have hstep : (slot ∈ if free (cursor, cursor + slotLen) ∧ (cursor, cursor + slotLen) ∉ slots
          then slots ++ [(cursor, cursor + slotLen)] else slots) ↔
          slot ∈ slots ∨ (slot = (cursor, cursor + slotLen) ∧ free slot = true) := by
        split
        · next hadd =>
          rw [List.mem_append, List.mem_singleton]
          refine or_congr_right ⟨fun h => ⟨h, h ▸ hadd.1⟩, And.left⟩
        · next hskip =>
          refine ⟨.inl, ?_⟩
          rintro (h | ⟨rfl, hfree⟩)
          · exact h
          · by_contra hnew
            exact hskip ⟨hfree, hnew⟩
      rw [hstep]
      constructor
      · rintro ((h | ⟨rfl, hfree⟩) | ⟨hgrid, hrest⟩)
        · exact .inl h
        · exact .inr ⟨.inl rfl, hnext, hfree⟩
        · exact .inr ⟨.inr hgrid, hrest⟩
      · rintro (h | ⟨rfl | hgrid, hrest⟩)
        · exact .inl (.inl h)
        · exact .inl (.inr ⟨rfl, hrest.2⟩)
        · exact .inr ⟨hgrid, hrest⟩
    · next hlast =>
      -- The next slot would pass the end, and so would every later one of the grid.
      refine ⟨.inl, ?_⟩
      rintro (h | ⟨⟨k, rfl⟩, hend, -⟩)
      · exact h
      · have hk : 0 ≤ (k : Int) * slotLen := by positivity
        replace hend : cursor + k * slotLen + slotLen ≤ windowEnd := hend
        omega

/-- What the loops over the windows collect. -/
theorem mem_foldl_scanWindow_iff (hlen : 0 < slotLen) (windows : List Slot) :
    ∀ {slots : List Slot}, slot ∈ windows.foldl (fun slots w =>
        scanWindow slotLen w.2 free (windowFuel w.2 w.1) w.1 slots) slots ↔
      slot ∈ slots ∨ ∃ w ∈ windows,
        (∃ k : ℕ, slot = (w.1 + k * slotLen, w.1 + k * slotLen + slotLen)) ∧ slot.2 ≤ w.2 ∧
          free slot = true := by
  induction windows with
  | nil =>
    intro slots
    refine ⟨.inl, ?_⟩
    rintro (h | ⟨w, hw, -⟩)
    · exact h
    · cases hw
  | cons w windows ih =>
    intro slots
    rw [List.foldl_cons, ih, mem_scanWindow_iff hlen (Nat.le_refl _), List.exists_mem_cons_iff,
      or_assoc]

/-- A loop adds no slot twice. -/
theorem nodup_scanWindow : ∀ {fuel : ℕ} {cursor : Int} {slots : List Slot}, slots.Nodup →
    (scanWindow slotLen windowEnd free fuel cursor slots).Nodup := by
  intro fuel
  induction fuel with
  | zero => exact fun h => h
  | succ fuel ih =>
    intro cursor slots h
    rw [scanWindow]
    split
    · refine ih ?_
      split
      · next hadd =>
        rw [← List.concat_eq_append]
        exact h.concat hadd.2
      · exact h
    · exact h

/-- The scan of several windows lists no slot twice. -/
theorem nodup_foldl_scanWindow (windows : List Slot) : ∀ {slots : List Slot}, slots.Nodup →
    (windows.foldl (fun slots w =>
      scanWindow slotLen w.2 free (windowFuel w.2 w.1) w.1 slots) slots).Nodup := by
  induction windows with
  | nil => exact fun h => h
  | cons w windows ih => exact fun h => ih (nodup_scanWindow h)

end Loop

/-! ### Sorted slots -/

theorem slotLe_trans {a b c : Slot} (hab : slotLe a b) (hbc : slotLe b c) : slotLe a c := by
  rcases hab with hlt | ⟨heq, hle⟩
  · rcases hbc with hlt' | ⟨heq', -⟩
    · exact .inl (hlt.trans hlt')
    · exact .inl (heq' ▸ hlt)
  · rcases hbc with hlt' | ⟨heq', hle'⟩
    · exact .inl (heq ▸ hlt')
    · exact .inr ⟨heq.trans heq', hle.trans hle'⟩

theorem slotLe_total (a b : Slot) : slotLe a b ∨ slotLe b a := by
  rcases lt_trichotomy a.1 b.1 with hlt | heq | hlt
  · exact .inl (.inl hlt)
  · rcases le_total a.2 b.2 with hle | hle
    · exact .inl (.inr ⟨heq, hle⟩)
    · exact .inr (.inr ⟨heq.symm, hle⟩)
  · exact .inr (.inl hlt)

/-- For `mergeSort`. -/
instance : Std.Total slotLe := ⟨slotLe_total⟩

/-- For `mergeSort`. -/
instance : IsTrans Slot slotLe := ⟨fun _ _ _ => slotLe_trans⟩

/-- Distinct slots of one length, sorted, start one after the other. -/
theorem pairwise_start {slots : List Slot} {slotLen : Int} (hnodup : slots.Nodup)
    (hlen : ∀ slot ∈ slots, slot.2 = slot.1 + slotLen) :
    (slots.insertionSort slotLe).Pairwise fun a b => a.1 < b.1 := by
  have hsorted := List.pairwise_insertionSort slotLe slots
  have hdistinct : (slots.insertionSort slotLe).Nodup :=
    (List.perm_insertionSort slotLe slots).nodup_iff.mpr hnodup
  refine List.Pairwise.imp_of_mem ?_ (hsorted.and hdistinct)
  rintro a b ha hb ⟨hle, hne⟩
  have hlena := hlen a ((List.mem_insertionSort slotLe).mp ha)
  have hlenb := hlen b ((List.mem_insertionSort slotLe).mp hb)
  have hstart : a.1 ≠ b.1 := fun heq => hne (Prod.ext heq (by rw [hlena, hlenb, heq]))
  rcases hle with hlt | ⟨heq, -⟩
  · exact hlt
  · exact absurd heq hstart

/-! ### Free slots -/

section FreeSlots

variable {settings : AppointmentSettings} {now : DateTime} {tenantId agentUserId : Uuid}
  {day : Date} {calendar : Calendar} {slot : Slot}

theorem overlapsAny_eq_false {windows : List Slot} :
    overlapsAny slot windows = false ↔ ∀ w ∈ windows, ¬Overlap slot w := by
  refine ⟨fun h w hw => not_overlap_of_overlapsAny h hw, fun h => List.any_eq_false.mpr ?_⟩
  intro w hw
  rw [decide_eq_true_eq]
  exact h w hw

/-- The slots of the loops, for the appointments one query returned. -/
theorem mem_freeSlots_rows {rows : List AgentAvailability} {live : List Appointment} :
    slot ∈ freeSlots settings now day rows live ↔
      (∃ w ∈ openWindows settings.tz day rows, ∃ k : ℕ, slot.1 = w.1 + k * settings.slotLen ∧
        slot.2 = slot.1 + settings.slotLen ∧ slot.2 ≤ w.2) ∧ now < slot.1 ∧
      (∀ w ∈ blocks settings.tz day rows, ¬Overlap slot w) ∧
      ∀ a ∈ live, ¬Overlap slot (busySlot settings.buffer a) := by
  unfold freeSlots
  rw [List.mem_insertionSort, mem_foldl_scanWindow_iff settings.slotLen_pos]
  have hfree : (slot.1 > now && !overlapsAny slot (blocks settings.tz day rows) &&
      !overlapsAny slot (live.map (busySlot settings.buffer))) = true ↔ now < slot.1 ∧
        (∀ w ∈ blocks settings.tz day rows, ¬Overlap slot w) ∧
          ∀ a ∈ live, ¬Overlap slot (busySlot settings.buffer a) := by
    rw [Bool.and_eq_true, Bool.and_eq_true, Bool.not_eq_true', Bool.not_eq_true',
      overlapsAny_eq_false, overlapsAny_eq_false, decide_eq_true_eq, List.forall_mem_map,
      and_assoc]
  constructor
  · rintro (h | ⟨w, hw, ⟨k, rfl⟩, hend, h⟩)
    · cases h
    · exact ⟨⟨w, (List.mem_insertionSort slotLe).mp hw, k, rfl, rfl, hend⟩, hfree.mp h⟩
  · rintro ⟨⟨w, hw, k, hstart, hlen, hend⟩, h⟩
    refine .inr ⟨w, (List.mem_insertionSort slotLe).mpr hw, ⟨k, ?_⟩, hend, hfree.mpr h⟩
    rw [← hstart, ← hlen]

theorem eq_nil_of_busyWindow {buffer : Seconds} {windows : List Slot}
    (h : busyWindow buffer windows = none) : windows = [] := by
  cases windows with
  | nil => rfl
  | cons w windows => cases h

/-- An appointment outside the interval of the query meets no slot of its windows. -/
theorem activeBetween_of_overlap {windows : List Slot} {query w : Slot} {a : Appointment}
    (hquery : busyWindow settings.buffer windows = some query) (hw : w ∈ windows)
    (hstart : w.1 ≤ slot.1) (hend : slot.2 ≤ w.2) (htenant : a.tenantId = tenantId)
    (hagent : a.agentUserId = agentUserId) (hactive : a.status.active = true)
    (hmeets : Overlap slot (busySlot settings.buffer a)) :
    a.activeBetween tenantId agentUserId query = true := by
  obtain ⟨hfrom, hto⟩ := busyWindow_covers hquery hw
  obtain ⟨h₁, h₂⟩ := hmeets
  replace h₁ : slot.1 < a.endAt + settings.buffer := h₁
  replace h₂ : a.startAt - settings.buffer < slot.2 := h₂
  refine decide_eq_true ⟨htenant, hagent, hactive, ?_, ?_⟩
  · linarith
  · show query.1 < a.endAt
    linarith

/-- **The free slots of a calendar are listed**, and nothing else is. -/
theorem mem_freeSlots_iff :
    slot ∈ calendar.freeSlots settings now tenantId agentUserId day ↔
      IsFree settings now tenantId agentUserId day calendar slot := by
  unfold Calendar.freeSlots
  dsimp only
  split
  · next hnone =>
    -- no window is open
    have hnil := eq_nil_of_busyWindow hnone
    refine ⟨nofun, fun h => ?_⟩
    obtain ⟨row, hrow, hopens, -⟩ := h.grid
    have hmem : windowUtc settings.tz day row ∈ openWindows settings.tz day _ :=
      mem_openWindows.mpr ⟨row, hrow, hopens, rfl⟩
    rw [hnil] at hmem
    cases hmem
  · next query hquery =>
    rw [mem_freeSlots_rows]
    constructor
    · rintro ⟨⟨w, hw, k, hstart, hlen, hend⟩, hfuture, hblocks, hbusy⟩
      have hfrom : w.1 ≤ slot.1 := by
        have hk : 0 ≤ (k : Int) * settings.slotLen :=
          mul_nonneg (Int.natCast_nonneg k) settings.slotLen_pos.le
        linarith
      refine ⟨?_, hfuture, fun row hrow hblock => ?_, fun a ha htenant hagent hactive hmeets => ?_⟩
      · obtain ⟨row, hrow, hopens, rfl⟩ := mem_openWindows.mp hw
        exact ⟨row, hrow, hopens, k, hstart, hlen, hend⟩
      · exact hblocks _ (mem_blocks.mpr ⟨row, hrow, hblock, rfl⟩)
      · have hquery := activeBetween_of_overlap hquery hw hfrom hend htenant hagent hactive hmeets
        exact hbusy a (List.mem_filter.mpr ⟨ha, hquery⟩) hmeets
    · intro h
      refine ⟨?_, h.future, fun w hw => ?_, fun a ha => ?_⟩
      · obtain ⟨row, hrow, hopens, k, hslot⟩ := h.grid
        exact ⟨_, mem_openWindows.mpr ⟨row, hrow, hopens, rfl⟩, k, hslot⟩
      · obtain ⟨row, hrow, hblock, rfl⟩ := mem_blocks.mp hw
        exact h.blocks row hrow hblock
      · obtain ⟨hmem, hactive⟩ := List.mem_filter.mp ha
        obtain ⟨htenant, hagent, hactive, -⟩ := of_decide_eq_true hactive
        exact h.busy a hmem htenant hagent hactive

/-- The offered slots are in order. -/
theorem freeSlots_rows_sorted {rows : List AgentAvailability} {live : List Appointment} :
    (freeSlots settings now day rows live).Pairwise fun a b => a.1 < b.1 := by
  have hlen : ∀ slot ∈ freeSlots settings now day rows live,
      slot.2 = slot.1 + settings.slotLen := by
    intro slot hslot
    obtain ⟨⟨-, -, k, -, hlen, -⟩, -⟩ := mem_freeSlots_rows.mp hslot
    exact hlen
  refine @pairwise_start _ settings.slotLen (nodup_foldl_scanWindow _ List.nodup_nil) ?_
  exact fun slot hslot => hlen slot ((List.mem_insertionSort slotLe).mpr hslot)

/-- The slots start one after the other. -/
theorem freeSlots_sorted :
    (calendar.freeSlots settings now tenantId agentUserId day).Pairwise
      fun a b => a.1 < b.1 := by
  unfold Calendar.freeSlots
  dsimp only
  split
  · exact .nil
  · exact freeSlots_rows_sorted

end FreeSlots

/-! ### Booking -/

/-- A `datetime` of a request body: its wall clock, and its offset from UTC unless it is naive. -/
structure ClientTime where
  wall : DateTime
  offset : Option Seconds := none

/-- `_as_utc`. -/
def asUtc (value : ClientTime) : DateTime := value.wall - value.offset.getD 0

/-- What `book` reads of its `TourBookingCreate`; the rest goes to `register_tour_request`. -/
structure TourBookingCreate where
  startAt : ClientTime
  listingId : Option Uuid := none
  hp : String := ""

/-- Why `book` raised: an expected error, or the `AttributeError` of broken tenant settings. -/
inductive BookingError where
  | app (e : AppError)
  | attributeError

/-- What `book` asks of the modules around it. -/
structure Boundary where
  /-- `agents.get_public`: the user of a published profile. -/
  agent : String → Option Uuid
  /-- `listings.get_public` finds the listing. -/
  listing : Uuid → Bool
  /-- `leads.register_tour_request`, for the agent: the contact and the lead. -/
  registerTourRequest : Uuid → Except AppError (Uuid × Uuid)

/-- `MAX_BOOKING_DAYS_AHEAD` is checked by `_validate_day`, on the clock `today` is read from. -/
def validateDay (tz : Zone) (checkedAt : DateTime) (day : Date) : Except BookingError Unit :=
  let today := tz.dateOf checkedAt
  if day < today ∨ day > today + maxBookingDaysAhead then
    .error (.app ⟨.conflict, "Tours can be booked up to 90 days ahead."⟩)
  else .ok ()

section Book

variable (zoneInfo : String → Option Zone) (around : Boundary) (checkedAt now : DateTime)
  (calendar : Calendar) (tenant : TenantContext) (slug : String)

/-- `public_slots`. -/
def publicSlots (day : Date) : Except BookingError (List Slot) := do
  let some agentUserId := around.agent slug
    | throw (.app ⟨.notFound, "Agent not found."⟩)
  let some settings := tenantAppointmentSettings zoneInfo tenant | throw .attributeError
  validateDay settings.tz checkedAt day
  return calendar.freeSlots settings now tenant.id agentUserId day

/-- `book`: the appointment with its contact and lead, or `none` for a honeypot hit. -/
def book (data : TourBookingCreate) :
    Except BookingError (Option (Appointment × Uuid × Uuid)) := do
  if data.hp ≠ "" then return none
  let some agentUserId := around.agent slug
    | throw (.app ⟨.notFound, "Agent not found."⟩)
  let some settings := tenantAppointmentSettings zoneInfo tenant | throw .attributeError
  let startAt := asUtc data.startAt
  let day := settings.tz.dateOf startAt
  validateDay settings.tz checkedAt day
  if let some listingId := data.listingId then
    if !around.listing listingId then throw (.app ⟨.notFound, "Listing not found."⟩)
  let slots := calendar.freeSlots settings now tenant.id agentUserId day
  match slots.find? (·.1 = startAt) with
  | none =>
    throw (.app ⟨.conflict, "This time slot is not available. Please pick another."⟩)
  | some slot =>
    let lead ← (around.registerTourRequest agentUserId).mapError .app
    return some ({ tenantId := tenant.id, agentUserId, listingId := data.listingId
                   startAt := slot.1, endAt := slot.2 }, lead)

/-- The request passes every check before the slots: the agent is public, the tenant's settings
can be read, no honeypot, the day in range, the listing public. -/
structure Admitted (data : TourBookingCreate) (agentUserId : Uuid)
    (settings : AppointmentSettings) : Prop where
  agent : around.agent slug = some agentUserId
  tenantSettings : tenantAppointmentSettings zoneInfo tenant = some settings
  noHoneypot : data.hp = ""
  from_today : settings.tz.dateOf checkedAt ≤ settings.tz.dateOf (asUtc data.startAt)
  ahead : settings.tz.dateOf (asUtc data.startAt) ≤
    settings.tz.dateOf checkedAt + maxBookingDaysAhead
  listing : ∀ listingId ∈ data.listingId, around.listing listingId = true

end Book

section Book

variable {zoneInfo : String → Option Zone} {around : Boundary} {checkedAt now : DateTime}
  {calendar : Calendar} {tenant : TenantContext} {slug : String} {data : TourBookingCreate}
  {agentUserId : Uuid} {settings : AppointmentSettings}

/-- The slot that starts when requested is the free one, if it is free. -/
theorem find_freeSlots {day : Date} {startAt : DateTime} :
    (IsFree settings now tenant.id agentUserId day calendar (startAt, startAt + settings.slotLen) →
      (calendar.freeSlots settings now tenant.id agentUserId day).find? (·.1 = startAt) =
        some (startAt, startAt + settings.slotLen)) ∧
    (¬IsFree settings now tenant.id agentUserId day calendar
        (startAt, startAt + settings.slotLen) →
      (calendar.freeSlots settings now tenant.id agentUserId day).find? (·.1 = startAt) =
        none) := by
  have hfound : ∀ slot ∈ calendar.freeSlots settings now tenant.id agentUserId day,
      slot.1 = startAt → slot = (startAt, startAt + settings.slotLen) := by
    -- All slots have the same length, so a start finds at most one.
    rintro slot hslot rfl
    obtain ⟨-, -, -, k, -, hlen, -⟩ := (mem_freeSlots_iff.mp hslot).grid
    rw [← hlen]
  constructor
  · intro hfree
    cases hfind : (calendar.freeSlots settings now tenant.id agentUserId day).find?
        (·.1 = startAt) with
    | none =>
      have hno := List.find?_eq_none.mp hfind _ (mem_freeSlots_iff.mpr hfree)
      exact absurd (decide_eq_true rfl) hno
    | some slot =>
      have hstart := List.find?_some hfind
      rw [hfound slot (List.mem_of_find?_eq_some hfind) (of_decide_eq_true hstart)]
  · intro hbusy
    refine List.find?_eq_none.mpr fun slot hslot hstart => hbusy ?_
    rw [← hfound slot hslot (of_decide_eq_true hstart)]
    exact mem_freeSlots_iff.mp hslot

/-- A day from today up to the horizon is valid. -/
theorem validateDay_ok {tz : Zone} {day : Date} (hfrom : tz.dateOf checkedAt ≤ day)
    (hto : day ≤ tz.dateOf checkedAt + maxBookingDaysAhead) :
    validateDay tz checkedAt day = .ok () := by
  refine if_neg ?_
  rintro (hbefore | hafter)
  · exact absurd hbefore hfrom.not_gt
  · exact absurd hafter hto.not_gt

theorem range_of_validateDay {tz : Zone} {day : Date}
    (h : validateDay tz checkedAt day = .ok ()) :
    tz.dateOf checkedAt ≤ day ∧ day ≤ tz.dateOf checkedAt + maxBookingDaysAhead := by
  unfold validateDay at h
  dsimp only at h
  split at h
  · cases h
  · next hrange =>
    obtain ⟨hbefore, hafter⟩ := not_or.mp hrange
    exact ⟨not_lt.mp hbefore, not_lt.mp hafter⟩

/-- An admitted request gets the slot it asks for, or a conflict. -/
theorem book_eq (h : Admitted zoneInfo around checkedAt tenant slug data agentUserId settings) :
    book zoneInfo around checkedAt now calendar tenant slug data =
      match (calendar.freeSlots settings now tenant.id agentUserId
          (settings.tz.dateOf (asUtc data.startAt))).find? (·.1 = asUtc data.startAt) with
      | none =>
        .error (.app ⟨.conflict, "This time slot is not available. Please pick another."⟩)
      | some slot => ((around.registerTourRequest agentUserId).mapError .app).map fun lead =>
          some ({ tenantId := tenant.id, agentUserId, listingId := data.listingId
                  startAt := slot.1, endAt := slot.2 }, lead) := by
  have hday := validateDay_ok h.from_today h.ahead
  unfold book
  simp only [h.noHoneypot, h.agent, h.tenantSettings, hday]
  rw [if_neg (by simp)]
  have hlisting := h.listing
  -- after the listing both sides look for the slot
  cases hid : data.listingId with
  | none =>
    dsimp only [bind, Except.bind]
    split
    · rfl
    · cases around.registerTourRequest agentUserId <;> rfl
  | some listingId =>
    have hpublic : ¬(!around.listing listingId) = true := by
      rw [hlisting listingId hid]
      exact Bool.false_ne_true
    dsimp only [bind, Except.bind]
    rw [if_neg hpublic]
    split
    · rfl
    · cases around.registerTourRequest agentUserId <;> rfl

end Book

/-- **Slots and bookings**: the slots shown for a day start one after the other and are the free
ones; and a request that passes the checks before them is booked when it starts with a free slot
of its own day, and is refused when it does not. -/
theorem slots_exact (settings : AppointmentSettings) (now : DateTime) (agentUserId : Uuid)
    (calendar : Calendar) (tenant : TenantContext) :
    (∀ day, ((calendar.freeSlots settings now tenant.id agentUserId day).Pairwise
        fun a b => a.1 < b.1) ∧
      ∀ slot, slot ∈ calendar.freeSlots settings now tenant.id agentUserId day ↔
        IsFree settings now tenant.id agentUserId day calendar slot) ∧
    ∀ zoneInfo around checkedAt slug data,
      Admitted zoneInfo around checkedAt tenant slug data agentUserId settings →
        let startAt := asUtc data.startAt
        let day := settings.tz.dateOf startAt
        let slot := (startAt, startAt + settings.slotLen)
        (IsFree settings now tenant.id agentUserId day calendar slot →
          book zoneInfo around checkedAt now calendar tenant slug data =
            ((around.registerTourRequest agentUserId).mapError .app).map fun lead =>
              some ({ tenantId := tenant.id, agentUserId, listingId := data.listingId
                      startAt := slot.1, endAt := slot.2 }, lead)) ∧
        (¬IsFree settings now tenant.id agentUserId day calendar slot →
          book zoneInfo around checkedAt now calendar tenant slug data = .error
            (.app ⟨.conflict, "This time slot is not available. Please pick another."⟩)) := by
  refine ⟨fun day => ⟨freeSlots_sorted, fun slot => mem_freeSlots_iff⟩, ?_⟩
  intro zoneInfo around checkedAt slug data hadmitted
  dsimp only
  rw [book_eq hadmitted]
  constructor
  · intro hfree
    rw [find_freeSlots.1 hfree]
  · intro hbusy
    rw [find_freeSlots.2 hbusy]

/-- What is shown can be booked: a slot shown for its own day, by a request without honeypot for
a public listing, if any. -/
theorem book_of_shown {zoneInfo : String → Option Zone} {around : Boundary}
    {checkedAt now : DateTime} {calendar : Calendar} {tenant : TenantContext} {slug : String}
    {data : TourBookingCreate} {day : Date} {slots : List Slot} {slot : Slot}
    {settings : AppointmentSettings}
    (hshown : publicSlots zoneInfo around checkedAt now calendar tenant slug day = .ok slots)
    (hslot : slot ∈ slots) (hsettings : tenantAppointmentSettings zoneInfo tenant = some settings)
    (hday : settings.tz.dateOf slot.1 = day) (hstart : asUtc data.startAt = slot.1)
    (hhoneypot : data.hp = "") (hlisting : ∀ id ∈ data.listingId, around.listing id = true) :
    ∃ agentUserId, around.agent slug = some agentUserId ∧
      book zoneInfo around checkedAt now calendar tenant slug data =
        ((around.registerTourRequest agentUserId).mapError .app).map fun lead =>
          some ({ tenantId := tenant.id, agentUserId, listingId := data.listingId
                  startAt := slot.1, endAt := slot.2 }, lead) := by
  unfold publicSlots at hshown
  -- What was shown was asked of an agent, under settings and for a day that are valid.
  cases hagent : around.agent slug with
  | none =>
    rw [hagent] at hshown
    cases hshown
  | some agentUserId =>
    rw [hagent, hsettings] at hshown
    dsimp only [bind, Except.bind] at hshown
    cases hvalid : validateDay settings.tz checkedAt day with
    | error e =>
      rw [hvalid] at hshown
      cases hshown
    | ok _ =>
      rw [hvalid] at hshown
      cases hshown
      obtain ⟨hfrom, hto⟩ := range_of_validateDay hvalid
      refine ⟨agentUserId, rfl, ?_⟩
      have hadmitted :
          Admitted zoneInfo around checkedAt tenant slug data agentUserId settings := by
        refine ⟨hagent, hsettings, hhoneypot, ?_, ?_, hlisting⟩
        · rw [hstart, hday]
          exact hfrom
        · rw [hstart, hday]
          exact hto
      -- The slot is shown because it is free, so booking it finds it.
      have hfree := mem_freeSlots_iff.mp hslot
      obtain ⟨-, -, -, k, -, hlen, -⟩ := hfree.grid
      have heq : slot = (slot.1, slot.1 + settings.slotLen) := by rw [← hlen]
      rw [book_eq hadmitted, hstart, hday, find_freeSlots.1 (heq ▸ hfree), ← hlen]

/-! ### A Thursday -/

/-- A tenant without settings: slots of an hour, no buffer, UTC. -/
def office : TenantContext := ⟨1, "office", "Office", "active", [], "pro"⟩

/-- Slots of an hour, without a buffer. -/
def hourly : AppointmentSettings := ⟨3600, 0, utc, by decide, by decide⟩

/-- Thursdays from nine to twelve, and a tour at ten. -/
def thursdays : Calendar where
  availability := [{ tenantId := 1, agentUserId := 7, dayOfWeek := some 3, startTime := 32400,
                     endTime := 43200 }]
  appointments := [{ tenantId := 1, agentUserId := 7, startAt := 36000, endAt := 39600 }]

/-- One published agent, and leads that can be registered. -/
def agents : Boundary := ⟨fun _ => some 7, fun _ => true, fun _ => .ok (40, 41)⟩

/-- The first Thursday at some hour, by a clock two hours ahead. -/
def tourAt (hour : Int) : TourBookingCreate where
  startAt := ⟨(hour + 2) * 3600, some 7200⟩

/-- A tour at any hour of an open day is admitted. -/
theorem admitted_tourAt {hour : Int} (hfrom : 0 ≤ hour) (hto : hour < 24) :
    Admitted (fun _ => none) agents 0 office "ann" (tourAt hour) 7 hourly := by
  have hday : hourly.tz.dateOf (asUtc (tourAt hour).startAt) = 0 := by
    show ((hour + 2) * 3600 - 7200) / 86400 = 0
    omega
  refine ⟨rfl, rfl, rfl, ?_, ?_, nofun⟩
  · rw [hday]
    decide
  · rw [hday]
    decide

/-- Nine is booked; ten is taken. -/
theorem slots_exact_thursday :
    book (fun _ => none) agents 0 0 thursdays office "ann" (tourAt 9) =
      .ok (some (⟨1, 7, none, .requested, 32400, 36000, none⟩, 40, 41)) ∧
    book (fun _ => none) agents 0 0 thursdays office "ann" (tourAt 10) =
      .error (.app ⟨.conflict, "This time slot is not available. Please pick another."⟩) := by
  have hbook := (slots_exact hourly 0 7 thursdays office).2 (fun _ => none) agents 0 "ann"
  constructor
  · exact ((hbook _ (admitted_tourAt (by decide) (by decide))).1
      (mem_freeSlots_iff.mp (by decide))).trans rfl
  · exact (hbook _ (admitted_tourAt (by decide) (by decide))).2
      fun hfree => absurd (mem_freeSlots_iff.mpr hfree) (by decide)

/-! ### Request by request -/

namespace State

/-- The rows a request sees between two statements. -/
def calendar (s : State) (t : Nat) : Calendar where
  availability := s.availability.select t fun _ => true
  appointments := s.appointments.select t fun _ => true

/-- The calendar of the state is what the transaction reads. -/
theorem activeBetween_calendar (s : State) (t : Nat) (tenantId agentUserId : Uuid)
    (window : Slot) : (s.calendar t).activeBetween tenantId agentUserId window =
      s.appointments.select t (·.activeBetween tenantId agentUserId window) := by
  show (s.appointments.select t fun _ => true).filter _ = _
  rw [Table.select_eq_filter s.appointments t fun _ => true, List.filter_true,
    Table.select_eq_filter]

/-- With the schedule unchanged since it was read, a request that holds the calendar's lock looks
for its slot among the slots of the calendar. -/
theorem readLive_eq {s : State} {t : Nat} {b : Booking}
    (h : s.requests t = .scheduled b
      ((s.calendar t).availabilityForDate b.tenantId b.agentUserId b.day)) :
    s.readLive t = some (match ((s.calendar t).freeSlots b.settings s.now b.tenantId b.agentUserId
        b.day).find? (·.1 = b.startAt) with
      | none => s.fail t
      | some slot => s.goto t (.slotFound b slot)) := by
  unfold readLive Calendar.freeSlots
  rw [h]
  dsimp only
  cases hwindow : busyWindow b.settings.buffer (openWindows b.settings.tz b.day
      ((s.calendar t).availabilityForDate b.tenantId b.agentUserId b.day)) with
  | none => rfl
  | some window =>
    dsimp only
    rw [activeBetween_calendar]
    generalize List.find? (fun x : Slot => decide (x.1 = b.startAt)) _ = found
    cases found with
    | none => rfl
    | some slot => rfl

end State

end Appointments

end RealEstate
