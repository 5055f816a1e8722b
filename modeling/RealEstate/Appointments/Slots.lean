import Mathlib.Data.List.Sort
import Mathlib.Tactic.Linarith
import RealEstate.Core.Base

/-!
# Slot computation (`modules/appointments/models.py`, `repository.py`, `service.py`)

The free slots of an agent's day are the availability windows of the day, minus
the blocks, minus the live appointments widened by the tenant's buffer, cut into
a grid of the tenant's slot length.

- Slot length, buffer and timezone come from free-form tenant settings;
  `AppointmentSettings` carries what reading them guarantees.
- `busyWindow` bounds the query for live appointments.
- `mem_freeSlots`: a free slot lies in the span of the windows and meets no live
  appointment, wherever the query's bounds lie.
- `scanWindow_add`: the loop over a window needs no more fuel than it is given.
-/

namespace RealEstate

namespace Appointments

open RealEstate.Core

/-- A `date`, as its number of days since 1970-01-01. -/
abbrev Date := Int

/-- A `time` of day, in seconds. (`WallClock` counts everything in microseconds.) -/
abbrev Time := Nat

/-- `date.weekday()`: Monday is 0. The first day was a Thursday. -/
def weekday (day : Date) : Nat := ((day + 3) % 7).toNat

/-- A `(start, end)` pair of instants. -/
abbrev Slot := DateTime × DateTime

/-! ### Rows -/

/-- `AppointmentStatus`. -/
inductive AppointmentStatus where
  | requested
  | confirmed
  | completed
  | cancelled
  | noShow
  deriving DecidableEq, Repr

/-- `ACTIVE_STATUSES`: everything still live. -/
def AppointmentStatus.active (status : AppointmentStatus) : Bool :=
  status = .requested ∨ status = .confirmed

/-- `_TRANSITIONS`. -/
def AppointmentStatus.transitions : AppointmentStatus → List AppointmentStatus
  | .requested => [.confirmed, .cancelled]
  | .confirmed => [.completed, .cancelled, .noShow]
  | .completed | .cancelled | .noShow => []

/-- Only a live appointment moves. -/
theorem AppointmentStatus.active_of_transition {status toStatus : AppointmentStatus}
    (h : toStatus ∈ status.transitions) : status.active := by
  cases status with
  | requested | confirmed => rfl
  | completed | cancelled | noShow => cases h

/-- One row of `appointments`. -/
structure Appointment where
  tenantId : Uuid
  agentUserId : Uuid
  listingId : Option Uuid := none
  status : AppointmentStatus := .requested
  startAt : DateTime
  endAt : DateTime
  confirmedAt : Option DateTime := none
  deriving DecidableEq

/-- The interval of an appointment. -/
def Appointment.slot (a : Appointment) : Slot := (a.startAt, a.endAt)

/-- One row of `agent_availability`, with the table's check constraints: a weekly row or a
dated exception, of positive length; only exceptions block. -/
structure AgentAvailability where
  tenantId : Uuid
  agentUserId : Uuid
  dayOfWeek : Option Nat := none
  date : Option Date := none
  startTime : Time
  endTime : Time
  isBlock : Bool := false
  weekly_xor_exception : dayOfWeek.isNone ≠ date.isNone := by decide
  start_before_end : startTime < endTime := by decide
  block_is_exception : isBlock = true → date.isSome = true := by decide
  deriving DecidableEq

/-! ### Tenant settings -/

/-- What `ZoneInfo` computes: wall-clock to instant, and the date of an instant. -/
structure Zone where
  toUtc : Date → Time → DateTime
  dateOf : DateTime → Date

/-- `UTC`. -/
def utc : Zone where
  toUtc day time := day * 86400 + time
  dateOf instant := instant / 86400

/-- Slot length, buffer and timezone of a tenant. -/
structure AppointmentSettings where
  slotLen : Seconds
  buffer : Seconds
  tz : Zone
  slotLen_pos : 0 < slotLen
  buffer_nonneg : 0 ≤ buffer

/-- `isinstance(value, int)`; a `bool` is an `int`. -/
def asInt : Json → Option Int
  | .num n => some n
  | .bool b => some (if b then 1 else 0)
  | _ => none

/-- An integer setting, or its default when it is missing or out of range. -/
def intSetting (value : Json) (low high default : Int) : Int :=
  ((asInt value).filter fun n => low ≤ n ∧ n ≤ high).getD default

/-- A setting that is out of range or no integer is the default. -/
theorem le_intSetting {value : Json} {low high default : Int} (h : low ≤ default) :
    low ≤ intSetting value low high default := by
  unfold intSetting
  cases hv : (asInt value).filter fun n => low ≤ n ∧ n ≤ high with
  | none => exact h
  | some n =>
    have hrange := of_decide_eq_true (Option.filter_eq_some_iff.mp hv).2
    exact hrange.1

/-- `tenant.settings.get("appointments") or {}`; `none` is a value without `.get`. -/
def rawSettings (settings : JsonObject) : Option JsonObject :=
  match settings.get "appointments" with
  | .obj fields => some fields
  | .null | .bool false | .num 0 | .str "" | .arr [] => some []
  | _ => none

/-- The timezone setting: an unknown zone name degrades to UTC. -/
def timezone (zoneInfo : String → Option Zone) : Json → Zone
  | .str zone =>
    if zone ≠ "" ∧ zone.toUpper ≠ "UTC" then (zoneInfo zone).getD utc else utc
  | _ => utc

/-- `_tenant_appointment_settings`; `none` is the `AttributeError` of a value that is no
object. -/
def tenantAppointmentSettings (zoneInfo : String → Option Zone) (tenant : TenantContext) :
    Option AppointmentSettings :=
  (rawSettings tenant.settings).map fun raw =>
    let slotMinutes := intSetting (JsonObject.get raw "slot_minutes") 5 480 60
    let bufferMinutes := intSetting (JsonObject.get raw "buffer_minutes") 0 240 0
    { slotLen := slotMinutes * 60
      buffer := bufferMinutes * 60
      tz := timezone zoneInfo (JsonObject.get raw "timezone")
      slotLen_pos := by
        have hslot : (5 : Int) ≤ slotMinutes := le_intSetting (by decide)
        show (0 : Int) < slotMinutes * 60
        omega
      buffer_nonneg := by
        have hbuffer : (0 : Int) ≤ bufferMinutes := le_intSetting (by decide)
        show (0 : Int) ≤ bufferMinutes * 60
        omega }

/-! ### Windows -/

/-- `_overlaps_any`. -/
def overlapsAny (slot : Slot) (windows : List Slot) : Bool :=
  windows.any fun w => slot.1 < w.2 ∧ slot.2 > w.1

/-- `_window_utc`. -/
def windowUtc (tz : Zone) (day : Date) (row : AgentAvailability) : Slot :=
  (tz.toUtc day row.startTime, tz.toUtc day row.endTime)

/-- The condition of `availability_for_date`. -/
def AgentAvailability.onDate (tenantId agentUserId : Uuid) (day : Date)
    (row : AgentAvailability) : Bool :=
  row.tenantId = tenantId ∧ row.agentUserId = agentUserId ∧
    (row.dayOfWeek = some (weekday day) ∨ row.date = some day)

/-- The template windows of the day, then the exceptions that add one. -/
def openWindows (tz : Zone) (day : Date) (rows : List AgentAvailability) : List Slot :=
  ((rows.filter fun r => r.dayOfWeek.isSome) ++
    rows.filter fun r => r.date.isSome && !r.isBlock).map (windowUtc tz day)

/-- The exceptions that remove time. -/
def blocks (tz : Zone) (day : Date) (rows : List AgentAvailability) : List Slot :=
  (rows.filter fun r => r.date.isSome && r.isBlock).map (windowUtc tz day)

/-- `day_start - buffer` and `day_end + buffer`, unless there is no window. -/
def busyWindow (buffer : Seconds) (windows : List Slot) : Option Slot :=
  match (windows.map Prod.fst).min?, (windows.map Prod.snd).max? with
  | some dayStart, some dayEnd => some (dayStart - buffer, dayEnd + buffer)
  | _, _ => none

/-- The condition of `active_between`. -/
def Appointment.activeBetween (tenantId agentUserId : Uuid) (window : Slot) (a : Appointment) :
    Bool :=
  a.tenantId = tenantId ∧ a.agentUserId = agentUserId ∧ a.status.active ∧
    a.startAt < window.2 ∧ a.endAt > window.1

/-- A live appointment, widened by the buffer. -/
def busySlot (buffer : Seconds) (a : Appointment) : Slot :=
  (a.startAt - buffer, a.endAt + buffer)

/-- Tuples compare component by component. -/
def slotLe (a b : Slot) : Prop := a.1 < b.1 ∨ (a.1 = b.1 ∧ a.2 ≤ b.2)

/-- Lexicographic, as tuples compare. -/
instance : DecidableRel slotLe := fun _ _ => inferInstanceAs (Decidable (_ ∨ _))

/-! ### The loop -/

section Loop

variable (slotLen windowEnd : Int) (free : Slot → Bool)

/-- The `while` loop over one window. -/
def scanWindow : (fuel : Nat) → (cursor : Int) → (slots : List Slot) → List Slot
  | 0, _, slots => slots
  | fuel + 1, cursor, slots =>
    if cursor + slotLen ≤ windowEnd then
      let slot : Slot := (cursor, cursor + slotLen)
      scanWindow fuel (cursor + slotLen)
        (if free slot ∧ slot ∉ slots then slots ++ [slot] else slots)
    else slots

/-- How often the loop can run from a cursor. -/
def windowFuel (cursor : Int) : Nat := (windowEnd - cursor).toNat

/-- More fuel changes nothing: the loop has ended. -/
theorem scanWindow_add (hlen : 0 < slotLen) (extra : Nat) :
    ∀ (fuel : Nat) (cursor : Int) (slots : List Slot), windowFuel windowEnd cursor ≤ fuel →
      scanWindow slotLen windowEnd free (fuel + extra) cursor slots =
        scanWindow slotLen windowEnd free fuel cursor slots := by
  intro fuel
  induction fuel with
  | zero =>
    intro cursor slots hfuel
    cases extra with
    | zero => rfl
    | succ extra =>
      -- without fuel the cursor is at the end of the window already
      have hend : ¬cursor + slotLen ≤ windowEnd := by
        unfold windowFuel at hfuel
        omega
      rw [Nat.zero_add]
      exact if_neg hend
  | succ fuel ih =>
    intro cursor slots hfuel
    rw [Nat.add_right_comm, scanWindow, scanWindow]
    by_cases hnext : cursor + slotLen ≤ windowEnd
    · rw [if_pos hnext, if_pos hnext]
      refine ih _ _ ?_
      unfold windowFuel at hfuel ⊢
      omega
    · rw [if_neg hnext, if_neg hnext]

/-- The slots collected are free, of the right length, and inside the window. -/
theorem mem_scanWindow {slot : Slot} :
    ∀ {fuel : Nat} {cursor : Int} {slots : List Slot}, 0 < slotLen →
      slot ∈ scanWindow slotLen windowEnd free fuel cursor slots → slot ∈ slots ∨
        (cursor ≤ slot.1 ∧ slot.2 = slot.1 + slotLen ∧ slot.2 ≤ windowEnd ∧ free slot = true) := by
  intro fuel
  induction fuel with
  | zero =>
    intro cursor slots _ h
    exact .inl h
  | succ fuel ih =>
    intro cursor slots hlen h
    rw [scanWindow] at h
    split at h
    · next hnext =>
      rcases ih hlen h with h | ⟨hcursor, hend⟩
      · split at h
        · next hfree =>
          rcases List.mem_append.mp h with h | h
          · exact .inl h
          · -- The slot was added at this cursor, which is free.
            obtain rfl := List.mem_singleton.mp h
            exact .inr ⟨le_refl cursor, rfl, hnext, hfree.1⟩
        · exact .inl h
      · refine .inr ⟨?_, hend⟩
        omega
    · exact .inl h

end Loop

/-! ### Free slots -/

/-- `_free_slots`, from the rows its two queries returned. -/
def freeSlots (settings : AppointmentSettings) (now : DateTime) (day : Date)
    (rows : List AgentAvailability) (live : List Appointment) : List Slot :=
  let busy := live.map (busySlot settings.buffer)
  let blocked := blocks settings.tz day rows
  let free := fun slot : Slot =>
    slot.1 > now && !overlapsAny slot blocked && !overlapsAny slot busy
  let windows := (openWindows settings.tz day rows).insertionSort slotLe
  (windows.foldl (fun slots w =>
    scanWindow settings.slotLen w.2 free (windowFuel w.2 w.1) w.1 slots) []).insertionSort slotLe

/-- Two intervals share an instant. -/
def Overlap (a b : Slot) : Prop := a.1 < b.2 ∧ b.1 < a.2

theorem Overlap.symm {a b : Slot} (h : Overlap a b) : Overlap b a := ⟨h.2, h.1⟩

/-- One window of those that do not overlap. -/
theorem not_overlap_of_overlapsAny {slot w : Slot} {windows : List Slot}
    (h : overlapsAny slot windows = false) (hw : w ∈ windows) : ¬Overlap slot w := by
  rintro ⟨h₁, h₂⟩
  have := List.any_eq_false.mp h w hw
  simp only [decide_eq_true_eq] at this
  exact this ⟨h₁, h₂⟩

/-- The slots of the loops over all windows. -/
theorem mem_foldl_scanWindow {slotLen : Seconds} {free : Slot → Bool} (hlen : 0 < slotLen)
    {slot : Slot} (windows : List Slot) : ∀ {slots : List Slot},
    slot ∈ windows.foldl (fun slots w =>
      scanWindow slotLen w.2 free (windowFuel w.2 w.1) w.1 slots) slots →
    slot ∈ slots ∨ ∃ w ∈ windows, w.1 ≤ slot.1 ∧ slot.2 = slot.1 + slotLen ∧ slot.2 ≤ w.2 ∧
      free slot = true := by
  induction windows with
  | nil =>
    intro slots h
    exact .inl h
  | cons w windows ih =>
    intro slots h
    rcases ih h with h | ⟨w', hw', hslot⟩
    · rcases mem_scanWindow slotLen w.2 free hlen h with h | hslot
      · exact .inl h
      · exact .inr ⟨w, List.mem_cons_self, hslot⟩
    · exact .inr ⟨w', List.mem_cons_of_mem _ hw', hslot⟩

/-- A free slot has the tenant's length, fits in a window, lies in the future and meets no
appointment of the list. -/
theorem mem_freeSlots {settings : AppointmentSettings} {now : DateTime} {day : Date}
    {rows : List AgentAvailability} {live : List Appointment} {slot : Slot}
    (h : slot ∈ freeSlots settings now day rows live) :
    slot.2 = slot.1 + settings.slotLen ∧ now < slot.1 ∧
      (∃ w ∈ openWindows settings.tz day rows, w.1 ≤ slot.1 ∧ slot.2 ≤ w.2) ∧
        ∀ a ∈ live, ¬Overlap slot (busySlot settings.buffer a) := by
  unfold freeSlots at h
  rw [List.mem_insertionSort] at h
  rcases mem_foldl_scanWindow settings.slotLen_pos _ h with
    h | ⟨w, hw, hstart, hlen, hend, hfree⟩
  · cases h
  · simp only [Bool.and_eq_true, Bool.not_eq_true', decide_eq_true_eq] at hfree
    refine ⟨hlen, hfree.1.1, ⟨w, (List.mem_insertionSort _).mp hw, hstart, hend⟩, fun a ha => ?_⟩
    exact not_overlap_of_overlapsAny hfree.2 (List.mem_map.mpr ⟨a, ha, rfl⟩)

/-- The window of the query covers every window of the day, with the buffer on both sides. -/
theorem busyWindow_covers {buffer : Seconds} {windows : List Slot} {query w : Slot}
    (h : busyWindow buffer windows = some query) (hw : w ∈ windows) :
    query.1 ≤ w.1 - buffer ∧ w.2 + buffer ≤ query.2 := by
  unfold busyWindow at h
  split at h
  · next dayStart dayEnd hmin hmax =>
    cases h
    have hstart : dayStart ≤ w.1 :=
      (List.min?_eq_some_iff.mp hmin).2 _ (List.mem_map.mpr ⟨w, hw, rfl⟩)
    have hend : w.2 ≤ dayEnd :=
      (List.max?_eq_some_iff.mp hmax).2 _ (List.mem_map.mpr ⟨w, hw, rfl⟩)
    exact ⟨sub_le_sub_right hstart buffer, add_le_add_left hend buffer⟩
  · cases h

/-- **A free slot meets no live appointment of the agent**, whether or not the query that
was bounded by the day's windows returned it. -/
theorem freeSlots_disjoint {settings : AppointmentSettings} {now : DateTime} {day : Date}
    {rows : List AgentAvailability} {live : List Appointment} {tenantId agentUserId : Uuid}
    {query slot : Slot} (hslot : slot ∈ freeSlots settings now day rows live)
    (hquery : busyWindow settings.buffer (openWindows settings.tz day rows) = some query)
    {a : Appointment} (hlive : a.activeBetween tenantId agentUserId query = true → a ∈ live)
    (htenant : a.tenantId = tenantId) (hagent : a.agentUserId = agentUserId)
    (hactive : a.status.active = true) : ¬Overlap slot a.slot := by
  obtain ⟨-, -, ⟨w, hw, hstart, hend⟩, hdisjoint⟩ := mem_freeSlots hslot
  obtain ⟨hfrom, hto⟩ := busyWindow_covers hquery hw
  have hbuffer := settings.buffer_nonneg
  rintro ⟨h₁, h₂⟩
  simp only [Appointment.slot] at h₁ h₂
  -- an appointment that meets the slot is inside the bounds of the query
  have hmem : a ∈ live := by
    refine hlive (decide_eq_true ⟨htenant, hagent, hactive, ?_, ?_⟩)
    · linarith
    · show query.1 < a.endAt
      linarith
  refine hdisjoint a hmem ⟨?_, ?_⟩
  · show slot.1 < a.endAt + settings.buffer
    linarith
  · show a.startAt - settings.buffer < slot.2
    linarith

end Appointments

end RealEstate
