import RealEstate.Appointments.Slots
import RealEstate.Systems.Machine
import RealEstate.Systems.Table

/-!
# Appointment requests, statement by statement

`book`, `transition` and `put_availability` of `modules/appointments/service.py`
under READ COMMITTED.

- A booking takes the agent's advisory lock, reads the availability rows, reads
  the live appointments, computes the free slots and inserts; the lock is held to
  the end of the transaction.
- A transition locks the row (`FOR UPDATE`), checks the lifecycle and updates the
  status. It takes no calendar lock.
- A schedule is replaced by a bulk delete and inserts, without any lock on the
  calendar.

`NoDoubleBooking` holds in every reachable state: `Phase.Ok` says what a request
knows while it runs, and its frame lemma `Phase.Ok.frame` that other requests
leave that alone.
-/

namespace RealEstate

namespace Appointments

open RealEstate.Core Systems
open Machine (update_cases)

/-- `MAX_BOOKING_DAYS_AHEAD`. -/
def maxBookingDaysAhead : Int := 90

/-- A calendar: `appointments:{tenant_id}:{agent_user_id}`. -/
abbrev CalendarKey := Uuid × Uuid

/-- A booking that passed its first checks, with the settings of its tenant at that time. -/
structure Booking where
  tenantId : Uuid
  agentUserId : Uuid
  listingId : Option Uuid
  startAt : DateTime
  day : Date
  settings : AppointmentSettings

/-- The calendar that a booking locks. -/
def Booking.calendar (b : Booking) : CalendarKey := (b.tenantId, b.agentUserId)

/-- How far a request has come. -/
inductive Phase where
  | idle
  /-- Before `lock_agent_calendar`. -/
  | requested (b : Booking)
  | locked (b : Booking)
  /-- `availability_for_date` returned these rows. -/
  | scheduled (b : Booking) (rows : List AgentAvailability)
  /-- The requested start is a free slot. -/
  | slotFound (b : Booking) (slot : Slot)
  | booked (b : Booking) (key : Uuid)
  /-- Before `SELECT … FOR UPDATE`. -/
  | transition (tenantId : Uuid) (scope : Option (List Uuid)) (key : Uuid)
      (toStatus : AppointmentStatus)
  | selected (key : Uuid) (toStatus : AppointmentStatus)
  | transitioned (key : Uuid)
  /-- Before `delete_availability`. -/
  | put (tenantId agentUserId : Uuid) (rules : List AgentAvailability)
  /-- The rows still to delete, and the rules still to insert. -/
  | replacing (tenantId agentUserId : Uuid) (todo : List Uuid) (rules : List AgentAvailability)
  | finished

/-- The clock, two tables, the advisory locks and the requests under way. -/
structure State where
  now : DateTime
  appointments : Table Uuid Appointment Nat
  availability : Table Uuid AgentAvailability Nat
  calendars : CalendarKey → Option Nat
  requests : Nat → Phase

/-- A step of a request, or time that passes. -/
inductive Label where
  | wait (seconds : Nat)
  /-- A booking of an agent whose published profile was found; `hp` is the honeypot. -/
  | book (t : Nat) (tenant : TenantContext) (agentUserId : Uuid) (listingId : Option Uuid)
      (startAt : DateTime) (hp : Bool)
  | lockCalendar (t : Nat)
  | readAvailability (t : Nat)
  | readLive (t : Nat)
  | insert (t : Nat) (key : Uuid)
  | transition (t : Nat) (tenantId : Uuid) (scope : Option (List Uuid)) (key : Uuid)
      (toStatus : AppointmentStatus)
  | select (t : Nat)
  | update (t : Nat)
  | putAvailability (t : Nat) (tenantId agentUserId : Uuid) (rules : List AgentAvailability)
  | deleteSnapshot (t : Nat)
  | deleteRow (t : Nat) (key : Uuid)
  | addRule (t : Nat) (key : Uuid)
  | commit (t : Nat)
  /-- The request raises or dies; its transaction is rolled back. -/
  | abort (t : Nat)

namespace State

variable (s : State)

/-- Record the new phase of a request. -/
def goto (t : Nat) (phase : Phase) : State :=
  { s with requests := Function.update s.requests t phase }

/-- The calendar locks once `t` has released its own. -/
def release (t : Nat) : CalendarKey → Option Nat :=
  fun c => if s.calendars c = some t then none else s.calendars c

/-- The request raises: its transaction is rolled back. -/
def fail (t : Nat) : State :=
  { s.goto t .finished with
    appointments := s.appointments.rollback t
    availability := s.availability.rollback t
    calendars := s.release t }

/-- `_validate_day`. -/
def validDay (settings : AppointmentSettings) (day : Date) : Bool :=
  let today := settings.tz.dateOf s.now
  !(day < today || day > today + maxBookingDaysAhead)

/-- `book` up to the calendar lock. `get_public` finds agents of the tenant only. -/
def book (zoneInfo : String → Option Zone) (tenantOf : Uuid → Uuid) (t : Nat)
    (tenant : TenantContext) (agentUserId : Uuid) (listingId : Option Uuid)
    (startAt : DateTime) (hp : Bool) : Option State :=
  match s.requests t with
  | .idle =>
    if hp || tenantOf agentUserId ≠ tenant.id then some (s.goto t .finished)
    else
      match tenantAppointmentSettings zoneInfo tenant with
      | none => some (s.goto t .finished)
      | some settings =>
        let day := settings.tz.dateOf startAt
        if s.validDay settings day then
          some (s.goto t
            (.requested ⟨tenant.id, agentUserId, listingId, startAt, day, settings⟩))
        else some (s.goto t .finished)
  | _ => none

/-- `pg_advisory_xact_lock`: blocked while another transaction holds the lock. -/
def lockCalendar (t : Nat) : Option State :=
  match s.requests t with
  | .requested b =>
    if s.calendars b.calendar = none then
      some { s.goto t (.locked b) with
        calendars := Function.update s.calendars b.calendar (some t) }
    else none
  | _ => none

/-- The rows of the day, read under the lock. -/
def readAvailability (t : Nat) : Option State :=
  match s.requests t with
  | .locked b =>
    some (s.goto t (.scheduled b
      (s.availability.select t (·.onDate b.tenantId b.agentUserId b.day))))
  | _ => none

/-- `active_between`, the slots, and the slot that starts when requested. -/
def readLive (t : Nat) : Option State :=
  match s.requests t with
  | .scheduled b rows =>
    match busyWindow b.settings.buffer (openWindows b.settings.tz b.day rows) with
    | none => some (s.fail t)
    | some window =>
      let live := s.appointments.select t (·.activeBetween b.tenantId b.agentUserId window)
      match (freeSlots b.settings s.now b.day rows live).find? (·.1 = b.startAt) with
      | none => some (s.fail t)
      | some slot => some (s.goto t (.slotFound b slot))
  | _ => none

/-- The `INSERT` of the appointment. -/
def insert (t : Nat) (key : Uuid) : Option State :=
  match s.requests t with
  | .slotFound b slot =>
    (s.appointments.insert t key
      { tenantId := b.tenantId, agentUserId := b.agentUserId, listingId := b.listingId
        startAt := slot.1, endAt := slot.2 }).map fun appointments =>
      { s.goto t (.booked b key) with appointments }
  | _ => none

/-- `transition_appointment` begins. -/
def transition (t : Nat) (tenantId : Uuid) (scope : Option (List Uuid)) (key : Uuid)
    (toStatus : AppointmentStatus) : Option State :=
  match s.requests t with
  | .idle => some (s.goto t (.transition tenantId scope key toStatus))
  | _ => none

/-- `_scoped_or_404` with `for_update`, and the lifecycle check. -/
def select (t : Nat) : Option State :=
  match s.requests t with
  | .transition tenantId scope key toStatus =>
    match (s.appointments.visible t key).filter fun a =>
      a.tenantId = tenantId && scope.all (a.agentUserId ∈ ·) with
    | none => some (s.fail t)
    | some a =>
      (s.appointments.acquire t key).map fun appointments =>
        if toStatus ∈ a.status.transitions then
          { s.goto t (.selected key toStatus) with appointments }
        else s.fail t
  | _ => none

/-- The `UPDATE` of the status. -/
def update (t : Nat) : Option State :=
  match s.requests t with
  | .selected key toStatus =>
    match s.appointments.visible t key with
    | none => none
    | some a =>
      let confirmedAt := if toStatus = .confirmed then some s.now else a.confirmedAt
      (s.appointments.write t key
        (some { a with status := toStatus, confirmedAt := confirmedAt })).map fun appointments =>
        { s.goto t (.transitioned key) with appointments }
  | _ => none

/-- `replace_availability` begins. -/
def putAvailability (t : Nat) (tenantId agentUserId : Uuid) (rules : List AgentAvailability) :
    Option State :=
  match s.requests t with
  | .idle => some (s.goto t (.put tenantId agentUserId rules))
  | _ => none

/-- The snapshot of `delete_availability`. -/
def deleteSnapshot (t : Nat) : Option State :=
  match s.requests t with
  | .put tenantId agentUserId rules =>
    some (s.goto t (.replacing tenantId agentUserId
      (s.availability.scan t fun r => r.tenantId = tenantId ∧ r.agentUserId = agentUserId)
      rules))
  | _ => none

/-- One row of the bulk `DELETE`. -/
def deleteRow (t : Nat) (key : Uuid) : Option State :=
  match s.requests t with
  | .replacing tenantId agentUserId todo rules =>
    if key ∈ todo then
      (s.availability.write t key none).map fun availability =>
        { s.goto t (.replacing tenantId agentUserId (todo.erase key) rules) with availability }
    else none
  | _ => none

/-- It inserts its next rule. -/
def addRule (t : Nat) (key : Uuid) : Option State :=
  match s.requests t with
  | .replacing tenantId agentUserId [] (rule :: rules) =>
    (s.availability.insert t key { rule with tenantId, agentUserId }).map fun availability =>
      { s.goto t (.replacing tenantId agentUserId [] rules) with availability }
  | _ => none

/-- A request may commit once all its statements ran. -/
def commit (t : Nat) : Option State :=
  let committed : State :=
    { s.goto t .finished with
      appointments := s.appointments.commit t
      availability := s.availability.commit t
      calendars := s.release t }
  match s.requests t with
  | .booked _ _ | .transitioned _ | .replacing _ _ [] [] => some committed
  | _ => none

/-- A request fails, and its transaction is rolled back. -/
def abort (t : Nat) : Option State :=
  match s.requests t with
  | .idle => none
  | .finished => none
  | _ => some (s.fail t)

end State

section Machine

variable (zoneInfo : String → Option Zone) (tenantOf : Uuid → Uuid)

/-- One step of the machine. -/
def step (s : State) : Label → Option State
  | .wait seconds => some { s with now := s.now + seconds }
  | .book t tenant agentUserId listingId startAt hp =>
    s.book zoneInfo tenantOf t tenant agentUserId listingId startAt hp
  | .lockCalendar t => s.lockCalendar t
  | .readAvailability t => s.readAvailability t
  | .readLive t => s.readLive t
  | .insert t key => s.insert t key
  | .transition t tenantId scope key toStatus => s.transition t tenantId scope key toStatus
  | .select t => s.select t
  | .update t => s.update t
  | .putAvailability t tenantId agentUserId rules => s.putAvailability t tenantId agentUserId rules
  | .deleteSnapshot t => s.deleteSnapshot t
  | .deleteRow t key => s.deleteRow t key
  | .addRule t key => s.addRule t key
  | .commit t => s.commit t
  | .abort t => s.abort t

/-- Appointment requests over empty tables. `tenantOf` is `users.tenant_id`. -/
def appointmentRequests : Machine State Label where
  init s := s = ⟨0, .empty, .empty, fun _ => none, fun _ => .idle⟩
  step := step zoneInfo tenantOf

end Machine

/-- No two live appointments of one agent overlap. -/
def NoDoubleBooking (tb : Table Uuid Appointment Nat) : Prop :=
  ∀ j k a b, j ≠ k → tb.rows j = some a → tb.rows k = some b →
    a.agentUserId = b.agentUserId → a.status.active = true → b.status.active = true →
    ¬Overlap a.slot b.slot

end Appointments

end RealEstate
