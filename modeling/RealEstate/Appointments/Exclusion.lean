import RealEstate.Appointments.Booking

/-!
# Appointments never double-book

- `Clear`: no committed live appointment of an agent meets a slot. A booking
  establishes it when it reads the live appointments, and needs it when it
  commits.
- `Phase.Ok`: what a request knows in each phase. `Phase.Ok.frame`: it survives
  what other requests do, since whoever could add an appointment to the same
  calendar would need the same lock, and a status only moves from live to live
  or out.
- `Inv.step`, `no_double_booking`.
-/

namespace RealEstate

namespace Appointments

open RealEstate.Core Systems
open Machine (update_cases)

/-- No committed live appointment of the agent meets the slot. -/
def Clear (tb : Table Uuid Appointment Nat) (agentUserId : Uuid) (slot : Slot) : Prop :=
  ∀ k a, tb.rows k = some a → a.agentUserId = agentUserId → a.status.active = true →
    ¬Overlap slot a.slot

/-- `a'` is `a` after a transition: same agent, same interval. -/
structure Moved (a a' : Appointment) : Prop where
  tenant : a'.tenantId = a.tenantId
  agent : a'.agentUserId = a.agentUserId
  slot : a'.slot = a.slot
  live : a'.status.active = true → a.status.active = true

theorem Moved.refl (a : Appointment) : Moved a a := ⟨rfl, rfl, rfl, id⟩

section Invariant

variable {tenantOf : Uuid → Uuid}

/-- A booking under its calendar lock. -/
structure Booking.Locked (tenantOf : Uuid → Uuid) (calendars : CalendarKey → Option Nat) (t : Nat)
    (b : Booking) : Prop where
  tenant : b.tenantId = tenantOf b.agentUserId
  lock : calendars b.calendar = some t

/-- What a request knows in each phase. -/
def Phase.Ok (tenantOf : Uuid → Uuid) (tb : Table Uuid Appointment Nat)
    (calendars : CalendarKey → Option Nat) (t : Nat) : Phase → Prop
  | .requested b => b.tenantId = tenantOf b.agentUserId
  | .locked b | .scheduled b _ => b.Locked tenantOf calendars t
  | .slotFound b slot => b.Locked tenantOf calendars t ∧ Clear tb b.agentUserId slot
  | .booked b key => b.Locked tenantOf calendars t ∧ ∃ a : Appointment,
      tb.dirty t key = some (some a) ∧ tb.rows key = none ∧ a.agentUserId = b.agentUserId ∧
        a.tenantId = b.tenantId ∧ Clear tb a.agentUserId a.slot
  | .selected key toStatus => tb.lock key = some t ∧
      ∀ a, tb.rows key = some a → toStatus ∈ a.status.transitions
  | .transitioned key => ∃ a a', tb.rows key = some a ∧ tb.dirty t key = some (some a') ∧
      Moved a a'
  | _ => True

/-- The appointment a request has written. -/
def Phase.writes : Phase → Option Uuid
  | .booked _ key => some key
  | .transitioned key => some key
  | _ => none

/-- The booking whose slot has been checked. -/
def Phase.checked : Phase → Option Booking
  | .slotFound b _ => some b
  | .booked b _ => some b
  | _ => none

/-- Who holds a calendar's lock is the only one to write to it, and the table has no overlap. -/
structure Inv (tenantOf : Uuid → Uuid) (s : State) : Prop where
  ok : ∀ t, (s.requests t).Ok tenantOf s.appointments s.calendars t
  dirty : ∀ t k v, s.appointments.dirty t k = some v → (s.requests t).writes = some k
  tenant : ∀ k a, s.appointments.rows k = some a → a.tenantId = tenantOf a.agentUserId
  disjoint : NoDoubleBooking s.appointments

/-- What others do leaves alone what a request knows: they keep its rows and locks, and a
slot it has checked stays clear. -/
theorem Phase.Ok.frame {tb tb' : Table Uuid Appointment Nat}
    {calendars calendars' : CalendarKey → Option Nat} {t : Nat} {phase : Phase}
    (h : phase.Ok tenantOf tb calendars t) (hsame : Table.SameFor t tb tb')
    (hcalendars : ∀ c, calendars c = some t → calendars' c = some t)
    (hclear : ∀ b slot, phase.checked = some b → Clear tb b.agentUserId slot →
      Clear tb' b.agentUserId slot) : phase.Ok tenantOf tb' calendars' t := by
  have hlocked : ∀ {b : Booking}, b.Locked tenantOf calendars t →
      b.Locked tenantOf calendars' t :=
    fun hb => ⟨hb.tenant, hcalendars _ hb.lock⟩
  cases phase with
  | idle | transition | put | replacing | finished => trivial
  | requested b => exact h
  | locked b | scheduled b rows => exact hlocked h
  | slotFound b slot => exact ⟨hlocked h.1, hclear b slot rfl h.2⟩
  | booked b key =>
    -- An inserted row stays clear as long as its calendar is locked.
    obtain ⟨hb, a, hdirty, hnone, hagent, htenant, hfree⟩ := h
    refine ⟨hlocked hb, a, (hsame.dirty key).trans hdirty, ?_, hagent, htenant, ?_⟩
    · rw [hsame.rows key (tb.dirty_lock hdirty)]
      exact hnone
    · rw [hagent] at hfree ⊢
      exact hclear b _ rfl hfree
  | selected key toStatus =>
    refine ⟨(hsame.lock key).mpr h.1, fun a ha => h.2 a ?_⟩
    rw [← hsame.rows key h.1]
    exact ha
  | transitioned key =>
    obtain ⟨a, a', hrow, hdirty, hmoved⟩ := h
    refine ⟨a, a', ?_, (hsame.dirty key).trans hdirty, hmoved⟩
    rw [hsame.rows key (tb.dirty_lock hdirty)]
    exact hrow

/-- A request that has written nothing sees the committed rows. -/
theorem Inv.visible_eq {s : State} (hI : Inv tenantOf s) {t : Nat}
    (hclean : (s.requests t).writes = none) (k : Uuid) :
    s.appointments.visible t k = s.appointments.rows k := by
  refine Table.visible_of_clean ?_
  cases hd : s.appointments.dirty t k with
  | none => rfl
  | some v => exact absurd ((hI.dirty t k v hd).symm.trans hclean) (by simp)

/-- A step that only moves a request on. -/
theorem Inv.goto {s s' : State} {t : Nat} {phase : Phase} (hI : Inv tenantOf s)
    (hrequests : s'.requests = Function.update s.requests t phase)
    (happointments : s'.appointments = s.appointments) (hcalendars : s'.calendars = s.calendars)
    (hwrites : phase.writes = (s.requests t).writes)
    (hok : phase.Ok tenantOf s.appointments s.calendars t) : Inv tenantOf s' := by
  refine ⟨fun u => ?_, fun u k v hd => ?_, ?_, ?_⟩
  · rw [hrequests, happointments, hcalendars]
    by_cases hu : u = t
    · rw [hu, Function.update_self]
      exact hok
    · rw [Function.update_of_ne hu]
      exact hI.ok u
  · rw [happointments] at hd
    have hw := hI.dirty u k v hd
    rw [hrequests]
    by_cases hu : u = t
    · rw [hu, Function.update_self, hwrites, ← hu]
      exact hw
    · rw [Function.update_of_ne hu]
      exact hw
  · rw [happointments]
    exact hI.tenant
  · rw [happointments]
    exact hI.disjoint

/-- A statement of request `t` on the appointments: the committed rows stay, and the others
keep what they have. -/
theorem Inv.statement {s s' : State} {t : Nat} {phase : Phase} (hI : Inv tenantOf s)
    (hrequests : s'.requests = Function.update s.requests t phase)
    (hcalendars : s'.calendars = s.calendars)
    (hrows : s'.appointments.rows = s.appointments.rows)
    (hsame : ∀ u, u ≠ t → Table.SameFor u s.appointments s'.appointments)
    (hdirty : ∀ k v, s'.appointments.dirty t k = some v → phase.writes = some k)
    (hok : phase.Ok tenantOf s'.appointments s.calendars t) : Inv tenantOf s' := by
  refine ⟨fun u => ?_, fun u k v hd => ?_, ?_, ?_⟩
  · rw [hrequests, hcalendars]
    by_cases hu : u = t
    · rw [hu, Function.update_self]
      exact hok
    · -- Another request: its rows and locks are those of before.
      rw [Function.update_of_ne hu]
      refine (hI.ok u).frame (hsame u hu) (fun _ hc => hc) fun b slot _ hclear k a hrow => ?_
      rw [hrows] at hrow
      exact hclear k a hrow
  · rw [hrequests]
    by_cases hu : u = t
    · rw [hu, Function.update_self]
      exact hdirty k v (hu ▸ hd)
    · rw [Function.update_of_ne hu]
      exact hI.dirty u k v (((hsame u hu).dirty k).symm.trans hd)
  · rw [hrows]
    exact hI.tenant
  · intro j k a b hjk ha hb
    rw [hrows] at ha hb
    exact hI.disjoint j k a b hjk ha hb

/-- A booking whose slot has been checked holds its calendar. -/
theorem Inv.locked_of_checked {s : State} (hI : Inv tenantOf s) {t : Nat} {b : Booking}
    (h : (s.requests t).checked = some b) : b.Locked tenantOf s.calendars t := by
  have hok := hI.ok t
  generalize s.requests t = phase at h hok
  cases phase with
  | slotFound | booked =>
    cases h
    exact hok.1
  | _ => cases h

/-- Two bookings of one agent that have both checked their slot are the same request. -/
theorem Inv.checked_unique {s : State} (hI : Inv tenantOf s) {t u : Nat} {b b' : Booking}
    (h : (s.requests t).checked = some b) (h' : (s.requests u).checked = some b')
    (hagent : b.agentUserId = b'.agentUserId) : t = u := by
  have hb := hI.locked_of_checked h
  have hb' := hI.locked_of_checked h'
  have hcalendar : b.calendar = b'.calendar := by
    rw [Booking.calendar, Booking.calendar, hb.tenant, hb'.tenant, hagent]
  exact Option.some.inj (hb.lock.symm.trans (hcalendar ▸ hb'.lock))

theorem release_of_ne {s : State} {t u : Nat} {c : CalendarKey} (hu : u ≠ t)
    (h : s.calendars c = some u) : s.release t c = some u := by
  rw [State.release, if_neg (fun ht => hu (Option.some.inj (h.symm.trans ht)))]
  exact h

/-- How a committed row came about when request `t` ended: it was there, perhaps with
another status, or it is the appointment `t` booked. -/
def Came (s : State) (t : Nat) (k : Uuid) (a' : Appointment) : Prop :=
  (∃ a, s.appointments.rows k = some a ∧ Moved a a') ∨
    ∃ b, s.requests t = .booked b k ∧ a'.agentUserId = b.agentUserId ∧
      a'.tenantId = b.tenantId ∧ Clear s.appointments a'.agentUserId a'.slot

/-- The end of a transaction. -/
theorem Inv.finish {s s' : State} {t : Nat} (hI : Inv tenantOf s)
    (hrequests : s'.requests = Function.update s.requests t .finished)
    (hcalendars : s'.calendars = s.release t)
    (hsame : ∀ u, u ≠ t → Table.SameFor u s.appointments s'.appointments)
    (hdirty : ∀ k v, s'.appointments.dirty t k ≠ some v)
    (hrows : ∀ k a', s'.appointments.rows k = some a' → Came s t k a') : Inv tenantOf s' := by
  refine ⟨fun u => ?_, fun u k v hd => ?_, fun k a' ha' => ?_, fun j k a' b' hjk ha' hb' => ?_⟩
  · rw [hrequests, hcalendars]
    by_cases hu : u = t
    · rw [hu, Function.update_self]
      trivial
    · rw [Function.update_of_ne hu]
      refine (hI.ok u).frame (hsame u hu) (fun _ hc => release_of_ne hu hc) ?_
      intro bu slot hchecked hclear k a' ha' hagent hactive
      rcases hrows k a' ha' with ⟨a, ha, hmoved⟩ | ⟨b, hbooked, hb, -, -⟩
      · rw [hmoved.slot]
        exact hclear k a ha (hmoved.agent.symm.trans hagent) (hmoved.live hactive)
      · -- a booking for the same calendar would hold the same lock
        have hchecked' : (s.requests t).checked = some b := by
          rw [hbooked]
          rfl
        exact absurd (hI.checked_unique hchecked hchecked' (hagent.symm.trans hb)) hu
  · rw [hrequests]
    by_cases hu : u = t
    · exact absurd (hu ▸ hd) (hdirty k v)
    · rw [Function.update_of_ne hu]
      exact hI.dirty u k v (((hsame u hu).dirty k).symm.trans hd)
  · rcases hrows k a' ha' with ⟨a, ha, hmoved⟩ | ⟨b, hbooked, hb, htenant, -⟩
    · rw [hmoved.tenant, hmoved.agent]
      exact hI.tenant k a ha
    · have hlocked := hI.locked_of_checked (b := b) (by rw [hbooked]; rfl)
      rw [htenant, hb]
      exact hlocked.tenant
  · intro hagent hactive hactive'
    -- Two old rows, an old one and the new one, or the new one twice.
    rcases hrows j a' ha' with ⟨a, ha, hmoved⟩ | ⟨b, hbooked, -, -, hclear⟩
    · rcases hrows k b' hb' with ⟨b, hb, hmoved'⟩ | ⟨b, -, -, -, hclear⟩
      · rw [hmoved.slot, hmoved'.slot]
        refine hI.disjoint j k a b hjk ha hb ?_ (hmoved.live hactive) (hmoved'.live hactive')
        rw [← hmoved.agent, ← hmoved'.agent]
        exact hagent
      · rw [hmoved.slot]
        intro hover
        exact hclear j a ha (hmoved.agent.symm.trans hagent) (hmoved.live hactive) hover.symm
    · rcases hrows k b' hb' with ⟨b, hb, hmoved'⟩ | ⟨b', hbooked', -, -, -⟩
      · rw [hmoved'.slot]
        exact hclear k b hb (hmoved'.agent.symm.trans hagent.symm) (hmoved'.live hactive')
      · rw [hbooked] at hbooked'
        cases hbooked'
        exact absurd rfl hjk

/-- A failing request leaves the invariant. -/
theorem Inv.fail {s : State} {t : Nat} (hI : Inv tenantOf s) : Inv tenantOf (s.fail t) := by
  refine hI.finish (t := t) rfl rfl (fun u hu => Table.rollback_sameFor hu) ?_ ?_
  · intro k v hd
    exact (Table.rollback_dirty.mp hd).1 rfl
  · exact fun k a ha => .inl ⟨a, ha, .refl a⟩

/-- What a commit publishes. -/
theorem Inv.came {s : State} {t : Nat} (hI : Inv tenantOf s) {k : Uuid} {a' : Appointment}
    (h : s.appointments.visible t k = some a') : Came s t k a' := by
  cases hd : s.appointments.dirty t k with
  | none =>
    rw [Table.visible_of_clean hd] at h
    exact .inl ⟨a', h, .refl a'⟩
  | some v =>
    rw [Table.visible_of_dirty hd] at h
    subst h
    have hwrites := hI.dirty t k _ hd
    have hok := hI.ok t
    generalize hphase : s.requests t = phase at hwrites hok
    cases phase with
    | booked b key =>
      cases hwrites
      obtain ⟨-, a, hdirty, -, hagent, htenant, hclear⟩ := hok
      obtain rfl := Option.some.inj (Option.some.inj (hd.symm.trans hdirty))
      exact .inr ⟨b, hphase, hagent, htenant, hclear⟩
    | transitioned key =>
      cases hwrites
      obtain ⟨a, a'', hrow, hdirty, hmoved⟩ := hok
      obtain rfl := Option.some.inj (Option.some.inj (hd.symm.trans hdirty))
      exact .inl ⟨a, hrow, hmoved⟩
    | _ => cases hwrites

/-! ### The steps -/

section Steps

variable {zoneInfo : String → Option Zone} {s s' : State} {t : Nat}

theorem Inv.book {tenant : TenantContext} {agentUserId : Uuid} {listingId : Option Uuid}
    {startAt : DateTime} {hp : Bool} (hI : Inv tenantOf s)
    (h : s.book zoneInfo tenantOf t tenant agentUserId listingId startAt hp = some s') :
    Inv tenantOf s' := by
  unfold State.book at h
  split at h
  · next hidle =>
    -- A request that refuses before it locks has written nothing.
    have hwrites : (s.requests t).writes = none := by rw [hidle]; rfl
    have hfinished : Inv tenantOf (s.goto t .finished) :=
      hI.goto rfl rfl rfl hwrites.symm trivial
    split at h
    · cases h
      exact hfinished
    · next hfound =>
      split at h
      · cases h
        exact hfinished
      · dsimp only at h
        split at h
        · cases h
          refine hI.goto rfl rfl rfl hwrites.symm ?_
          simp only [Bool.or_eq_true, decide_eq_true_eq, not_or, not_not] at hfound
          exact hfound.2.symm
        · cases h
          exact hfinished
  · cases h

theorem Inv.lockCalendar (hI : Inv tenantOf s) (h : s.lockCalendar t = some s') :
    Inv tenantOf s' := by
  unfold State.lockCalendar at h
  split at h
  · next b hphase =>
    split at h
    · next hfree =>
      cases h
      have hok := hI.ok t
      rw [hphase] at hok
      refine ⟨fun u => ?_, fun u k v hd => ?_, hI.tenant, hI.disjoint⟩
      · show (Function.update s.requests t _ u).Ok tenantOf s.appointments
          (Function.update s.calendars b.calendar (some t)) u
        by_cases hu : u = t
        · rw [hu, Function.update_self]
          exact ⟨hok, Function.update_self ..⟩
        · -- The calendar was free, so that nobody else loses it.
          rw [Function.update_of_ne hu]
          refine (hI.ok u).frame (.refl u _) (fun c hc => ?_) fun _ _ _ hclear => hclear
          have hne : c ≠ b.calendar := by
            rintro rfl
            rw [hfree] at hc
            cases hc
          rw [Function.update_of_ne hne]
          exact hc
      · have hw := hI.dirty u k v hd
        show (Function.update s.requests t _ u).writes = some k
        by_cases hu : u = t
        · rw [hu, hphase] at hw
          cases hw
        · rw [Function.update_of_ne hu]
          exact hw
    · cases h
  · cases h

/-- The slot found is clear: every live appointment of the agent that could meet it was in
the query's answer. -/
theorem Inv.readLive (hI : Inv tenantOf s) (h : s.readLive t = some s') : Inv tenantOf s' := by
  unfold State.readLive at h
  split at h
  · next b rows hphase =>
    have hlocked : b.Locked tenantOf s.calendars t := by
      have hok := hI.ok t
      rw [hphase] at hok
      exact hok
    split at h
    · cases h
      exact hI.fail
    · next window hwindow =>
      dsimp only at h
      split at h
      · cases h
        exact hI.fail
      · next slot hslot =>
        cases h
        refine hI.goto rfl rfl rfl (by rw [hphase]; rfl) ⟨hlocked, ?_⟩
        intro k a hrow hagent hactive
        refine freeSlots_disjoint (List.mem_of_find?_eq_some hslot) hwindow
          (fun hbetween : a.activeBetween b.tenantId b.agentUserId window = true => ?_) ?_ hagent
          hactive
        · -- `t` has written nothing, so that the query saw the committed rows.
          refine Table.mem_select.mpr ⟨k, ?_, hbetween⟩
          rw [hI.visible_eq (by rw [hphase]; rfl)]
          exact hrow
        · rw [hI.tenant k a hrow, hlocked.tenant, hagent]
  · cases h

/-- **The insertion** comes after the checks, under the calendar's lock. -/
theorem Inv.insert {key : Uuid} (hI : Inv tenantOf s) (h : s.insert t key = some s') :
    Inv tenantOf s' := by
  unfold State.insert at h
  split at h
  · next b slot hphase =>
    rw [Option.map_eq_some_iff] at h
    obtain ⟨tb, htb, rfl⟩ := h
    obtain ⟨hkey, rfl⟩ := Table.insert_eq_some.mp htb
    have hok := hI.ok t
    rw [hphase] at hok
    obtain ⟨hlocked, hclear⟩ := hok
    refine hI.statement (t := t) rfl rfl rfl (fun u hu => Table.inserted_sameFor hu hkey)
      (fun k v hd => ?_) ⟨hlocked, _, Table.setDirty_self .., ?_, rfl, rfl, hclear⟩
    · by_cases hk : k = key
      · rw [hk]
        rfl
      · rw [Table.inserted_dirty, Table.setDirty_of_ne_key hk] at hd
        have hw := hI.dirty t k v hd
        rw [hphase] at hw
        cases hw
    · show s.appointments.rows key = none
      cases hrow : s.appointments.rows key with
      | none => rfl
      | some a => exact absurd (s.appointments.rows_keys hrow) hkey
  · cases h

/-- The first read of a transition only finds its row. -/
theorem Inv.select (hI : Inv tenantOf s) (h : s.select t = some s') : Inv tenantOf s' := by
  unfold State.select at h
  split at h
  · next tenantId scope key toStatus hphase =>
    split at h
    · cases h
      exact hI.fail
    · next a ha =>
      rw [Option.map_eq_some_iff] at h
      obtain ⟨tb, htb, rfl⟩ := h
      obtain ⟨hkey, rfl⟩ := Table.acquire_eq_some.mp htb
      -- `t` has written nothing yet, so it reads the committed row.
      have hrow : s.appointments.rows key = some a := by
        rw [← hI.visible_eq (t := t) (by rw [hphase]; rfl)]
        exact (Option.filter_eq_some_iff.mp ha).1
      split
      · next hmove =>
        refine hI.statement (t := t) rfl rfl rfl (fun u hu => Table.acquired_sameFor hu hkey)
          (fun k v hd => ?_) ⟨Function.update_self .., fun a' ha' => ?_⟩
        · have hw := hI.dirty t k v hd
          rw [hphase] at hw
          cases hw
        · obtain rfl := Option.some.inj (hrow.symm.trans ha')
          exact hmove
      · exact hI.fail
  · cases h

/-- A transition moves no appointment in time. -/
theorem Inv.update (hI : Inv tenantOf s) (h : s.update t = some s') : Inv tenantOf s' := by
  unfold State.update at h
  split at h
  · next key toStatus hphase =>
    split at h
    · cases h
    · next a ha =>
      dsimp only at h
      rw [Option.map_eq_some_iff] at h
      obtain ⟨tb, htb, rfl⟩ := h
      obtain ⟨hkey, rfl⟩ := Table.write_eq_some.mp htb
      rw [hI.visible_eq (by rw [hphase]; rfl)] at ha
      have hok := hI.ok t
      rw [hphase] at hok
      -- No move leads back to an active status from another one.
      have hactive := AppointmentStatus.active_of_transition (hok.2 a ha)
      refine hI.statement (t := t) rfl rfl rfl (fun u hu => Table.written_sameFor hu hkey)
        (fun k v hd => ?_) ⟨a, _, ha, Table.setDirty_self .., rfl, rfl, rfl, fun _ => hactive⟩
      by_cases hk : k = key
      · rw [hk]
        rfl
      · rw [Table.written_dirty, Table.setDirty_of_ne_key hk] at hd
        have hw := hI.dirty t k v hd
        rw [hphase] at hw
        cases hw
  · cases h

/-- A commit publishes what the request wrote, and only the lock's holder wrote to the calendar. -/
theorem Inv.commit (hI : Inv tenantOf s) (h : s.commit t = some s') : Inv tenantOf s' := by
  have hcommitted : Inv tenantOf { s.goto t .finished with
      appointments := s.appointments.commit t
      availability := s.availability.commit t
      calendars := s.release t } := by
    refine hI.finish (t := t) rfl rfl (fun u hu => Table.commit_sameFor hu) ?_ ?_
    · intro k v hd
      exact (Table.commit_dirty.mp hd).1 rfl
    · exact fun k a ha => hI.came ha
  unfold State.commit at h
  dsimp only at h
  split at h
  · cases h
    exact hcommitted
  · cases h
    exact hcommitted
  · cases h
    exact hcommitted
  · cases h

/-- One step keeps the invariant. -/
theorem Inv.step {l : Label} (hI : Inv tenantOf s)
    (h : Appointments.step zoneInfo tenantOf s l = some s') : Inv tenantOf s' := by
  cases l with
  | wait seconds =>
    cases h
    exact ⟨hI.ok, hI.dirty, hI.tenant, hI.disjoint⟩
  | book t tenant agentUserId listingId startAt hp => exact hI.book h
  | lockCalendar t => exact hI.lockCalendar h
  | readLive t => exact hI.readLive h
  | insert t key => exact hI.insert h
  | select t => exact hI.select h
  | update t => exact hI.update h
  | commit t => exact hI.commit h
  | readAvailability t =>
    simp only [Appointments.step, State.readAvailability] at h
    split at h
    · next b hphase =>
      cases h
      have hok := hI.ok t
      rw [hphase] at hok
      exact hI.goto rfl rfl rfl (by rw [hphase]; rfl) hok
    · cases h
  | transition t tenantId scope key toStatus =>
    simp only [Appointments.step, State.transition] at h
    split at h
    · next hphase =>
      cases h
      exact hI.goto rfl rfl rfl (by rw [hphase]; rfl) trivial
    · cases h
  | putAvailability t tenantId agentUserId rules =>
    simp only [Appointments.step, State.putAvailability] at h
    split at h
    · next hphase =>
      cases h
      exact hI.goto rfl rfl rfl (by rw [hphase]; rfl) trivial
    · cases h
  | deleteSnapshot t =>
    -- Availability rows are not appointments.
    simp only [Appointments.step, State.deleteSnapshot] at h
    split at h
    · next hphase =>
      cases h
      exact hI.goto rfl rfl rfl (by rw [hphase]; rfl) trivial
    · cases h
  | deleteRow t key =>
    simp only [Appointments.step, State.deleteRow] at h
    split at h
    · next hphase =>
      split at h
      · rw [Option.map_eq_some_iff] at h
        obtain ⟨tb, -, rfl⟩ := h
        exact hI.goto rfl rfl rfl (by rw [hphase]; rfl) trivial
      · cases h
    · cases h
  | addRule t key =>
    simp only [Appointments.step, State.addRule] at h
    split at h
    · next hphase =>
      rw [Option.map_eq_some_iff] at h
      obtain ⟨tb, -, rfl⟩ := h
      exact hI.goto rfl rfl rfl (by rw [hphase]; rfl) trivial
    · cases h
  | abort t =>
    simp only [Appointments.step, State.abort] at h
    split at h
    · cases h
    · cases h
    · cases h
      exact hI.fail

/-- **Appointments never double-book**, in any interleaving of requests. -/
theorem no_double_booking (h : (appointmentRequests zoneInfo tenantOf).Reachable s) :
    NoDoubleBooking s.appointments := by
  have hI : Inv tenantOf s := by
    refine Machine.Inductive.always (G := fun _ _ => True) ⟨?_, ?_⟩ h
    · rintro _ rfl
      refine ⟨fun _ => trivial, ?_, ?_, ?_⟩
      · intro t k v hdirty
        cases hdirty
      · intro k a hrow
        cases hrow
      · intro k k' a a' _ hrow
        cases hrow
    · exact fun s l t hI _ hst => hI.step hst
  exact hI.disjoint

end Steps

end Invariant

/-- An agent open from 09:00 to 12:00 on the first day of the calendar. -/
theorem nine_before_twelve : 32400 < 43200 := by decide

/-- Nine to twelve. -/
def morning : AgentAvailability :=
  { tenantId := 1, agentUserId := 7, date := some 0, startTime := 32400, endTime := 43200,
    start_before_end := nine_before_twelve }

/-- A tenant of the default settings. -/
def agency : TenantContext := ⟨1, "agency", "Agency", "active", [], "pro"⟩

/-- The statements of a booking. -/
def bookRun (t : Nat) (startAt : DateTime) (key : Uuid) : List Label :=
  [.book t agency 7 none startAt false, .lockCalendar t, .readAvailability t, .readLive t,
    .insert t key, .commit t]

/-- Two bookings of adjacent slots, the first one confirmed in between. -/
theorem no_double_booking_morning :
    ∃ s, (appointmentRequests (fun _ => none) fun _ => 1).Reachable s ∧
      (s.appointments.rows 1).map (·.status) = some .confirmed ∧
      (s.appointments.rows 2).map (·.slot) = some (36000, 39600) ∧
      NoDoubleBooking s.appointments := by
  obtain ⟨s, hs, hp⟩ := Machine.exists_reachable_of_run
    (M := appointmentRequests (fun _ => none) fun _ => 1)
    (List.flatten [
      [.putAvailability 0 1 7 [morning], .deleteSnapshot 0, .addRule 0 1, .commit 0],
      bookRun 1 32400 1, [.transition 2 1 none 1 .confirmed, .select 2, .update 2, .commit 2],
      bookRun 3 36000 2])
    (fun s => (s.appointments.rows 1).map (·.status) = some .confirmed ∧
      (s.appointments.rows 2).map (·.slot) = some (36000, 39600)) rfl (by decide)
  have hrows := of_decide_eq_true hp
  exact ⟨s, hs, hrows.1, hrows.2, no_double_booking hs⟩

end Appointments

end RealEstate
