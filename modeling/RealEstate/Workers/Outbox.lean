import RealEstate.Core.Callbacks
import RealEstate.Notifications.Service
import RealEstate.Users.Models
import RealEstate.Webhooks.Dispatch

/-!
# The application's outbox handlers (`workers/tasks/outbox.py`)

The relay task imports the two modules that register handlers, leads and
webhooks. This module is that registry, and what the relay machine of
`Core.Relay` gives for it.

- `handleLeadCreated`, `dispatchViaOutbox`: the two handlers.
- `registry`: who handles `lead.created`, `listing.published`, `deal.closed`.
- `outbox_engine`: what holds of every event in every run of the relay.
- `callbacks_only_when_delivered`: which runs keep the external effects of
  rolled-back attempts from happening, and `rolled_back_attempt_sends`, a run
  that does not.
-/

namespace RealEstate

namespace Workers

open RealEstate.Core Events Relay

/-- A new lead. -/
def eventLeadCreated : String := "lead.created"
/-- A listing goes live. -/
def eventListingPublished : String := "listing.published"
/-- A deal is closed. -/
def eventDealClosed : String := "deal.closed"

/-- Everything the handlers read outside their own session. `parseUuid` and `str` are
Python's `uuid.UUID` and `str`; `notifyError` is a failure of one of `notify`'s
statements. -/
structure World where
  users : List Users.User
  preferences : List Notifications.NotificationPreference
  inQuiet : TenantContext → Bool
  notificationId : Uuid
  notifyError : Option String
  parseUuid : String → Option Uuid
  str : Json → String
  webhooks : Webhooks.Db

/-- A row an outbox handler writes. -/
inductive Write where
  | notification (row : Notifications.Row)
  | delivery (d : Webhooks.WebhookDelivery)

/-- A callback an outbox handler registers: both enqueue a task. -/
inductive Callback where
  | deliverNotification (send : Notifications.Send)
  | deliverWebhook (task : Webhooks.DeliverTask)

/-- Python's truth value. -/
def truthy : Json → Bool
  | .null => false
  | .bool b => b
  | .num n => n ≠ 0
  | .str s => s ≠ ""
  | .arr xs => ¬xs.isEmpty
  | .obj fields => ¬fields.isEmpty

/-- `_handle_lead_created`: notify the assigned agent if the account is still active. -/
def handleLeadCreated : EventHandler World Write Callback :=
  fun world _ tenant _ payload =>
    let agentRaw := JsonObject.get payload "agentId"
    if ¬truthy agentRaw then {}
    else
      match world.parseUuid (world.str agentRaw) with
      | none => { raised := some "badly formed hexadecimal UUID string" }
      | some agentId =>
        match Users.getIdentityIfActive world.users (some tenant.id) agentId with
        | none => {}
        | some identity =>
          match world.notifyError with
          | some exc => { raised := some exc }
          | none =>
            (Notifications.notify world.preferences world.notificationId
              (world.inQuiet tenant) tenant agentId .leadAssigned
              [("leadId", .str (world.str (JsonObject.get payload "leadId"))),
                ("email", .str identity.email)]
              identity.locale).map .notification .deliverNotification

/-- `_dispatch_via_outbox`. -/
def dispatchViaOutbox : EventHandler World Write Callback :=
  fun world _ tenant eventType payload =>
    (Webhooks.dispatchEvent world.webhooks tenant eventType payload).map .delivery
      .deliverWebhook

/-- The handlers registered once both modules are imported, leads first. -/
def registry : Registry World Write Callback :=
  [eventLeadCreated, eventListingPublished, eventDealClosed].foldl
    (fun reg eventType => registerHandler reg eventType dispatchViaOutbox)
    (registerHandler (fun _ => []) eventLeadCreated handleLeadCreated)

/-- A new lead has two handlers. -/
theorem registry_leadCreated :
    getHandlers registry eventLeadCreated = [handleLeadCreated, dispatchViaOutbox] := rfl
theorem registry_listingPublished :
    getHandlers registry eventListingPublished = [dispatchViaOutbox] := rfl
theorem registry_dealClosed :
    getHandlers registry eventDealClosed = [dispatchViaOutbox] := rfl

theorem registry_other {eventType : String} (h₁ : eventType ≠ eventLeadCreated)
    (h₂ : eventType ≠ eventListingPublished) (h₃ : eventType ≠ eventDealClosed) :
    getHandlers registry eventType = [] := by
  simp [getHandlers, registry, registerHandler, h₁, h₂, h₃]

/-- Neither handler reads a table outbox handlers write. -/
theorem registry_readsApart (eventType : String) : ReadsApart registry eventType := by
  refine readsApart_of_handlers fun k hk env seen seen' tenant payload => ?_
  by_cases h₁ : eventType = eventLeadCreated
  · rw [h₁, registry_leadCreated] at hk
    rcases List.mem_pair.mp hk with rfl | rfl <;> rfl
  · by_cases h₂ : eventType = eventListingPublished
    · rw [h₂, registry_listingPublished] at hk
      rw [List.mem_singleton.mp hk]
      rfl
    · by_cases h₃ : eventType = eventDealClosed
      · rw [h₃, registry_dealClosed] at hk
        rw [List.mem_singleton.mp hk]
        rfl
      · rw [registry_other h₁ h₂ h₃] at hk
        cases hk

/-! ### The webhook deliveries of an event -/

/-- The webhook delivery rows among the rows written. -/
def deliveriesOf (rows : List Write) : List Webhooks.WebhookDelivery :=
  rows.filterMap fun
    | .delivery d => some d
    | .notification _ => none

@[simp] theorem deliveriesOf_append (xs ys : List Write) :
    deliveriesOf (xs ++ ys) = deliveriesOf xs ++ deliveriesOf ys :=
  List.filterMap_append ..

theorem deliveriesOf_delivery (ds : List Webhooks.WebhookDelivery) :
    deliveriesOf (ds.map .delivery) = ds := by
  simp [deliveriesOf, List.filterMap_map]

/-- The notifications of a new lead are none. -/
theorem handleLeadCreated_deliveries (world : World) (seen : List Write)
    (tenant : TenantContext) (eventType : String) (payload : JsonObject) :
    deliveriesOf (handleLeadCreated world seen tenant eventType payload).writes = [] := by
  unfold handleLeadCreated
  dsimp only
  split
  · rfl
  · split
    · rfl
    · split
      · rfl
      · split
        · rfl
        · simp [deliveriesOf, HandlerRun.map]

/-- An attempt that does not raise wrote the delivery rows of one fan-out, that of the
environment the webhook handler read. -/
theorem attemptRun_deliveries {tenant : TenantContext} {envs : Nat → World}
    {seen : List Write} {eventType : String} {payload : JsonObject}
    (hty : eventType ∈ [eventLeadCreated, eventListingPublished, eventDealClosed])
    (h : (attemptRun registry tenant envs seen eventType payload).raised = none) :
    ∃ i, (Webhooks.dispatchEvent (envs i).webhooks tenant eventType payload).raised = none ∧
      deliveriesOf (attemptRun registry tenant envs seen eventType payload).writes =
        (Webhooks.dispatchEvent (envs i).webhooks tenant eventType payload).writes := by
  -- Two of the three events have the webhook handler alone.
  have hsingle : ∀ {ty}, getHandlers registry ty = [dispatchViaOutbox] →
      (attemptRun registry tenant envs seen ty payload).raised = none →
      ∃ i, (Webhooks.dispatchEvent (envs i).webhooks tenant ty payload).raised = none ∧
        deliveriesOf (attemptRun registry tenant envs seen ty payload).writes =
          (Webhooks.dispatchEvent (envs i).webhooks tenant ty payload).writes := by
    intro ty hreg hrun
    refine ⟨0, ?_⟩
    unfold attemptRun at hrun ⊢
    rw [hreg] at hrun ⊢
    simp only [runHandlers, dispatchViaOutbox, HandlerRun.map] at hrun ⊢
    cases hd : (Webhooks.dispatchEvent (envs 0).webhooks tenant ty payload).raised with
    | none => exact ⟨rfl, by simp [deliveriesOf_delivery]⟩
    | some exc => rw [hd] at hrun; simp at hrun
  simp only [List.mem_cons, List.not_mem_nil, or_false] at hty
  rcases hty with rfl | rfl | rfl
  · -- A new lead: the webhook handler comes second, after one that writes no deliveries.
    refine ⟨1, ?_⟩
    unfold attemptRun at h ⊢
    rw [registry_leadCreated] at h ⊢
    simp only [runHandlers] at h ⊢
    cases hl : (handleLeadCreated (envs 0) seen tenant eventLeadCreated payload).raised with
    | some exc => rw [hl] at h; simp [hl] at h
    | none =>
      rw [hl] at h
      simp only [dispatchViaOutbox, HandlerRun.map] at h ⊢
      cases hd : (Webhooks.dispatchEvent (envs 1).webhooks tenant eventLeadCreated
          payload).raised with
      | none => exact ⟨rfl, by
          simp [deliveriesOf_delivery, handleLeadCreated_deliveries]⟩
      | some exc => rw [hd] at h; simp at h
  · exact hsingle registry_listingPublished h
  · exact hsingle registry_dealClosed h

/-! ### Every event, in every run -/

/-- What the outbox engine promises for the handlers `reg`. -/
structure OutboxContract {E W C : Type} (reg : Registry E W C) : Prop where
  /-- Status, attempts and database effects of every event agree with its history. -/
  accounted : ∀ s, (relay reg).Reachable s → ∀ e ev, s.outbox.rows e = some ev →
    Accounted reg ev (valuesOf e s.log) (valuesOf e s.effects)
  /-- Only pending rows ever change. -/
  advances : ∀ s l s', (relay reg).Reachable s → Relay.step reg s l = some s' →
    ∀ e ev, s.outbox.rows e = some ev → ∃ ev', s'.outbox.rows e = some ev' ∧ Advances ev ev'
  /-- An event that raises might as well not be in the batch. -/
  skips_raised : ∀ tenant now envs pre ev post,
    (attemptRun reg tenant (envs ev.id) (drainOutbox reg tenant now envs pre).session.seen
      ev.eventType ev.payload).raised ≠ none →
    ∃ row rows, (drainOutbox reg tenant now envs (pre ++ ev :: post)).rows =
        (drainOutbox reg tenant now envs pre).rows ++ row :: rows ∧
      (drainOutbox reg tenant now envs (pre ++ post)).rows =
        (drainOutbox reg tenant now envs pre).rows ++ rows
  /-- Handlers that do not read each other's rows settle each event on its own. -/
  apart : ∀ tenant now envs batch, (∀ ev ∈ batch, ReadsApart reg ev.eventType) →
    (drainOutbox reg tenant now envs batch).rows =
      batch.map fun ev => (deliverEvent reg tenant now (envs ev.id) {} ev).1

/-- The webhook deliveries of a delivered event: one row for each endpoint that the
delivering attempt found active, not tripped and subscribed. -/
def FannedOut (s : State World Write Callback) (e : Uuid) (ev : OutboxEvent) : Prop :=
  ∃ last i, (∃ earlier, valuesOf e s.log = earlier ++ [last]) ∧ last.run.raised = none ∧
    (deliveriesOf (valuesOf e s.effects)).map (·.endpointId) =
      (Webhooks.endpointsForEvent (last.envs i).webhooks ev.tenantId ev.eventType).map
        (·.id) ∧
    ((deliveriesOf (valuesOf e s.effects)).map (·.endpointId)).Nodup ∧
    ∀ d ∈ deliveriesOf (valuesOf e s.effects), d.tenantId = ev.tenantId ∧
      d.eventType = ev.eventType ∧ d.payload = ev.payload ∧ d.status = .pending

/-- A delivered event has been fanned out. -/
theorem fannedOut {s : State World Write Callback} (h : (relay registry).Reachable s)
    {e : Uuid} {ev : OutboxEvent} (hev : s.outbox.rows e = some ev)
    (hst : ev.status = .delivered)
    (hty : ev.eventType ∈ [eventLeadCreated, eventListingPublished, eventDealClosed]) :
    FannedOut s e ev := by
  have hacc := accounted h hev
  obtain ⟨earlier, last, htries, -, hlast, heffects⟩ := hacc.delivered hst
  obtain ⟨hten, seen, hrun⟩ := hacc.genuine last (htries ▸ by simp)
  obtain ⟨i, hnone, hdeliv⟩ := attemptRun_deliveries hty (hrun ▸ hlast)
  obtain ⟨hids, hfields⟩ := Webhooks.dispatchEvent_endpoints _ _ _ _ hnone
  rw [← hdeliv, ← hrun, ← heffects, hten] at hids
  refine ⟨last, i, ⟨earlier, htries⟩, hlast, hids, ?_, fun d hd => ?_⟩
  · rw [hids]
    exact Webhooks.endpointsForEvent_nodup ..
  · rw [heffects, hrun, hdeliv] at hd
    rw [← hten]
    exact hfields d hd

/-- **The outbox engine.** For any handlers, in every run: an event moves from pending to
delivered or failed and then stays; its attempts are counted and bounded; the rows of a
delivered event are those of its one successful attempt, and no other event leaves any;
events do not disturb each other. For the application's own handlers the events of a batch
are settled independently, and a delivered event has one delivery row per endpoint. -/
theorem outbox_engine :
    (∀ {E W C : Type} (reg : Registry E W C), OutboxContract reg) ∧
      (∀ eventType, ReadsApart registry eventType) ∧
      ∀ (s : State World Write Callback), (relay registry).Reachable s →
        ∀ e ev, s.outbox.rows e = some ev → ev.status = .delivered →
          ev.eventType ∈ [eventLeadCreated, eventListingPublished, eventDealClosed] →
          FannedOut s e ev := by
  refine ⟨fun reg => ?_, registry_readsApart, fun s h e ev => fannedOut h⟩
  refine ⟨fun s h e ev => accounted h, fun s l s' h hst e ev => advances h hst,
    fun tenant now envs pre ev post => ?_, fun tenant now envs batch => ?_⟩
  · exact drainOutbox_skip_raised reg tenant now envs pre post ev
  · exact drainOutbox_rows_apart reg tenant now envs batch

/-! ### Runs of the registered handlers -/

/-- An active agency with one active agent and one endpoint for new leads. `failures` are
the errors of the webhook handler's flushes. -/
def sampleWorld (parseUuid : String → Option Uuid) (failures : Nat → Option String) :
    World where
  users := [{ id := 7, tenantId := some 1, email := "agent@agency.dz", passwordHash := "",
              role := .agent }]
  preferences := []
  inQuiet _ := false
  notificationId := 40
  notifyError := none
  parseUuid := parseUuid
  str
    | .str s => s
    | _ => ""
  webhooks := {
    endpoints := [{ id := 3, tenantId := 1, url := "https://hooks.agency.dz",
                    events := [eventLeadCreated] }]
    endpoints_nodup := by decide
    deliveryId := fun i => 50 + i
    flushError := failures }

/-- An active agency. -/
def sampleTenant : Tenants.Tenant :=
  { id := 1, name := "Agency", slug := "agency", status := .active }

/-- One lead, delivered at the second of two ticks; `first` is what the handlers of the
first tick read. -/
def retriedRun (first : World) : List (Label World) :=
  [.emit sampleTenant.toContext eventLeadCreated
      [("leadId", .str "lead"), ("agentId", .str "agent")] 5 0,
    .claim 0 sampleTenant 1, .deliver 0 fun _ => first, .commit 0 10,
    .claim 0 sampleTenant 100,
    .deliver 0 fun _ => sampleWorld (fun _ => some 7) fun _ => none,
    .commit 0 10]

/-- After the second tick the one endpoint for new leads has its delivery. -/
theorem outbox_engine_retried : ∃ (s : State World Write Callback) (ev : OutboxEvent),
    s.outbox.rows 5 = some ev ∧ ev.status = .delivered ∧ FannedOut s 5 ev ∧
      (deliveriesOf (valuesOf 5 s.effects)).map (·.endpointId) = [3] := by
  obtain ⟨s, hs, hp⟩ := Systems.Machine.exists_reachable_of_run (M := relay registry)
    (retriedRun (sampleWorld (fun _ => some 7) fun _ => some "violates foreign key"))
    (fun s => ((s.outbox.rows 5).any fun ev =>
        ev.status = .delivered && ev.eventType = eventLeadCreated) &&
      (deliveriesOf (valuesOf 5 s.effects)).map (·.endpointId) == [3]) rfl (by decide)
  obtain ⟨hrow, hids⟩ := Bool.and_eq_true_iff.1 hp
  obtain ⟨ev, hev, h⟩ := (Option.any_eq_true _ _).1 hrow
  obtain ⟨hstatus, htype⟩ := Bool.and_eq_true_iff.1 h
  have hstatus : ev.status = .delivered := of_decide_eq_true hstatus
  have htype : ev.eventType = eventLeadCreated := of_decide_eq_true htype
  exact ⟨s, ev, hev, hstatus,
    outbox_engine.2.2 s hs 5 ev hev hstatus (htype ▸ List.mem_cons_self), beq_iff_eq.1 hids⟩

/-- Whether a callback is an enqueued notification send. -/
def Callback.isSend : Callback → Bool
  | .deliverNotification _ => true
  | .deliverWebhook _ => false

/-- Some callback that ran was not registered by an attempt that succeeded. -/
def ranUnregistered (s : State World Write Callback) : Bool :=
  s.ran.any fun c => s.log.all fun a =>
    !(a.event = c.event ∧ a.attempt = c.attempt ∧ a.value.run.raised.isNone)

/-- **A rolled-back attempt sends.** The lead handler queues its e-mail, the webhook
handler's flush then raises, the savepoint is rolled back, and the tick commits: the
queued send runs. The retry queues and runs it again. -/
theorem rolled_back_attempt_sends :
    ∃ s, (relay registry).Reachable s ∧ ¬CallbacksOfDelivered s ∧
      ((valuesOf 5 s.ran).filter Callback.isSend).length = 2 := by
  obtain ⟨s, hs, hp⟩ := Systems.Machine.exists_reachable_of_run (M := relay registry)
    (retriedRun (sampleWorld (fun _ => some 7) fun _ => some "violates foreign key"))
    (fun s => ranUnregistered s && ((valuesOf 5 s.ran).filter Callback.isSend).length == 2)
    rfl (by decide)
  rw [Bool.and_eq_true, beq_iff_eq] at hp
  refine ⟨s, hs, fun hc => ?_, hp.2⟩
  obtain ⟨c, hc', hno⟩ := List.any_eq_true.mp hp.1
  obtain ⟨a, ha, hev, hatt, hraised, -⟩ := hc.1 c hc'
  have := List.all_eq_true.mp hno a ha
  simp [hev, hatt, hraised] at this

/-- A lead whose first attempt raises before it queues anything. -/
theorem quiet_retry_sends_once :
    ∃ s, (relay registry).ReachVia (DeliversQuietly registry) s ∧
      ((valuesOf 5 s.ran).filter Callback.isSend).length = 1 ∧ CallbacksOfDelivered s := by
  obtain ⟨s, hs, hp⟩ := Systems.Machine.exists_reachVia_of_run (M := relay registry)
    (G := DeliversQuietly registry) (retriedRun (sampleWorld (fun _ => none) fun _ => none))
    (fun s => ((valuesOf 5 s.ran).filter Callback.isSend).length == 1) rfl (by decide)
  exact ⟨s, hs, beq_iff_eq.mp hp, callbacks_of_delivered hs⟩

end Workers

end RealEstate
