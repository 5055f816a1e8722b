import RealEstate.Core.Events

/-!
# Fanning an event out to webhook endpoints (`modules/webhooks/service.py`)

`dispatchEvent` is the body of the outbox handler for the webhook-carrying
events: one `pending` delivery row per subscribed endpoint, each flushed, each
followed by the registration of its delivery task. A flush can fail (the
endpoint was deleted meanwhile, the connection is gone), and then the handler
raises with the callbacks of the earlier endpoints already registered.
-/

namespace RealEstate

namespace Webhooks

open RealEstate.Core Events

/-- One row of `webhook_endpoints`, as the fan-out and the circuit breaker read it. -/
structure WebhookEndpoint where
  id : Uuid
  tenantId : Uuid
  url : String
  events : List String
  isActive : Bool := true
  consecutiveFailures : Nat := 0
  circuitOpen : Bool := false

/-- `DeliveryStatus`. -/
inductive DeliveryStatus where
  | pending
  | delivered
  | failed
  deriving DecidableEq, Repr

/-- One row of `webhook_deliveries`. -/
structure WebhookDelivery where
  id : Uuid
  tenantId : Uuid
  endpointId : Uuid
  eventType : String
  payload : JsonObject
  status : DeliveryStatus := .pending
  attempts : Nat := 0

/-- The `deliver_webhook` task `_enqueue_delivery` enqueues after the commit. -/
structure DeliverTask where
  tenantId : Uuid
  deliveryId : Uuid

/-- What the fan-out reads: the endpoint table (keyed by id), the ids the database hands
out, and which of its flushes fail. -/
structure Db where
  endpoints : List WebhookEndpoint
  endpoints_nodup : (endpoints.map (·.id)).Nodup
  deliveryId : Nat → Uuid
  flushError : Nat → Option String

/-- `endpoints_for_event`: active, non-tripped endpoints subscribed to the event. -/
def endpointsForEvent (db : Db) (tenantId : Uuid) (eventType : String) :
    List WebhookEndpoint :=
  db.endpoints.filter fun ep =>
    ep.tenantId = tenantId ∧ ep.isActive ∧ ¬ep.circuitOpen ∧ eventType ∈ ep.events

/-- The loop over the endpoints; `i` counts the flushes made so far. -/
def dispatchLoop (db : Db) (tenant : TenantContext) (eventType : String)
    (payload : JsonObject) : Nat → List WebhookEndpoint → HandlerRun WebhookDelivery DeliverTask
  | _, [] => {}
  | i, endpoint :: rest =>
    match db.flushError i with
    | some exc => { raised := some exc }
    | none =>
      let next := dispatchLoop db tenant eventType payload (i + 1) rest
      { writes :=
          { id := db.deliveryId i, tenantId := tenant.id, endpointId := endpoint.id, eventType,
            payload } :: next.writes
        callbacks := ⟨tenant.id, db.deliveryId i⟩ :: next.callbacks
        raised := next.raised }

/-- `dispatch_event`. -/
def dispatchEvent (db : Db) (tenant : TenantContext) (eventType : String)
    (payload : JsonObject) : HandlerRun WebhookDelivery DeliverTask :=
  dispatchLoop db tenant eventType payload 0 (endpointsForEvent db tenant.id eventType)

/-! ### One delivery row per endpoint -/

/-- A loop that raises nothing leaves a delivery for each endpoint. -/
theorem dispatchLoop_endpoints (db : Db) (tenant : TenantContext) (eventType : String)
    (payload : JsonObject) (eps : List WebhookEndpoint) :
    ∀ i, (dispatchLoop db tenant eventType payload i eps).raised = none →
      (dispatchLoop db tenant eventType payload i eps).writes.map (·.endpointId) =
          eps.map (·.id) ∧
        ∀ d ∈ (dispatchLoop db tenant eventType payload i eps).writes,
          d.tenantId = tenant.id ∧ d.eventType = eventType ∧ d.payload = payload ∧
            d.status = .pending := by
  induction eps with
  | nil => intro i _; simp [dispatchLoop]
  | cons ep eps ih =>
    intro i hr
    cases hf : db.flushError i with
    | some exc => simp [dispatchLoop, hf] at hr
    | none =>
      have hr' : (dispatchLoop db tenant eventType payload (i + 1) eps).raised = none := by
        simpa [dispatchLoop, hf] using hr
      obtain ⟨hids, hfields⟩ := ih (i + 1) hr'
      simp only [dispatchLoop, hf]
      refine ⟨by rw [List.map_cons, List.map_cons, hids], fun d hd => ?_⟩
      rcases List.mem_cons.mp hd with rfl | hd
      · exact ⟨rfl, rfl, rfl, rfl⟩
      · exact hfields d hd

/-- A fan-out that does not raise writes exactly one delivery row for each subscribed
endpoint. -/
theorem dispatchEvent_endpoints (db : Db) (tenant : TenantContext) (eventType : String)
    (payload : JsonObject) (h : (dispatchEvent db tenant eventType payload).raised = none) :
    (dispatchEvent db tenant eventType payload).writes.map (·.endpointId) =
        (endpointsForEvent db tenant.id eventType).map (·.id) ∧
      ∀ d ∈ (dispatchEvent db tenant eventType payload).writes,
        d.tenantId = tenant.id ∧ d.eventType = eventType ∧ d.payload = payload ∧
          d.status = .pending :=
  dispatchLoop_endpoints db tenant eventType payload _ 0 h

theorem endpointsForEvent_nodup (db : Db) (tenantId : Uuid) (eventType : String) :
    ((endpointsForEvent db tenantId eventType).map (·.id)).Nodup :=
  db.endpoints_nodup.sublist ((List.filter_sublist ..).map _)

end Webhooks

end RealEstate
