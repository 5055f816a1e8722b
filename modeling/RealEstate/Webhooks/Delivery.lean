import RealEstate.Systems.Breaker
import RealEstate.Systems.History
import RealEstate.Webhooks.Dispatch

/-!
# Delivering webhooks (`modules/webhooks/service.py`, `workers/tasks/webhooks.py`)

`deliver` and the endpoint routes as transactions over `webhook_endpoints` and
`webhook_deliveries`, with the retries of the delivery task.

- `recordSuccess`, `recordFailure`: what an answer does to the two rows, and what the task
  is told to do next.
- `step`: a delivery takes its own row and then its endpoint's with `FOR UPDATE`, keeps both
  through the POST and commits. Updates of an endpoint lock it; a deletion reads it without
  a lock, and cascades to the deliveries.
- `log`: the attempts of the deliveries that committed, and the re-activations.
- `ended`: the deliveries whose last execution has returned, or has no retry left.
-/

namespace RealEstate

namespace Webhooks

open RealEstate.Core Systems

/-- `CIRCUIT_BREAKER_THRESHOLD`. -/
def circuitBreakerThreshold : Nat := 5

/-- `MAX_DELIVERY_RETRIES`. -/
def maxDeliveryRetries : Nat := 6

/-- The columns of `webhook_endpoints` the fan-out does not read. -/
structure EndpointRow extends WebhookEndpoint where
  secret : String
  description : Option String := none
  lastError : Option String := none
  lastDeliveredAt : Option DateTime := none

/-- The columns of `webhook_deliveries` the fan-out does not write. -/
structure DeliveryRow extends WebhookDelivery where
  responseStatus : Option Nat := none
  lastError : Option String := none
  deliveredAt : Option DateTime := none

/-- How an attempt ended. -/
structure DeliveryOutcome where
  status : String
  retry : Bool := false
  detail : String := ""

/-- What `_post` comes to. -/
inductive Answer where
  | status (code : Nat)
  | ssrfError (message : String)
  | transportError (message : String)

/-- A patch of an endpoint: an absent field, or a null that changes nothing, is `none`. -/
structure WebhookEndpointUpdate where
  url : Option String := none
  events : Option (List String) := none
  description : Option (Option String) := none
  isActive : Option Bool := none

/-- The breaker's columns. -/
def EndpointRow.breaker (endpoint : EndpointRow) : Breaker where
  failures := endpoint.consecutiveFailures
  isOpen := endpoint.circuitOpen

/-- `_record_success`. -/
def recordSuccess (delivery : DeliveryRow) (endpoint : EndpointRow) (code : Nat)
    (now : DateTime) : DeliveryRow × EndpointRow × DeliveryOutcome :=
  ({ delivery with
      status := .delivered
      responseStatus := some code
      deliveredAt := some now
      lastError := none },
    { endpoint with
      consecutiveFailures := 0
      circuitOpen := false
      lastError := none
      lastDeliveredAt := some now },
    { status := "delivered", detail := s!"HTTP {code}" })

/-- `detail[:2000]`. -/
def clip (detail : String) : String := String.ofList (detail.toList.take 2000)

/-- `_record_failure`. -/
def recordFailure (delivery : DeliveryRow) (endpoint : EndpointRow) (detail : String)
    (permanent : Bool) (responseStatus : Option Nat) :
    DeliveryRow × EndpointRow × DeliveryOutcome :=
  let failures := endpoint.consecutiveFailures + 1
  let tripped := decide (circuitBreakerThreshold ≤ failures)
  ({ delivery with
      responseStatus
      lastError := some (clip detail)
      -- a transient failure leaves the row as it is, for the retry
      status := if tripped || permanent then .failed else delivery.status },
    { endpoint with
      consecutiveFailures := failures
      circuitOpen := tripped || endpoint.circuitOpen
      lastError := some (clip detail) },
    if tripped then { status := "paused", detail }
    else { status := "failed", retry := !permanent, detail })

/-- The receiver rejects the payload. -/
def permanentStatus (code : Nat) : Bool :=
  400 ≤ code && code < 500 && code ≠ 408 && code ≠ 429

/-- The end of `deliver`. -/
def Answer.record (delivery : DeliveryRow) (endpoint : EndpointRow) (now : DateTime) :
    Answer → DeliveryRow × EndpointRow × DeliveryOutcome
  | .ssrfError message => recordFailure delivery endpoint message true none
  | .transportError message =>
    recordFailure delivery endpoint s!"transport error: {message}" false none
  | .status code =>
    if 200 ≤ code ∧ code < 300 then recordSuccess delivery endpoint code now
    else
      recordFailure delivery endpoint s!"HTTP {code}" (permanentStatus code) (some code)

/-- The attempt an answer is. -/
def Answer.attempt : Answer → Attempt
  | .status code => if 200 ≤ code ∧ code < 300 then .success else .failure
  | .ssrfError _ | .transportError _ => .failure

/-- A failure that another attempt might mend. -/
def Answer.transient : Answer → Bool
  | .status code => !(200 ≤ code ∧ code < 300) && !permanentStatus code
  | .ssrfError _ => false
  | .transportError _ => true

/-- `update_endpoint`. -/
def WebhookEndpointUpdate.apply (data : WebhookEndpointUpdate) (endpoint : EndpointRow) :
    EndpointRow :=
  let reactivated := data.isActive = some true
  { endpoint with
    url := data.url.getD endpoint.url
    events := data.events.getD endpoint.events
    description := data.description.getD endpoint.description
    isActive := data.isActive.getD endpoint.isActive
    -- turning it on clears the breaker; turning it off leaves the count
    circuitOpen := if reactivated then false else endpoint.circuitOpen
    consecutiveFailures := if reactivated then 0 else endpoint.consecutiveFailures }

namespace Delivery

/-! ### Transactions -/

/-- `deliver_webhook`, and how often it has been retried. -/
structure Task extends DeliverTask where
  retries : Nat := 0

/-- Where a delivery stands. -/
inductive Phase where
  | starting
  | taken (endpointId : Uuid)
  | posting (endpointId : Uuid)
  | done (outcome : DeliveryOutcome)

/-- A transaction at work. -/
inductive Txn where
  | deliver (task : Task) (phase : Phase)
  | update
  | delete (endpointId : Uuid)

/-- A request that was sent, and what the committed row of its endpoint said then. -/
structure Post where
  deliveryId : Uuid
  endpointId : Uuid
  url : String
  eventType : String
  payload : JsonObject
  isActive : Bool
  circuitOpen : Bool

/-- The two tables, the queue, the transactions, and what was sent. -/
structure State where
  endpoints : Table Uuid EndpointRow Nat
  deliveries : Table Uuid DeliveryRow Nat
  queue : List Task
  txns : Nat → Option Txn
  log : List (Uuid × Attempt)
  /-- What the transactions in flight have added to the log. -/
  pending : Nat → List (Uuid × Attempt)
  posts : List Post
  ended : List Uuid

/-- A step of a request or of a worker. -/
inductive Label where
  | createEndpoint (endpoint : EndpointRow)
  /-- The fan-out commits a delivery and queues its task. -/
  | dispatch (id endpointId : Uuid) (eventType : String) (payload : JsonObject)
  | update (t : Nat) (tenantId endpointId : Uuid) (data : WebhookEndpointUpdate)
  | delete (t : Nat) (tenantId endpointId : Uuid)
  | cascade (t : Nat) (id : Uuid)
  | take (t i : Nat)
  | lockDelivery (t : Nat)
  | lockEndpoint (t : Nat)
  | answer (t : Nat) (answer : Answer) (now : DateTime)
  | commit (t : Nat)
  | rollback (t : Nat)

/-- Transaction `t` goes on. -/
def State.goes (s : State) (t : Nat) (txn : Txn) : State :=
  { s with txns := Function.update s.txns t (some txn) }

/-- Transaction `t` ends. -/
def State.ends (s : State) (t : Nat) (endpoints : Table Uuid EndpointRow Nat)
    (deliveries : Table Uuid DeliveryRow Nat) (log : List (Uuid × Attempt)) : State :=
  { s with
    endpoints, deliveries, log
    txns := Function.update s.txns t none
    pending := Function.update s.pending t [] }

/-- Write, or delete, an endpoint, with its attempts. -/
def State.writeEndpoint (s : State) (t : Nat) (id : Uuid) (row : Option EndpointRow)
    (attempts : List Attempt) : Option State :=
  (s.endpoints.write t id row).map fun endpoints =>
    { s with
      endpoints
      pending := Function.update s.pending t (s.pending t ++ attempts.map (id, ·)) }

/-- Write, or delete, a delivery. -/
def State.writeDelivery (s : State) (t : Nat) (id : Uuid) (row : Option DeliveryRow) :
    Option State :=
  (s.deliveries.write t id row).map fun deliveries => { s with deliveries }

/-- The first part of `deliver`: its own row. -/
def State.lockDelivery (s : State) (t : Nat) (task : Task) : Option State :=
  match (s.deliveries.visible t task.deliveryId).filter (·.tenantId = task.tenantId) with
  | none =>
    some (s.goes t (.deliver task (.done { status := "skipped", detail := "delivery gone" })))
  | some delivery =>
    (s.deliveries.acquire t task.deliveryId).map fun deliveries =>
      let s' : State := { s with deliveries }
      if delivery.status = .delivered then
        s'.goes t
          (.deliver task (.done { status := "delivered", detail := "already delivered" }))
      else s'.goes t (.deliver task (.taken delivery.endpointId))

/-- A delivery that is not attempted. -/
def State.park (s : State) (t : Nat) (task : Task) (delivery : DeliveryRow) (error : String)
    (outcome : DeliveryOutcome) : Option State :=
  (s.writeDelivery t task.deliveryId
    (some { delivery with status := .failed, lastError := some error })).map fun s' =>
      s'.goes t (.deliver task (.done outcome))

/-- The endpoint's row, and the request if it is sent. -/
def State.lockEndpoint (s : State) (t : Nat) (task : Task) (endpointId : Uuid)
    (delivery : DeliveryRow) : Option State :=
  match (s.endpoints.visible t endpointId).filter (·.tenantId = task.tenantId) with
  | none =>
    s.park t task delivery "endpoint deleted" { status := "failed", detail := "endpoint gone" }
  | some endpoint =>
    (s.endpoints.acquire t endpointId).bind fun endpoints =>
      let s' : State := { s with endpoints }
      -- `is_active` is not looked at again
      if endpoint.circuitOpen then
        s'.park t task delivery "circuit open" { status := "paused", detail := "circuit open" }
      else
        let row := s.endpoints.rows endpointId
        let post : Post :=
          { deliveryId := task.deliveryId, endpointId, url := endpoint.url
            eventType := delivery.eventType, payload := delivery.payload
            isActive := row.any (·.isActive), circuitOpen := row.any (·.circuitOpen) }
        some (State.goes { s' with posts := s.posts ++ [post] } t
          (.deliver task (.posting endpointId)))

/-- What the answer leaves in the two rows. -/
def State.answer (s : State) (t : Nat) (task : Task) (endpointId : Uuid) (answer : Answer)
    (now : DateTime) (delivery : DeliveryRow) (endpoint : EndpointRow) : Option State :=
  let recorded :=
    answer.record { delivery with attempts := delivery.attempts + 1 } endpoint now
  (s.writeDelivery t task.deliveryId (some recorded.1)).bind fun s' =>
    (s'.writeEndpoint t endpointId (some recorded.2.1) [answer.attempt]).map fun s' =>
      s'.goes t (.deliver task (.done recorded.2.2))

/-- The end of an execution: a retry, or the end of the chain. -/
def State.execute (s : State) (task : Task) (outcome : DeliveryOutcome) : State :=
  if outcome.retry ∧ task.retries < maxDeliveryRetries then
    { s with queue := s.queue ++ [{ task with retries := task.retries + 1 }] }
  else
    -- `self.retry` raises when no retry is left, and the chain is over as after a return
    { s with ended := s.ended ++ [task.deliveryId] }

/-- Transaction `t` commits. -/
def State.commit (s : State) (t : Nat) : State :=
  s.ends t (s.endpoints.commit t) (s.deliveries.commit t) (s.log ++ s.pending t)

/-- One statement of a transaction, or its end. -/
def step (s : State) : Label → Option State
  | .createEndpoint endpoint =>
    (s.endpoints.publish endpoint.id
      { endpoint with isActive := true, consecutiveFailures := 0, circuitOpen := false }).map
        fun endpoints => { s with endpoints }
  | .dispatch id endpointId eventType payload =>
    -- the foreign key waits for whoever has locked the endpoint
    if s.endpoints.lock endpointId ≠ none then none
    else
      (s.endpoints.rows endpointId).bind fun endpoint =>
        (s.deliveries.publish id
          { id, tenantId := endpoint.tenantId, endpointId, eventType, payload }).map
            fun deliveries =>
              { s with
                deliveries
                queue := s.queue ++ [{ tenantId := endpoint.tenantId, deliveryId := id }] }
  | .update t tenantId endpointId data =>
    if (s.txns t).isSome then none
    else
      ((s.endpoints.visible t endpointId).filter (·.tenantId = tenantId)).bind fun endpoint =>
        (s.writeEndpoint t endpointId (some (data.apply endpoint))
          (if data.isActive = some true then [.reset] else [])).map fun s' => s'.goes t .update
  | .delete t tenantId endpointId =>
    if (s.txns t).isSome then none
    else
      -- the row is read without a lock; the `DELETE` waits for one
      ((s.endpoints.visible t endpointId).filter (·.tenantId = tenantId)).bind fun _ =>
        (s.writeEndpoint t endpointId none []).map fun s' => s'.goes t (.delete endpointId)
  | .cascade t id =>
    match s.txns t with
    | some (.delete endpointId) =>
      ((s.deliveries.visible t id).filter (·.endpointId = endpointId)).bind fun _ =>
        s.writeDelivery t id none
    | _ => none
  | .take t i =>
    if (s.txns t).isSome then none
    else
      s.queue[i]?.map fun task =>
        State.goes { s with queue := s.queue.eraseIdx i } t (.deliver task .starting)
  | .lockDelivery t =>
    match s.txns t with
    | some (.deliver task .starting) => s.lockDelivery t task
    | _ => none
  | .lockEndpoint t =>
    match s.txns t with
    | some (.deliver task (.taken endpointId)) =>
      (s.deliveries.visible t task.deliveryId).bind (s.lockEndpoint t task endpointId)
    | _ => none
  | .answer t answer now =>
    match s.txns t with
    | some (.deliver task (.posting endpointId)) =>
      (s.deliveries.visible t task.deliveryId).bind fun delivery =>
        (s.endpoints.visible t endpointId).bind
          (s.answer t task endpointId answer now delivery)
    | _ => none
  | .commit t =>
    match s.txns t with
    | some (.deliver task (.done outcome)) => some ((s.commit t).execute task outcome)
    | some .update => some (s.commit t)
    | some (.delete endpointId) =>
      -- the cascade is over
      if s.deliveries.scan t (·.endpointId = endpointId) = [] then some (s.commit t) else none
    | _ => none
  | .rollback t =>
    match s.txns t with
    | some _ => some (s.ends t (s.endpoints.rollback t) (s.deliveries.rollback t) s.log)
    | none => none

/-- From empty tables. -/
def machine : Machine State Label where
  init s := s = ⟨.empty, .empty, [], fun _ => none, [], fun _ => [], [], []⟩
  step := step

/-- What a step comes to, and where its transaction stood. -/
inductive Stepped (s : State) : Label → State → Prop where
  | createEndpoint {endpoint : EndpointRow} {endpoints : Table Uuid EndpointRow Nat} :
    s.endpoints.publish endpoint.id
      { endpoint with isActive := true, consecutiveFailures := 0, circuitOpen := false } =
        some endpoints →
    Stepped s (.createEndpoint endpoint) { s with endpoints }
  | dispatch {id endpointId : Uuid} {eventType : String} {payload : JsonObject}
      {endpoint : EndpointRow} {deliveries : Table Uuid DeliveryRow Nat} :
    s.endpoints.lock endpointId = none → s.endpoints.rows endpointId = some endpoint →
    s.deliveries.publish id
      { id, tenantId := endpoint.tenantId, endpointId, eventType, payload } = some deliveries →
    Stepped s (.dispatch id endpointId eventType payload)
      { s with
        deliveries
        queue := s.queue ++ [{ tenantId := endpoint.tenantId, deliveryId := id }] }
  | update {t : Nat} {tenantId endpointId : Uuid} {data : WebhookEndpointUpdate}
      {endpoint : EndpointRow} {s' : State} :
    s.txns t = none → s.endpoints.visible t endpointId = some endpoint →
    endpoint.tenantId = tenantId →
    s.writeEndpoint t endpointId (some (data.apply endpoint))
      (if data.isActive = some true then [.reset] else []) = some s' →
    Stepped s (.update t tenantId endpointId data) (s'.goes t .update)
  | delete {t : Nat} {tenantId endpointId : Uuid} {endpoint : EndpointRow} {s' : State} :
    s.txns t = none → s.endpoints.visible t endpointId = some endpoint →
    endpoint.tenantId = tenantId → s.writeEndpoint t endpointId none [] = some s' →
    Stepped s (.delete t tenantId endpointId) (s'.goes t (.delete endpointId))
  | cascade {t : Nat} {id endpointId : Uuid} {delivery : DeliveryRow} {s' : State} :
    s.txns t = some (.delete endpointId) → s.deliveries.visible t id = some delivery →
    delivery.endpointId = endpointId → s.writeDelivery t id none = some s' →
    Stepped s (.cascade t id) s'
  | take {t i : Nat} {task : Task} : s.txns t = none → s.queue[i]? = some task →
    Stepped s (.take t i)
      (State.goes { s with queue := s.queue.eraseIdx i } t (.deliver task .starting))
  | lockDelivery {t : Nat} {task : Task} {s' : State} :
    s.txns t = some (.deliver task .starting) → s.lockDelivery t task = some s' →
    Stepped s (.lockDelivery t) s'
  | lockEndpoint {t : Nat} {task : Task} {endpointId : Uuid} {delivery : DeliveryRow}
      {s' : State} :
    s.txns t = some (.deliver task (.taken endpointId)) →
    s.deliveries.visible t task.deliveryId = some delivery →
    s.lockEndpoint t task endpointId delivery = some s' → Stepped s (.lockEndpoint t) s'
  | answer {t : Nat} {answer : Answer} {now : DateTime} {task : Task} {endpointId : Uuid}
      {delivery : DeliveryRow} {endpoint : EndpointRow} {s' : State} :
    s.txns t = some (.deliver task (.posting endpointId)) →
    s.deliveries.visible t task.deliveryId = some delivery →
    s.endpoints.visible t endpointId = some endpoint →
    s.answer t task endpointId answer now delivery endpoint = some s' →
    Stepped s (.answer t answer now) s'
  | execute {t : Nat} {task : Task} {outcome : DeliveryOutcome} :
    s.txns t = some (.deliver task (.done outcome)) →
    Stepped s (.commit t) ((s.commit t).execute task outcome)
  | commit {t : Nat} : Stepped s (.commit t) (s.commit t)
  | rollback {t : Nat} : Stepped s (.rollback t)
      (s.ends t (s.endpoints.rollback t) (s.deliveries.rollback t) s.log)

/-- What each step does. -/
theorem stepped_of_step {s s' : State} {l : Label} (h : step s l = some s') : Stepped s l s' := by
  cases l with
  | createEndpoint endpoint =>
    obtain ⟨endpoints, hpublish, rfl⟩ := Option.map_eq_some_iff.1 h
    exact .createEndpoint hpublish
  | dispatch id endpointId eventType payload =>
    obtain ⟨hlock, h⟩ := Option.ite_none_left_eq_some.1 h
    obtain ⟨endpoint, hrow, h⟩ := Option.bind_eq_some_iff.1 h
    obtain ⟨deliveries, hpublish, rfl⟩ := Option.map_eq_some_iff.1 h
    exact .dispatch (not_not.1 hlock) hrow hpublish
  | update t tenantId endpointId data =>
    obtain ⟨ht, h⟩ := Option.ite_none_left_eq_some.1 h
    obtain ⟨endpoint, hendpoint, h⟩ := Option.bind_eq_some_iff.1 h
    obtain ⟨hvisible, htenant⟩ := Option.filter_eq_some_iff.1 hendpoint
    obtain ⟨s₁, hwrite, rfl⟩ := Option.map_eq_some_iff.1 h
    exact .update (Option.not_isSome_iff_eq_none.1 ht) hvisible (of_decide_eq_true htenant) hwrite
  | delete t tenantId endpointId =>
    obtain ⟨ht, h⟩ := Option.ite_none_left_eq_some.1 h
    obtain ⟨endpoint, hendpoint, h⟩ := Option.bind_eq_some_iff.1 h
    obtain ⟨hvisible, htenant⟩ := Option.filter_eq_some_iff.1 hendpoint
    obtain ⟨s₁, hwrite, rfl⟩ := Option.map_eq_some_iff.1 h
    exact .delete (Option.not_isSome_iff_eq_none.1 ht) hvisible (of_decide_eq_true htenant) hwrite
  | cascade t id =>
    dsimp only [step] at h
    split at h
    · next ht =>
      obtain ⟨delivery, hdelivery, hwrite⟩ := Option.bind_eq_some_iff.1 h
      obtain ⟨hvisible, hendpoint⟩ := Option.filter_eq_some_iff.1 hdelivery
      exact .cascade ht hvisible (of_decide_eq_true hendpoint) hwrite
    · cases h
  | take t i =>
    obtain ⟨ht, h⟩ := Option.ite_none_left_eq_some.1 h
    obtain ⟨task, htask, rfl⟩ := Option.map_eq_some_iff.1 h
    exact .take (Option.not_isSome_iff_eq_none.1 ht) htask
  | lockDelivery t =>
    dsimp only [step] at h
    split at h
    · next ht => exact .lockDelivery ht h
    · cases h
  | lockEndpoint t =>
    dsimp only [step] at h
    split at h
    · next ht =>
      obtain ⟨delivery, hvisible, h⟩ := Option.bind_eq_some_iff.1 h
      exact .lockEndpoint ht hvisible h
    · cases h
  | answer t answer now =>
    dsimp only [step] at h
    split at h
    · next ht =>
      obtain ⟨delivery, hdelivery, h⟩ := Option.bind_eq_some_iff.1 h
      obtain ⟨endpoint, hendpoint, h⟩ := Option.bind_eq_some_iff.1 h
      exact .answer ht hdelivery hendpoint h
    · cases h
  | commit t =>
    dsimp only [step] at h
    split at h
    · next ht =>
      cases h
      exact .execute ht
    · cases h
      exact .commit
    · -- A delete commits when no delivery of the endpoint is left.
      obtain ⟨-, h⟩ := Option.ite_none_right_eq_some.1 h
      cases h
      exact .commit
    · cases h
  | rollback t =>
    dsimp only [step] at h
    split at h
    · cases h
      exact .rollback
    · cases h

end Delivery

end Webhooks

end RealEstate
