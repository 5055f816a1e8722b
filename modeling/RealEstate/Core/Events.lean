import Mathlib.Algebra.Group.Int.Defs
import Mathlib.Data.List.Sort
import RealEstate.Core.Base

/-!
# The transactional outbox: events, handlers and the drain (`core/events.py`)

A domain event is a row of the `outbox` table, written in the transaction of the
change that produced it. The relay drains due rows: each event's handlers run
inside one savepoint, and the row's bookkeeping is written after the savepoint
resolves.

- `EventHandler`: an arbitrary handler. It reads an environment `E` (everything
  committed elsewhere, the clock, the network) and the rows its own session has
  flushed so far, and it writes rows `W`, registers post-commit callbacks `C`
  and may raise.
- `runHandlers`: the `for handler in handlers` loop, stopped by the first raise.
- `deliverEvent`: the body of the loop over claimed rows; `drainOutbox` the
  whole loop with its two counters.

Rows and callbacks carry the event and the attempt they come from (`Effect`);
the program does not store these tags, they are what the theorems speak about.
-/

namespace RealEstate

namespace Core

namespace Events

/-! ### The relay policy and the outbox row -/

/-- `OUTBOX_MAX_ATTEMPTS`. -/
def outboxMaxAttempts : Nat := 8
/-- `OUTBOX_BACKOFF_BASE_SECONDS`. -/
def outboxBackoffBaseSeconds : Seconds := 30
/-- `OUTBOX_BACKOFF_MAX_SECONDS`. -/
def outboxBackoffMaxSeconds : Seconds := 3600
/-- `OUTBOX_BATCH_SIZE`. -/
def outboxBatchSize : Nat := 100

/-- `OutboxStatus`; `delivered` and `failed` are meant to be terminal. -/
inductive OutboxStatus where
  | pending
  | delivered
  | failed
  deriving DecidableEq, Repr

/-- One row of `outbox`. -/
structure OutboxEvent where
  id : Uuid
  tenantId : Uuid
  eventType : String
  payload : JsonObject
  status : OutboxStatus := .pending
  attempts : Nat := 0
  nextAttemptAt : DateTime
  lastError : Option String := none
  dispatchedAt : Option DateTime := none

/-- What a producer hands to `emit_event`. -/
structure DomainEvent where
  eventType : String
  payload : JsonObject

/-- `emit_event`: the row staged on the producer's transaction; the id and the due
time `now()` are the insert's defaults. -/
def emitEvent (tenant : TenantContext) (eventType : String) (payload : JsonObject) (id : Uuid)
    (now : DateTime) : OutboxEvent :=
  { id, tenantId := tenant.id, eventType, payload, nextAttemptAt := now }

/-- `_backoff_seconds`: exponential backoff for the `attempts`-th failure, capped. -/
def backoffSeconds (attempts : Nat) : Seconds :=
  min (outboxBackoffBaseSeconds * 2 ^ (attempts - 1)) outboxBackoffMaxSeconds

/-- The relay's `WHERE` clause. -/
def OutboxEvent.due (tenantId : Uuid) (now : DateTime) (ev : OutboxEvent) : Bool :=
  ev.tenantId = tenantId ∧ ev.status = .pending ∧ ev.nextAttemptAt ≤ now

/-- The relay's `ORDER BY next_attempt_at, id`. -/
def OutboxEvent.before (a b : OutboxEvent) : Prop :=
  a.nextAttemptAt < b.nextAttemptAt ∨ (a.nextAttemptAt = b.nextAttemptAt ∧ a.id ≤ b.id)

/-- Comparisons of a time and an id. -/
instance : DecidableRel OutboxEvent.before := fun _ _ =>
  inferInstanceAs (Decidable (_ ∨ _))

/-- The first `outboxBatchSize` rows in relay order. -/
def claimOrder (rows : List OutboxEvent) : List OutboxEvent :=
  (rows.insertionSort OutboxEvent.before).take outboxBatchSize

/-- What is claimed was in the outbox. -/
theorem mem_of_mem_claimOrder {rows : List OutboxEvent} {ev : OutboxEvent}
    (h : ev ∈ claimOrder rows) : ev ∈ rows :=
  (List.mem_insertionSort _).mp (List.mem_of_mem_take h)

/-- No event is claimed twice in a batch. -/
theorem claimOrder_ids_nodup {rows : List OutboxEvent} (h : (rows.map (·.id)).Nodup) :
    ((claimOrder rows).map (·.id)).Nodup := by
  have hperm := ((List.perm_insertionSort OutboxEvent.before rows).map (·.id)).symm
  refine (hperm.nodup h).sublist ?_
  exact (List.take_sublist _ _).map _

/-! ### Handlers -/

/-- What one handler (or one run of all of an event's handlers) did: the rows it
wrote, the callbacks it passed to `on_commit`, the exception it ended with. -/
structure HandlerRun (W C : Type) where
  writes : List W := []
  callbacks : List C := []
  raised : Option String := none

/-- The same run, with its rows and callbacks seen as values of a larger kind. -/
def HandlerRun.map {W C W' C' : Type} (r : HandlerRun W C) (f : W → W') (g : C → C') :
    HandlerRun W' C' where
  writes := r.writes.map f
  callbacks := r.callbacks.map g
  raised := r.raised

/-- A registered handler; the second argument is what its session flushed before. -/
abbrev EventHandler (E W C : Type) :=
  E → List W → TenantContext → String → JsonObject → HandlerRun W C

/-- `_HANDLERS`: the handlers of each event name, in registration order. -/
abbrev Registry (E W C : Type) := String → List (EventHandler E W C)

variable {E W C : Type}

/-- `register_handler`. -/
def registerHandler (reg : Registry E W C) (eventType : String) (h : EventHandler E W C) :
    Registry E W C :=
  Function.update reg eventType (reg eventType ++ [h])

/-- `get_handlers`. -/
def getHandlers (reg : Registry E W C) (eventType : String) : List (EventHandler E W C) :=
  reg eventType

/-- `for handler in handlers: await handler(...)`. Each handler has statements of its
own, so the `i`-th one reads its own environment `envs i`. -/
def runHandlers (tenant : TenantContext) (eventType : String) (payload : JsonObject)
    (envs : Nat → E) : Nat → List W → List (EventHandler E W C) → HandlerRun W C
  | _, _, [] => {}
  | i, seen, h :: hs =>
    let r := h (envs i) seen tenant eventType payload
    match r.raised with
    | some _ => r
    | none =>
      let rest := runHandlers tenant eventType payload envs (i + 1) (seen ++ r.writes) hs
      { writes := r.writes ++ rest.writes
        callbacks := r.callbacks ++ rest.callbacks
        raised := rest.raised }

/-- One delivery attempt: the event's handlers, or the refusal of an event nothing
consumes. -/
def attemptRun (reg : Registry E W C) (tenant : TenantContext) (envs : Nat → E)
    (seen : List W) (eventType : String) (payload : JsonObject) : HandlerRun W C :=
  match getHandlers reg eventType with
  | [] => { raised := some "no handler registered" }
  | handlers => runHandlers tenant eventType payload envs 0 seen handlers

/-! ### The session of one drain -/

/-- A value tagged with the event and the attempt it belongs to. -/
structure Effect (A : Type) where
  event : Uuid
  attempt : Nat
  value : A

/-- The values an event contributed, in order. -/
def valuesOf {A : Type} (e : Uuid) (xs : List (Effect A)) : List A :=
  (xs.filter fun x => x.event = e).map (·.value)

@[simp] theorem valuesOf_nil {A : Type} (e : Uuid) : valuesOf e ([] : List (Effect A)) = [] :=
  rfl

@[simp] theorem valuesOf_append {A : Type} (e : Uuid) (xs ys : List (Effect A)) :
    valuesOf e (xs ++ ys) = valuesOf e xs ++ valuesOf e ys := by
  simp [valuesOf]

/-- The values of an event are those recorded under its id. -/
theorem valuesOf_map_self {A : Type} (e : Uuid) (n : Nat) (vs : List A) :
    valuesOf e (vs.map fun v => ⟨e, n, v⟩) = vs := by
  simp [valuesOf, List.filter_map, Function.comp_def]

theorem valuesOf_map_of_ne {A : Type} {e d : Uuid} (h : d ≠ e) (n : Nat) (vs : List A) :
    valuesOf e (vs.map fun v => ⟨d, n, v⟩) = [] := by
  simp [valuesOf, List.filter_map, Function.comp_def, h]

/-- What the drain's session holds: rows flushed inside its transaction, and
`session.info["post_commit_callbacks"]`. -/
structure Session (W C : Type) where
  writes : List (Effect W) := []
  callbacks : List (Effect C) := []

/-- The rows a handler reading through the session finds there. -/
def Session.seen (s : Session W C) : List W := s.writes.map (·.value)

/-- `async with session.begin_nested()` around the handlers of attempt `n` of event `e`.
A raise rolls the savepoint back and drops the rows; `session.info` is an ordinary
dictionary that no rollback touches. -/
def Session.nested (s : Session W C) (e : Uuid) (n : Nat) (r : HandlerRun W C) :
    Session W C where
  writes := if r.raised.isNone then s.writes ++ r.writes.map (⟨e, n, ·⟩) else s.writes
  callbacks := s.callbacks ++ r.callbacks.map (⟨e, n, ·⟩)

/-! ### One event, and the whole batch -/

/-- The row bookkeeping after the savepoint of one attempt resolved. -/
def settle (now : DateTime) (ev : OutboxEvent) (r : HandlerRun W C) : OutboxEvent :=
  let attemptNo := ev.attempts + 1
  match r.raised with
  | some exc =>
    let ev := { ev with
      attempts := attemptNo
      lastError := some (String.ofList (exc.toList.take 500)) }
    if attemptNo ≥ outboxMaxAttempts then { ev with status := .failed }
    else { ev with nextAttemptAt := now + backoffSeconds attemptNo }
  | none =>
    { ev with
      attempts := attemptNo
      status := .delivered
      dispatchedAt := some now
      lastError := none }

/-- The body of `drain_outbox`'s loop over the claimed rows. -/
def deliverEvent (reg : Registry E W C) (tenant : TenantContext) (now : DateTime)
    (envs : Nat → E) (s : Session W C) (ev : OutboxEvent) : OutboxEvent × Session W C :=
  match getHandlers reg ev.eventType with
  | [] =>
    -- Parked at once: no savepoint is opened and nothing is retried.
    ({ ev with
        attempts := ev.attempts + 1
        status := .failed
        lastError := some "no handler registered" }, s)
  | handlers =>
    let r := runHandlers tenant ev.eventType ev.payload envs 0 s.seen handlers
    (settle now ev r, s.nested ev.id (ev.attempts + 1) r)

/-- What one attempt with outcome `r` does to the row: it is counted, and it settles
the event exactly when no handler raised. -/
structure Settled (ev row : OutboxEvent) (r : HandlerRun W C) : Prop where
  id : row.id = ev.id
  tenantId : row.tenantId = ev.tenantId
  eventType : row.eventType = ev.eventType
  payload : row.payload = ev.payload
  attempts : row.attempts = ev.attempts + 1
  delivered : r.raised = none → row.status = .delivered
  raised : r.raised ≠ none →
    row.status = .failed ∨ (row.status = ev.status ∧ row.attempts < outboxMaxAttempts)

/-- What `_settle` leaves of an attempt. -/
theorem settle_settled (now : DateTime) (ev : OutboxEvent) (r : HandlerRun W C) :
    Settled ev (settle now ev r) r := by
  unfold settle
  cases hr : r.raised with
  | none => exact ⟨rfl, rfl, rfl, rfl, rfl, fun _ => rfl, fun h => absurd hr h⟩
  | some exc =>
    dsimp only
    by_cases hmax : ev.attempts + 1 ≥ outboxMaxAttempts
    · rw [if_pos hmax]
      exact ⟨rfl, rfl, rfl, rfl, rfl, fun h => absurd (hr.symm.trans h) (by simp),
        fun _ => .inl rfl⟩
    · rw [if_neg hmax]
      exact ⟨rfl, rfl, rfl, rfl, rfl, fun h => absurd (hr.symm.trans h) (by simp),
        fun _ => .inr ⟨rfl, Nat.lt_of_not_le hmax⟩⟩

/-- An event after its delivery: delivered, to be retried, or dead. -/
theorem deliverEvent_settled (reg : Registry E W C) (tenant : TenantContext)
    (now : DateTime) (envs : Nat → E) (s : Session W C) (ev : OutboxEvent) :
    Settled ev (deliverEvent reg tenant now envs s ev).1
      (attemptRun reg tenant envs s.seen ev.eventType ev.payload) := by
  unfold deliverEvent attemptRun
  cases getHandlers reg ev.eventType with
  | nil => exact ⟨rfl, rfl, rfl, rfl, rfl, (nomatch ·), fun _ => .inl rfl⟩
  | cons h hs => exact settle_settled now ev _

/-- What an attempt leaves in the session is in its savepoint. -/
theorem deliverEvent_session (reg : Registry E W C) (tenant : TenantContext)
    (now : DateTime) (envs : Nat → E) (s : Session W C) (ev : OutboxEvent) :
    (deliverEvent reg tenant now envs s ev).2 =
      s.nested ev.id (ev.attempts + 1)
        (attemptRun reg tenant envs s.seen ev.eventType ev.payload) := by
  unfold deliverEvent attemptRun
  cases getHandlers reg ev.eventType with
  | nil => simp [Session.nested]
  | cons h hs => rfl

/-- The row written back depends on the session only through what the handlers saw. -/
theorem deliverEvent_row_congr (reg : Registry E W C) (tenant : TenantContext)
    (now : DateTime) (envs : Nat → E) (s s' : Session W C) (ev : OutboxEvent)
    (h : attemptRun reg tenant envs s.seen ev.eventType ev.payload =
      attemptRun reg tenant envs s'.seen ev.eventType ev.payload) :
    (deliverEvent reg tenant now envs s ev).1 = (deliverEvent reg tenant now envs s' ev).1 := by
  unfold attemptRun at h
  unfold deliverEvent
  cases hg : getHandlers reg ev.eventType with
  | nil => rfl
  | cons k ks =>
    rw [hg] at h
    exact congrArg (settle now ev) h

/-- The loop state of `drain_outbox`: rows written back, the session, the counters. -/
structure Drain (W C : Type) where
  rows : List OutboxEvent := []
  session : Session W C := {}
  delivered : Nat := 0
  failed : Nat := 0

/-- The loop body of `drain_outbox`. -/
def Drain.next (reg : Registry E W C) (tenant : TenantContext) (now : DateTime)
    (envs : Uuid → Nat → E) (d : Drain W C) (ev : OutboxEvent) : Drain W C :=
  let r := deliverEvent reg tenant now (envs ev.id) d.session ev
  { rows := d.rows ++ [r.1]
    session := r.2
    delivered := if r.1.status = .delivered then d.delivered + 1 else d.delivered
    failed := if r.1.status = .failed then d.failed + 1 else d.failed }

/-- `drain_outbox` over the claimed batch; `envs` gives each event's handlers their
environments. -/
def drainOutbox (reg : Registry E W C) (tenant : TenantContext) (now : DateTime)
    (envs : Uuid → Nat → E) (batch : List OutboxEvent) : Drain W C :=
  batch.foldl (Drain.next reg tenant now envs) {}

/-! ### Isolation of the events of a batch -/

/-- The handlers of `eventType` read no table that outbox handlers write: whatever their
session flushed before, they behave the same. -/
def ReadsApart (reg : Registry E W C) (eventType : String) : Prop :=
  ∀ (tenant : TenantContext) (envs : Nat → E) (seen seen' : List W) (payload : JsonObject),
    attemptRun reg tenant envs seen eventType payload =
      attemptRun reg tenant envs seen' eventType payload

/-- Handlers that read no writes run the same in any session. -/
theorem runHandlers_apart {tenant : TenantContext} {eventType : String}
    {payload : JsonObject} {envs : Nat → E} (handlers : List (EventHandler E W C)) :
    (∀ h ∈ handlers, ∀ env seen seen',
      h env seen tenant eventType payload = h env seen' tenant eventType payload) →
    ∀ i seen seen', runHandlers tenant eventType payload envs i seen handlers =
      runHandlers tenant eventType payload envs i seen' handlers := by
  induction handlers with
  | nil => exact fun _ _ _ _ => rfl
  | cons h hs ih =>
    intro happart i seen seen'
    have hrest := ih (fun k hk => happart k (List.mem_cons_of_mem _ hk)) (i + 1)
    simp only [runHandlers, happart h List.mem_cons_self (envs i) seen seen',
      hrest (seen ++ _) (seen' ++ (h (envs i) seen' tenant eventType payload).writes)]

/-- Handlers that ignore what their session flushed read apart. -/
theorem readsApart_of_handlers {reg : Registry E W C} {eventType : String}
    (h : ∀ k ∈ getHandlers reg eventType, ∀ env seen seen' tenant payload,
      k env seen tenant eventType payload = k env seen' tenant eventType payload) :
    ReadsApart reg eventType := by
  intro tenant envs seen seen' payload
  unfold attemptRun
  cases hg : getHandlers reg eventType with
  | nil => rfl
  | cons k ks =>
    rw [hg] at h
    exact runHandlers_apart _ (fun k hk env seen seen' => h k hk env seen seen' _ _) 0 _ _

/-- A savepoint that is rolled back leaves no writes. -/
theorem Session.nested_seen (s : Session W C) (e : Uuid) (n : Nat) (r : HandlerRun W C) :
    (s.nested e n r).seen = s.seen ++ if r.raised.isNone then r.writes else [] := by
  unfold Session.nested
  cases hr : r.raised with
  | none => simp [Session.seen, Function.comp_def]
  | some exc => simp [Session.seen]

/-- Two drains that have flushed the same rows treat the rest of the batch alike. -/
theorem foldl_rows_congr (reg : Registry E W C) (tenant : TenantContext) (now : DateTime)
    (envs : Uuid → Nat → E) (batch : List OutboxEvent) :
    ∀ {d d' : Drain W C}, d.session.seen = d'.session.seen →
      ∃ rows, (batch.foldl (Drain.next reg tenant now envs) d).rows = d.rows ++ rows ∧
        (batch.foldl (Drain.next reg tenant now envs) d').rows = d'.rows ++ rows := by
  induction batch with
  | nil => exact fun _ => ⟨[], by simp⟩
  | cons ev batch ih =>
    intro d d' hseen
    have hrun : attemptRun reg tenant (envs ev.id) d.session.seen ev.eventType ev.payload =
        attemptRun reg tenant (envs ev.id) d'.session.seen ev.eventType ev.payload := by
      rw [hseen]
    have hrow := deliverEvent_row_congr reg tenant now (envs ev.id) _ _ ev hrun
    have hseen' : (Drain.next reg tenant now envs d ev).session.seen =
        (Drain.next reg tenant now envs d' ev).session.seen := by
      simp only [Drain.next, deliverEvent_session, Session.nested_seen, hseen]
    obtain ⟨rows, h, h'⟩ := ih hseen'
    refine ⟨(deliverEvent reg tenant now (envs ev.id) d.session ev).1 :: rows, ?_, ?_⟩
    · rw [List.foldl_cons, h]
      simp [Drain.next]
    · rw [List.foldl_cons, h']
      simp [Drain.next, hrow]

/-- **A raising event is as if it were not in the batch**: the rows of the events after
it are those of the drain that never claimed it. -/
theorem drainOutbox_skip_raised (reg : Registry E W C) (tenant : TenantContext)
    (now : DateTime) (envs : Uuid → Nat → E) (pre post : List OutboxEvent)
    (ev : OutboxEvent)
    (hraise : (attemptRun reg tenant (envs ev.id)
      (drainOutbox reg tenant now envs pre).session.seen ev.eventType ev.payload).raised ≠
        none) :
    ∃ row rows, (drainOutbox reg tenant now envs (pre ++ ev :: post)).rows =
        (drainOutbox reg tenant now envs pre).rows ++ row :: rows ∧
      (drainOutbox reg tenant now envs (pre ++ post)).rows =
        (drainOutbox reg tenant now envs pre).rows ++ rows := by
  have hseen : (Drain.next reg tenant now envs (drainOutbox reg tenant now envs pre)
      ev).session.seen = (drainOutbox reg tenant now envs pre).session.seen := by
    simp [Drain.next, deliverEvent_session, Session.nested_seen, hraise]
  obtain ⟨rows, h, h'⟩ := foldl_rows_congr reg tenant now envs post hseen
  refine ⟨(deliverEvent reg tenant now (envs ev.id)
    (drainOutbox reg tenant now envs pre).session ev).1, rows, ?_, ?_⟩
  · rw [drainOutbox, List.foldl_append, List.foldl_cons]
    exact h.trans (by simp [Drain.next])
  · rw [drainOutbox, List.foldl_append]
    exact h'

/-- **Handlers that read apart decide each event alone**: every row of the batch is what
delivering that event in a session of its own gives. -/
theorem drainOutbox_rows_apart (reg : Registry E W C) (tenant : TenantContext)
    (now : DateTime) (envs : Uuid → Nat → E) (batch : List OutboxEvent)
    (hapart : ∀ ev ∈ batch, ReadsApart reg ev.eventType) :
    (drainOutbox reg tenant now envs batch).rows =
      batch.map fun ev => (deliverEvent reg tenant now (envs ev.id) {} ev).1 := by
  suffices h : ∀ d : Drain W C, (batch.foldl (Drain.next reg tenant now envs) d).rows =
      d.rows ++ batch.map fun ev => (deliverEvent reg tenant now (envs ev.id) {} ev).1 from
    h {}
  induction batch with
  | nil => simp
  | cons ev batch ih =>
    intro d
    have hrow := deliverEvent_row_congr reg tenant now (envs ev.id) d.session {} ev
      (hapart ev List.mem_cons_self tenant (envs ev.id) _ _ ev.payload)
    rw [List.foldl_cons, ih (fun e he => hapart e (List.mem_cons_of_mem _ he))]
    simp [Drain.next, hrow]

end Events

end Core

end RealEstate
