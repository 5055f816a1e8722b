import RealEstate.Syndication.Service
import RealEstate.Systems.Breaker
import RealEstate.Systems.History

/-!
# Sync tasks and the circuit breaker

Sync tasks, their retries and manual re-pushes as transactions over `portal_sync_state`,
with an adapter that may fail.

- `step`: a task takes its row with `FOR UPDATE`, or inserts it; it decides, calls the
  adapter and records the answer, and asks for a retry after its commit. A re-push takes
  the row of each enabled portal in turn.
- `log`: the attempts of the tasks that committed, and the resets.
- `breaker_holds`: in every state reached, the breaker of every row is what its history
  makes of it, no adapter was called behind an open breaker, and every run that asked for a
  retry failed for a transient reason and left its breaker closed.
-/

namespace RealEstate

namespace Syndication

open RealEstate.Core Listings Systems

/-- `KNOWN_PORTALS`. -/
def knownPortals : List String := ["mock"]

/-- `MAX_SYNC_RETRIES`. -/
def maxSyncRetries : Nat := 6

/-- The key of a row of `portal_sync_state`. -/
structure Pair where
  tenantId : Uuid
  listingId : Uuid
  portalKey : String
  deriving DecidableEq

/-- `sync_listing_to_portal`, and how often it has been retried. -/
structure SyncTask where
  pair : Pair
  action : PortalAction
  retries : Nat := 0

/-- `SyncOutcome`. -/
structure SyncOutcome where
  status : String
  retry : Bool := false
  detail : String := ""

/-- `PortalResult`. -/
structure PortalResult where
  remoteId : Option RemoteId
  detail : String := ""

/-- `PortalAction`, as text. -/
def actionValue : PortalAction → String
  | .push => "push"
  | .update => "update"
  | .remove => "remove"

/-- A call of the adapter. -/
inductive AdapterCall where
  | push (payload : Json)
  | update (payload : Json) (remoteId : RemoteId)
  | remove (remoteId : RemoteId)

/-- The call `_invoke` makes. -/
def adapterCall (payload : Option Json) (action : PortalAction) (state : PortalSyncState) :
    Except PortalError AdapterCall :=
  match action, payload, state.remoteId with
  | .remove, _, some remoteId => .ok (.remove remoteId)
  -- an assertion in the source; `effectiveAction` rules it out
  | .remove, _, none => .error { message := "" }
  | _, none, none => .error { message := "listing is not published", permanent := true }
  -- no longer published: treat a push or update as a withdrawal instead
  | _, none, some remoteId => .ok (.remove remoteId)
  | .update, some payload, some remoteId => .ok (.update payload remoteId)
  | _, some payload, _ => .ok (.push payload)

/-- A portal that answers every call. -/
def Portal.serve (portal : Portal) (fresh : RemoteId) : AdapterCall → Portal × Option RemoteId
  | .push payload => (portal.push payload fresh, some fresh)
  | .update payload remoteId => (portal.update payload remoteId, some remoteId)
  | .remove remoteId => (portal.remove remoteId, some remoteId)

/-- `invoke` is the call, made to such a portal. -/
theorem invoke_eq (portal : Portal) (listing : Listing) (action : PortalAction)
    (state : PortalSyncState) (fresh : RemoteId) :
    invoke portal listing action state fresh =
      (adapterCall listing.portalPayload action state).map (portal.serve fresh) := by
  unfold invoke adapterCall
  cases action <;> cases listing.portalPayload <;> cases state.remoteId <;> rfl

/-- The circuit breaker in the row. -/
def PortalSyncState.breaker (state : PortalSyncState) : Breaker where
  failures := state.consecutiveFailures
  isOpen := state.circuitOpen

/-- What `_record_failure` returns. -/
def failureOutcome (state : PortalSyncState) (error : PortalError) : SyncOutcome :=
  if circuitBreakerThreshold ≤ state.consecutiveFailures + 1 then
    { status := "paused", detail := error.message }
  else { status := "failed", retry := !error.permanent, detail := error.message }

theorem breaker_recordFailure (state : PortalSyncState) (error : PortalError) :
    (recordFailure state error).breaker = state.breaker.fail circuitBreakerThreshold := rfl

theorem breaker_recordSuccess (state : PortalSyncState) (now : DateTime) (action : PortalAction)
    (remoteId : Option RemoteId) : (recordSuccess state now action remoteId).breaker = {} := rfl

/-- A failure is retried only if it is transient and the breaker is closed afterwards. -/
theorem retry_failureOutcome {state : PortalSyncState} {error : PortalError}
    (hclosed : state.circuitOpen = false) (h : (failureOutcome state error).retry = true) :
    error.permanent = false ∧ (recordFailure state error).circuitOpen = false := by
  unfold failureOutcome at h
  split at h
  · cases h
  · next hlow =>
    refine ⟨by simpa using h, ?_⟩
    exact Breaker.fail_closed (b := state.breaker) (Nat.not_le.1 hlow) hclosed

namespace Tasks

/-! ### Transactions -/

/-- Where a sync stands. `done` keeps the failure it recorded. -/
inductive Phase where
  | starting
  | inserting
  | ready
  | calling (effective : PortalAction)
  | done (failed : Option PortalError) (outcome : SyncOutcome)

/-- A task or a repush under way. -/
inductive Txn where
  | sync (task : SyncTask) (phase : Phase)
  | repush (tenantId listingId : Uuid) (portals todo : List String)

/-- An adapter call, and whether the committed row had its circuit open at that moment. -/
structure CallRecord where
  pair : Pair
  call : AdapterCall
  circuitOpen : Bool

/-- A sync that committed, and whether its row had its circuit open then. -/
structure RunRecord where
  task : SyncTask
  failed : Option PortalError
  outcome : SyncOutcome
  circuitOpen : Bool

/-- The sync rows, the queue and the calls of the adapters. -/
structure State where
  table : Table Pair PortalSyncState Nat
  queue : List SyncTask
  txns : Nat → Option Txn
  log : List (Pair × Attempt)
  /-- What the transactions in flight have added to the log. -/
  pending : Nat → List (Pair × Attempt)
  calls : List CallRecord
  runs : List RunRecord

/-- A step of a task or of a repush, or a task that is queued. -/
inductive Label where
  /-- A listing's transition or edit queues a sync. -/
  | enqueue (pair : Pair) (action : PortalAction)
  | take (t i : Nat)
  | select (t : Nat)
  | insert (t : Nat)
  /-- `enabled`: `build_adapter` finds the portal configured; `payload`: of a published listing. -/
  | decide (t : Nat) (enabled : Bool) (payload : Option Json)
  | answer (t : Nat) (result : Except PortalError PortalResult) (now : DateTime)
  | repush (t : Nat) (tenantId listingId : Uuid) (payload : Option Json) (portals : List String)
  | reset (t : Nat)
  | commit (t : Nat)
  | rollback (t : Nat)

/-- Transaction `t` goes on. -/
def State.goes (s : State) (t : Nat) (txn : Txn) : State :=
  { s with txns := Function.update s.txns t (some txn) }

/-- `SELECT … FOR UPDATE` of one row. -/
def State.lock (s : State) (t : Nat) (pair : Pair) : Option State :=
  (s.table.acquire t pair).map fun table => { s with table }

/-- Transaction `t` writes one row, with its attempts. -/
def State.writes (s : State) (t : Nat) (pair : Pair) (state : PortalSyncState)
    (attempts : List Attempt) : Option State :=
  (s.table.write t pair (some state)).map fun table =>
    { s with table, pending :=
        Function.update s.pending t (s.pending t ++ attempts.map (pair, ·)) }

/-- A failed attempt. -/
def State.fails (s : State) (t : Nat) (task : SyncTask) (state : PortalSyncState)
    (error : PortalError) : Option State :=
  (s.writes t task.pair (recordFailure state error) [.failure]).map fun s' =>
    s'.goes t (.sync task (.done (some error) (failureOutcome state error)))

/-- `sync_to_portal` once it has its row, up to the adapter call. -/
def State.decide (s : State) (t : Nat) (task : SyncTask) (enabled : Bool)
    (payload : Option Json) (state : PortalSyncState) : Option State :=
  if state.circuitOpen then
    some (s.goes t (.sync task (.done none { status := "paused", detail := "circuit open" })))
  else if !enabled then
    (s.writes t task.pair { state with lastStatus := .pending } []).map fun s' =>
      s'.goes t
        (.sync task (.done none { status := "skipped", detail := "portal not enabled" }))
  else
    match effectiveAction task.action state with
    | none =>
      (s.writes t task.pair { state with lastStatus := .removed } []).map fun s' =>
        s'.goes t
          (.sync task (.done none { status := "skipped", detail := "nothing to remove" }))
    | some effective =>
      match adapterCall payload effective state with
      | .error error => s.fails t task state error
      | .ok call =>
        let circuitOpen := (s.table.rows task.pair).any (·.circuitOpen)
        let s' : State := { s with calls := s.calls ++ [⟨task.pair, call, circuitOpen⟩] }
        some (s'.goes t (.sync task (.calling effective)))

/-- The adapter's answer. -/
def State.answer (s : State) (t : Nat) (task : SyncTask) (effective : PortalAction)
    (result : Except PortalError PortalResult) (now : DateTime) (state : PortalSyncState) :
    Option State :=
  match result with
  | .error error => s.fails t task state error
  | .ok result =>
    (s.writes t task.pair (recordSuccess state now effective result.remoteId) [.success]).map
      fun s' => s'.goes t (.sync task
        (.done none { status := actionValue effective, detail := result.detail }))

/-- The reset of one portal by `request_repush`. -/
def State.reset (s : State) (t : Nat) (pair : Pair) (txn : Txn) : Option State :=
  match s.table.visible t pair with
  | none => some (s.goes t txn)
  | some state =>
    (s.lock t pair).bind fun s' =>
      if state.circuitOpen then
        (s'.writes t pair { state with circuitOpen := false, consecutiveFailures := 0 }
          [.reset]).map fun s' => s'.goes t txn
      else some (s'.goes t txn)

/-- The retry a task asks for. -/
def retryTask (task : SyncTask) (outcome : SyncOutcome) : List SyncTask :=
  if outcome.retry ∧ task.retries < maxSyncRetries then
    [{ task with retries := task.retries + 1 }]
  else []

/-- Transaction `t` commits; `queued` are the tasks it sends off. -/
def State.commit (s : State) (t : Nat) (queued : List SyncTask) : State :=
  { s with
    table := s.table.commit t
    queue := s.queue ++ queued
    txns := Function.update s.txns t none
    log := s.log ++ s.pending t
    pending := Function.update s.pending t [] }

/-- One statement of a transaction, or its end. -/
def step (s : State) : Label → Option State
  | .enqueue pair action => some { s with queue := s.queue ++ [{ pair, action }] }
  | .take t i =>
    if (s.txns t).isSome then none
    else
      s.queue[i]?.map fun task =>
        let s' : State := { s with queue := s.queue.eraseIdx i }
        if task.pair.portalKey ∈ knownPortals then s'.goes t (.sync task .starting)
        else s'.goes t
          (.sync task (.done none { status := "skipped", detail := "unknown portal" }))
  | .select t =>
    match s.txns t with
    | some (.sync task .starting) =>
      if (s.table.visible t task.pair).isSome then
        (s.lock t task.pair).map fun s' => s'.goes t (.sync task .ready)
      else some (s.goes t (.sync task .inserting))
    | _ => none
  | .insert t =>
    match s.txns t with
    | some (.sync task .inserting) =>
      (s.table.insertIgnore t task.pair {}).bind fun (table, inserted) =>
        -- a row that is there by now violates the unique constraint
        if inserted then some (State.goes { s with table } t (.sync task .ready)) else none
    | _ => none
  | .decide t enabled payload =>
    match s.txns t with
    | some (.sync task .ready) =>
      (s.table.visible t task.pair).bind (s.decide t task enabled payload)
    | _ => none
  | .answer t result now =>
    match s.txns t with
    | some (.sync task (.calling effective)) =>
      (s.table.visible t task.pair).bind (s.answer t task effective result now)
    | _ => none
  | .repush t tenantId listingId payload portals =>
    if (s.txns t).isSome ∨ payload.isNone ∨ portals = [] then none
    else some (s.goes t (.repush tenantId listingId portals portals))
  | .reset t =>
    match s.txns t with
    | some (.repush tenantId listingId portals (portal :: todo)) =>
      s.reset t ⟨tenantId, listingId, portal⟩ (.repush tenantId listingId portals todo)
    | _ => none
  | .commit t =>
    match s.txns t with
    | some (.sync task (.done failed outcome)) =>
      let circuitOpen := (s.table.visible t task.pair).any (·.circuitOpen)
      some { s.commit t (retryTask task outcome) with
        runs := s.runs ++ [⟨task, failed, outcome, circuitOpen⟩] }
    | some (.repush tenantId listingId portals []) =>
      some (s.commit t
        (portals.map fun portal => { pair := ⟨tenantId, listingId, portal⟩, action := .push }))
    | _ => none
  | .rollback t =>
    match s.txns t with
    | some _ =>
      some { s with
        table := s.table.rollback t
        txns := Function.update s.txns t none
        pending := Function.update s.pending t [] }
    | none => none

/-- From no rows on. -/
def machine : Machine State Label where
  init s := s = ⟨.empty, [], fun _ => none, [], fun _ => [], [], []⟩
  step := step

/-! ### The invariant -/

open RowService (effectsOf)

/-- What a state row is to the history of its pair. -/
def Follows (_ : Pair) (row : PortalSyncState) (history : List Attempt) : Prop :=
  row.breaker.Tracks circuitBreakerThreshold history

/-- The breaker of every row is what its history makes of it; no call was made behind an open
one; a run that asks for a retry has failed for a transient reason, and its circuit is closed. -/
structure BreakerHolds (s : State) : Prop where
  tracks : ∀ pair row, s.table.rows pair = some row → Follows pair row (effectsOf pair s.log)
  calls : ∀ call ∈ s.calls, call.circuitOpen = false
  retries : ∀ run ∈ s.runs, run.outcome.retry = true →
    (∃ error, run.failed = some error ∧ error.permanent = false) ∧ run.circuitOpen = false

/-- The transaction has locked the row, and its circuit is closed. -/
def Closed (table : Table Pair PortalSyncState Nat) (t : Nat) (pair : Pair) : Prop :=
  table.lock pair = some t ∧
    ∃ row, table.visible t pair = some row ∧ row.circuitOpen = false

/-- What a task has done to its row. -/
def TxnInv (table : Table Pair PortalSyncState Nat) (t : Nat) : Txn → Prop
  | .sync _ .starting | .sync _ .inserting => ∀ k, table.dirty t k = none
  | .sync task .ready => table.lock task.pair = some t ∧
    (table.dirty t task.pair = none ∨ table.rows task.pair = none)
  | .sync task (.calling _) => Closed table t task.pair
  | .sync task (.done failed outcome) => outcome.retry = true →
    (∃ error, failed = some error ∧ error.permanent = false) ∧ Closed table t task.pair
  | .repush _ _ _ _ => True

/-- Every row records the history of its pair. -/
structure Inv (s : State) : Prop where
  idle : ∀ t, s.txns t = none → ∀ k, s.table.lock k ≠ some t
  recorded : Recorded Follows s.table s.log s.pending
  /-- A pair without a row has no history. -/
  absent : ∀ pair, s.table.rows pair = none → effectsOf pair s.log = []
  kept : ∀ t pair, s.table.dirty t pair ≠ some none
  txn : ∀ t txn, s.txns t = some txn → TxnInv s.table t txn
  calls : ∀ call ∈ s.calls, call.circuitOpen = false
  retries : ∀ run ∈ s.runs, run.outcome.retry = true →
    (∃ error, run.failed = some error ∧ error.permanent = false) ∧ run.circuitOpen = false

section Steps

variable {s s' : State} {table table' : Table Pair PortalSyncState Nat} {t u : Nat} {txn : Txn}
  {task : SyncTask} {pair : Pair} {state : PortalSyncState} {attempts : List Attempt}

theorem threshold_pos : 0 < circuitBreakerThreshold := by decide

/-- A row that nobody else has written. -/
theorem Closed.of_same (h : Closed table t pair) (hsame : Table.SameFor t table table') :
    Closed table' t pair := by
  obtain ⟨hlock, row, hrow, hclosed⟩ := h
  exact ⟨(hsame.lock pair).2 hlock, row, (hsame.visible hlock).trans hrow, hclosed⟩

/-- A transaction does not notice what the others do. -/
theorem TxnInv.of_same (h : TxnInv table t txn) (hsame : Table.SameFor t table table') :
    TxnInv table' t txn := by
  match txn, h with
  | .sync task .starting, h => exact fun k => (hsame.dirty k).trans (h k)
  | .sync task .inserting, h => exact fun k => (hsame.dirty k).trans (h k)
  | .sync task .ready, ⟨hlock, hrow⟩ =>
    refine ⟨(hsame.lock _).2 hlock, ?_⟩
    rw [hsame.dirty, hsame.rows _ hlock]
    exact hrow
  | .sync task (.calling _), h => exact Closed.of_same h hsame
  | .sync task (.done _ _), h =>
    intro hretry
    obtain ⟨hfailed, hclosed⟩ := h hretry
    exact ⟨hfailed, hclosed.of_same hsame⟩
  | .repush _ _ _ _, _ => trivial

theorem Inv.empty : Inv ⟨.empty, [], fun _ => none, [], fun _ => [], [], []⟩ where
  idle _ _ _ := nofun
  recorded := .empty
  absent _ _ := rfl
  kept _ _ := nofun
  txn _ _ h := nomatch h
  calls _ h := nomatch h
  retries _ h := nomatch h

/-- A statement of a transaction: `s'` is what it makes of the tables. -/
theorem Inv.goes (h : Inv s) (hrows : s'.table.rows = s.table.rows)
    (hother : ∀ u, u ≠ t → Table.SameFor u s.table s'.table) (htxns : s'.txns = s.txns)
    (hlog : s'.log = s.log) (hruns : s'.runs = s.runs)
    (hkept : ∀ pair, s'.table.dirty t pair ≠ some none)
    (hrecorded : Recorded Follows s'.table s'.log s'.pending)
    (hcalls : ∀ call ∈ s'.calls, call.circuitOpen = false) (htxn : TxnInv s'.table t txn) :
    Inv (s'.goes t txn) where
  idle := by
    have hidle : Table.Idle s'.txns s.table := htxns ▸ h.idle
    exact hidle.goes hother
  recorded := hrecorded
  absent pair hrow := by
    show effectsOf pair s'.log = []
    rw [hlog]
    exact h.absent pair ((congrFun hrows pair).symm.trans hrow)
  kept u pair hd := by
    -- Only this transaction may have written another state.
    by_cases hu : u = t
    · subst hu
      exact hkept pair hd
    · exact h.kept u pair (((hother u hu).dirty pair).symm.trans hd)
  txn := by
    refine Machine.each_goes (P := TxnInv s.table) ?_
      (fun u _ hne hu => hu.of_same (hother u hne)) htxn
    rw [htxns]
    exact h.txn
  calls := hcalls
  retries run hrun := h.retries run (hruns ▸ hrun)

/-- A statement that touches no table. -/
theorem Inv.stays (h : Inv s) (htxn : TxnInv s.table t txn) : Inv (s.goes t txn) :=
  h.goes rfl (fun u _ => Table.SameFor.refl u _) rfl rfl rfl (h.kept t) h.recorded h.calls htxn

/-- A written row is not a deleted one. -/
theorem kept_of_wrote (hkept : ∀ k, table.dirty t k ≠ some none)
    (hw : Table.Wrote t pair (some state) table table') (k : Pair) :
    table'.dirty t k ≠ some none := by
  intro hd
  by_cases hk : k = pair
  · subst hk
    cases hw.self.symm.trans hd
  · exact hkept k ((hw.rest k hk).symm.trans hd)

/-- The lock of a row. -/
theorem Inv.lock (h : Inv s) (hst : s.lock t pair = some s')
    (htxn : ∀ hk, TxnInv (s.table.acquired t pair hk) t txn) : Inv (s'.goes t txn) := by
  obtain ⟨table, hacquire, rfl⟩ := Option.map_eq_some_iff.1 hst
  obtain ⟨hk, rfl⟩ := Table.acquire_eq_some.1 hacquire
  exact h.goes rfl (fun u hu => Table.acquired_sameFor hu hk) rfl rfl rfl (h.kept t)
    (h.recorded.of_same rfl rfl) h.calls (htxn hk)

/-- The write of a row whose breaker follows its history. -/
theorem Inv.writes (h : Inv s) (hst : s.writes t pair state attempts = some s')
    (hfollows : Follows pair state
      (effectsOf pair s.log ++ effectsOf pair (s.pending t) ++ attempts))
    (htxn : ∀ {table'}, Table.Wrote t pair (some state) s.table table' → TxnInv table' t txn) :
    Inv (s'.goes t txn) := by
  obtain ⟨table, hwrite, rfl⟩ := Option.map_eq_some_iff.1 hst
  have hwrote := Table.wrote_of_write hwrite
  refine h.goes hwrote.rows hwrote.other rfl rfl rfl (kept_of_wrote (h.kept t) hwrote)
    (h.recorded.wrote attempts hwrote ?_) h.calls (htxn hwrote)
  intro v hv
  cases hv
  exact hfollows

/-- The row a transaction has written is closed if it wrote it so. -/
theorem closed_of_wrote (hw : Table.Wrote t pair (some state) table table')
    (hclosed : state.circuitOpen = false) : Closed table' t pair :=
  ⟨(hw.lock pair).2 (.inl rfl), state, hw.visible_self, hclosed⟩

/-- A failed attempt on a closed circuit. -/
theorem Inv.fails (h : Inv s) {error : PortalError}
    (hvisible : s.table.visible t task.pair = some state) (hclosed : state.circuitOpen = false)
    (hst : s.fails t task state error = some s') : Inv s' := by
  obtain ⟨s₁, hwrites, rfl⟩ := Option.map_eq_some_iff.1 hst
  refine h.writes hwrites ?_ fun hwrote hretry => ?_
  · have hfollows : state.breaker.Tracks _ _ := h.recorded.visible hvisible
    rw [Follows, breaker_recordFailure]
    exact hfollows.fail
  · obtain ⟨hpermanent, hafter⟩ := retry_failureOutcome hclosed hretry
    exact ⟨⟨error, rfl, hpermanent⟩, closed_of_wrote hwrote hafter⟩

/-- The row is locked. -/
theorem Inv.select (h : Inv s) (ht : s.txns t = some (.sync task .starting))
    (hst : s.lock t task.pair = some s') : Inv (s'.goes t (.sync task .ready)) := by
  have hclean : ∀ k, s.table.dirty t k = none := h.txn t _ ht
  exact h.lock hst fun _ => ⟨Function.update_self .., .inl (hclean _)⟩

/-- Or inserted, where there was none. -/
theorem Inv.insert (h : Inv s) (ht : s.txns t = some (.sync task .inserting))
    (hinsert : s.table.insertIgnore t task.pair {} = some (table, true)) :
    Inv (State.goes { s with table } t (.sync task .ready)) := by
  have hclean : ∀ k, s.table.dirty t k = none := h.txn t _ ht
  rcases Table.insertIgnore_cases hinsert with ⟨hfalse, -⟩ | ⟨-, hnone, hwrote⟩
  · cases hfalse
  · have hrow : s.table.rows task.pair = none :=
      (Table.visible_of_clean (hclean _)).symm.trans hnone
    have hrecorded := h.recorded.wrote [] hwrote (fun v hv => by
      cases hv
      rw [h.absent _ hrow, h.recorded.clean (hclean _)]
      exact Breaker.tracks_new threshold_pos)
    refine h.goes hwrote.rows hwrote.other rfl rfl rfl (kept_of_wrote (h.kept t) hwrote) ?_ h.calls
      ⟨(hwrote.lock _).2 (.inl rfl), .inr ((congrFun hwrote.rows _).trans hrow)⟩
    simpa using hrecorded

/-- The task calls the adapter, unless the circuit is open. -/
theorem Inv.decide (h : Inv s) (ht : s.txns t = some (.sync task .ready)) {enabled : Bool}
    {payload : Option Json} (hvisible : s.table.visible t task.pair = some state)
    (hst : s.decide t task enabled payload state = some s') : Inv s' := by
  obtain ⟨hlock, hrow⟩ := h.txn t _ ht
  have hfollows := h.recorded.visible hvisible
  rw [State.decide] at hst
  split at hst
  · cases hst
    exact h.stays nofun
  · next hopen =>
    have hclosed : state.circuitOpen = false := by simpa using hopen
    split at hst
    -- the two skips write a status, and count no attempt
    · obtain ⟨s₁, hwrites, rfl⟩ := Option.map_eq_some_iff.1 hst
      refine h.writes hwrites ?_ fun _ => nofun
      rw [List.append_nil]
      exact hfollows
    · split at hst
      · obtain ⟨s₁, hwrites, rfl⟩ := Option.map_eq_some_iff.1 hst
        refine h.writes hwrites ?_ fun _ => nofun
        rw [List.append_nil]
        exact hfollows
      · split at hst
        · exact h.fails hvisible hclosed hst
        · cases hst
          -- the committed row is the one in sight, or there is none
          have hcommitted : (s.table.rows task.pair).any (·.circuitOpen) = false := by
            rcases hrow with hclean | hnone
            · rw [← Table.visible_of_clean hclean, hvisible]
              exact hclosed
            · rw [hnone]
              rfl
          refine h.goes rfl (fun u _ => Table.SameFor.refl u _) rfl rfl rfl (h.kept t) h.recorded ?_
            ⟨hlock, state, hvisible, hclosed⟩
          intro call hcall
          rcases List.mem_append.1 hcall with hcall | hcall
          · exact h.calls call hcall
          · cases List.mem_singleton.1 hcall
            exact hcommitted

/-- **The answer is recorded.** -/
theorem Inv.answer (h : Inv s) {effective : PortalAction}
    (ht : s.txns t = some (.sync task (.calling effective)))
    {result : Except PortalError PortalResult} {now : DateTime}
    (hvisible : s.table.visible t task.pair = some state)
    (hst : s.answer t task effective result now state = some s') : Inv s' := by
  obtain ⟨-, row, hrow, hclosed⟩ := h.txn t _ ht
  obtain rfl := Option.some.inj (hvisible.symm.trans hrow)
  cases result with
  | error error => exact h.fails hvisible hclosed hst
  | ok result =>
    obtain ⟨s₁, hwrites, rfl⟩ := Option.map_eq_some_iff.1 hst
    refine h.writes hwrites ?_ fun _ => nofun
    rw [Follows, breaker_recordSuccess]
    exact Breaker.tracks_over threshold_pos nofun

theorem Inv.reset (h : Inv s) (htxn : ∀ table, TxnInv table t txn)
    (hst : s.reset t pair txn = some s') : Inv s' := by
  rw [State.reset] at hst
  split at hst
  · cases hst
    exact h.stays (htxn _)
  · next state hvisible =>
    obtain ⟨s₁, hlock, hst⟩ := Option.bind_eq_some_iff.1 hst
    split at hst
    · obtain ⟨s₂, hwrites, rfl⟩ := Option.map_eq_some_iff.1 hst
      obtain ⟨table, hacquire, rfl⟩ := Option.map_eq_some_iff.1 hlock
      obtain ⟨hk, rfl⟩ := Table.acquire_eq_some.1 hacquire
      obtain ⟨table', hwrite, rfl⟩ := Option.map_eq_some_iff.1 hwrites
      have hwrote := Table.wrote_of_write hwrite
      have hlocked : Recorded Follows (s.table.acquired t pair hk) s.log s.pending :=
        h.recorded.of_same rfl rfl
      have hkept : ∀ k, (s.table.acquired t pair hk).dirty t k ≠ some none := h.kept t
      refine h.goes hwrote.rows
        (fun u hu => (Table.acquired_sameFor hu hk).trans (hwrote.other u hu)) rfl rfl rfl
        (kept_of_wrote hkept hwrote) (hlocked.wrote [.reset] hwrote ?_) h.calls (htxn _)
      intro v hv
      cases hv
      -- whatever the count was, a reset ends it
      exact Breaker.tracks_over threshold_pos nofun
    · cases hst
      exact h.lock hlock fun _ => htxn _

/-- A commit: `hrun` is what it adds to the runs. -/
theorem Inv.commit (h : Inv s) {queued : List SyncTask} {runs : List RunRecord}
    (hruns : ∀ run ∈ runs, run ∈ s.runs ∨ (run.outcome.retry = true →
      (∃ error, run.failed = some error ∧ error.permanent = false) ∧ run.circuitOpen = false)) :
    Inv { s.commit t queued with runs } where
  idle := Table.Idle.commit h.idle
  recorded := h.recorded.commit t
  absent pair hrow := by
    have hrow : s.table.visible t pair = none := hrow
    show effectsOf pair (s.log ++ s.pending t) = []
    rw [RowService.effectsOf_append]
    cases hd : s.table.dirty t pair with
    | none =>
      rw [Table.visible_of_clean hd] at hrow
      -- A pair without a row has no effect yet.
      rw [h.absent pair hrow, h.recorded.clean hd]
      rfl
    | some w =>
      rw [Table.visible_of_dirty hd] at hrow
      -- No transaction deletes a row, so a written one is there.
      exact absurd (hrow ▸ hd) (h.kept t pair)
  kept u pair hd := h.kept u pair (Table.commit_dirty.1 hd).2
  txn := Machine.each_ends h.txn fun _ _ hne hu => hu.of_same (Table.commit_sameFor hne)
  calls := h.calls
  retries run hrun := by
    rcases hruns run hrun with hold | hnew
    · exact h.retries run hold
    · exact hnew

theorem Inv.rollback (h : Inv s) (t : Nat) :
    Inv { s with
      table := s.table.rollback t
      txns := Function.update s.txns t none
      pending := Function.update s.pending t [] } where
  idle := Table.Idle.rollback h.idle
  recorded := h.recorded.rollback t
  absent := h.absent
  kept u pair hd := h.kept u pair (Table.rollback_dirty.1 hd).2
  txn := Machine.each_ends h.txn fun _ _ hne hu => hu.of_same (Table.rollback_sameFor hne)
  calls := h.calls
  retries := h.retries

/-- A task that has come to its end without asking for a retry, or with its circuit closed. -/
theorem Inv.run (h : Inv s) {failed : Option PortalError} {outcome : SyncOutcome}
    (ht : s.txns t = some (.sync task (.done failed outcome))) (hretry : outcome.retry = true) :
    (∃ error, failed = some error ∧ error.permanent = false) ∧
      (s.table.visible t task.pair).any (·.circuitOpen) = false := by
  obtain ⟨hfailed, -, row, hrow, hclosed⟩ := h.txn t _ ht hretry
  refine ⟨hfailed, ?_⟩
  rw [hrow]
  exact hclosed

/-- One step keeps the invariant. -/
theorem inv_step {l : Label} (h : Inv s) (hst : step s l = some s') : Inv s' := by
  cases l with
  | enqueue pair action =>
    cases hst
    exact { h with }
  | take t i =>
    obtain ⟨ht, hst⟩ := Option.ite_none_left_eq_some.1 hst
    obtain ⟨task, -, rfl⟩ := Option.map_eq_some_iff.1 hst
    have hclean := Table.Idle.clean h.idle t (Option.not_isSome_iff_eq_none.1 ht)
    have hsame : ∀ {queue : List SyncTask} {txn : Txn}, TxnInv s.table t txn →
        Inv (State.goes { s with queue } t txn) := fun htxn =>
      h.goes rfl (fun u _ => Table.SameFor.refl u _) rfl rfl rfl (h.kept t) h.recorded h.calls htxn
    dsimp only
    split
    · exact hsame hclean
    · exact hsame nofun
  | select t =>
    dsimp only [step] at hst
    split at hst
    · next task ht =>
      split at hst
      · obtain ⟨s₁, hlock, rfl⟩ := Option.map_eq_some_iff.1 hst
        exact h.select ht hlock
      · cases hst
        -- Where the row is there already, the select locks it.
        have hclean : ∀ k, s.table.dirty t k = none := h.txn t _ ht
        exact h.stays hclean
    · cases hst
  | insert t =>
    dsimp only [step] at hst
    split at hst
    · next task ht =>
      obtain ⟨⟨table, inserted⟩, hinsert, hst⟩ := Option.bind_eq_some_iff.1 hst
      obtain ⟨rfl, hst⟩ := Option.ite_none_right_eq_some.1 hst
      cases hst
      exact h.insert ht hinsert
    · cases hst
  | decide t enabled payload =>
    dsimp only [step] at hst
    split at hst
    · next task ht =>
      obtain ⟨state, hvisible, hst⟩ := Option.bind_eq_some_iff.1 hst
      exact h.decide ht hvisible hst
    · cases hst
  | answer t result now =>
    dsimp only [step] at hst
    split at hst
    · next task effective ht =>
      obtain ⟨state, hvisible, hst⟩ := Option.bind_eq_some_iff.1 hst
      exact h.answer ht hvisible hst
    · cases hst
  | repush t tenantId listingId payload portals =>
    obtain ⟨-, hst⟩ := Option.ite_none_left_eq_some.1 hst
    cases hst
    exact h.stays trivial
  | reset t =>
    dsimp only [step] at hst
    split at hst
    · next tenantId listingId portals portal todo ht =>
      have htxn : ∀ table, TxnInv table t (.repush tenantId listingId portals todo) :=
        fun _ => trivial
      exact h.reset htxn hst
    · cases hst
  | commit t =>
    dsimp only [step] at hst
    split at hst
    · next task failed outcome ht =>
      cases hst
      -- A run that ends for good records how often it tried.
      refine h.commit fun run hrun => ?_
      rcases List.mem_append.1 hrun with hrun | hrun
      · exact .inl hrun
      · cases List.mem_singleton.1 hrun
        exact .inr (h.run ht)
    · cases hst
      exact h.commit fun run hrun => .inl hrun
    · cases hst
  | rollback t =>
    dsimp only [step] at hst
    split at hst
    · cases hst
      exact h.rollback t
    · cases hst

end Steps

theorem inv_inductive : machine.Inductive (fun _ _ => True) Inv where
  init s hs := by
    cases hs
    exact .empty
  step s l t h _ hst := inv_step h hst

/-- **The breaker holds** through every interleaving of sync tasks, retries and re-pushes. -/
theorem breaker_holds {s : State} (h : machine.Reachable s) : BreakerHolds s := by
  have hinv := inv_inductive.always h
  exact ⟨fun _ _ hrow => hinv.recorded.committed hrow, hinv.calls, hinv.retries⟩

/-! ### A portal that is down -/

/-- One sync that the portal does not answer, from the queue to the commit. -/
def unanswered (t : Nat) : List Label :=
  [.take t 0, .select t, .decide t true (some .null),
    .answer t (.error { message := "portal unreachable" }) 0, .commit t]

/-- Five syncs in a row fail; the circuit is then open, a re-push resets it, and the sync it
queued succeeds. -/
def outage : List Label :=
  List.flatten
    [[.enqueue ⟨7, 1, "mock"⟩ .push, .take 1 0, .select 1, .insert 1, .decide 1 true (some .null),
        .answer 1 (.error { message := "portal unreachable" }) 0, .commit 1],
      unanswered 1, unanswered 1, unanswered 1, unanswered 1,
      [.repush 2 7 1 (some .null) ["mock"], .reset 2, .commit 2, .take 3 0, .select 3,
        .decide 3 true (some .null), .answer 3 (.ok { remoteId := some 9 }) 4, .commit 3]]

/-- The history of the pair is the five failures, the reset and the success. -/
theorem breaker_holds_outage :
    ∃ s, machine.Reachable s ∧
      effectsOf ⟨7, 1, "mock"⟩ s.log =
        [.failure, .failure, .failure, .failure, .failure, .reset, .success] ∧
      BreakerHolds s := by
  obtain ⟨s, hs, hp⟩ := Machine.exists_reachable_of_run (M := machine) outage
    (fun s => effectsOf ⟨7, 1, "mock"⟩ s.log =
      [.failure, .failure, .failure, .failure, .failure, .reset, .success]) rfl
    (by decide)
  exact ⟨s, hs, of_decide_eq_true hp, breaker_holds hs⟩

end Tasks

end Syndication

end RealEstate
