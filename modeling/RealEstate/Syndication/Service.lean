import RealEstate.Listings.Workflow

/-!
# Portal syndication (`modules/syndication/models.py`, `service.py`)

One sync of one listing on one portal: the state row, the choice of the adapter's
verb, the call, and what is recorded of it. The portal is the contract of the
claim's adapter: `push` creates an advert under a new id, `update` and `remove`
act on the advert with the id, and every call succeeds.
-/

namespace RealEstate

namespace Syndication

open RealEstate.Core Listings

/-- A portal's own id of an advert. -/
abbrev RemoteId := Nat

/-- `SyncStatus`. -/
inductive SyncStatus where
  | pending
  | synced
  | removed
  | failed
  | paused
  deriving DecidableEq, Repr

/-- One row of `portal_sync_state`. -/
structure PortalSyncState where
  remoteId : Option RemoteId := none
  lastStatus : SyncStatus := .pending
  lastPushedAt : Option DateTime := none
  lastError : Option String := none
  retryCount : Nat := 0
  consecutiveFailures : Nat := 0
  circuitOpen : Bool := false

/-- `CIRCUIT_BREAKER_THRESHOLD`. -/
def circuitBreakerThreshold : Nat := 5

/-! ### The portal -/

/-- An adapter call that names an advert, and whether it was live then. -/
structure Call where
  action : PortalAction
  remoteId : RemoteId
  live : Bool

/-- The adverts of the listing on the portal, every id it has given out, and the `update`
and `remove` calls it has received. -/
structure Portal where
  live : List (RemoteId × Json)
  issued : List RemoteId
  calls : List Call

/-- An advert is live. -/
def Portal.isLive (portal : Portal) (remoteId : RemoteId) : Bool :=
  remoteId ∈ portal.live.map Prod.fst

/-- Record a call. -/
def Portal.called (portal : Portal) (action : PortalAction) (remoteId : RemoteId) : Portal :=
  { portal with calls := ⟨action, remoteId, portal.isLive remoteId⟩ :: portal.calls }

/-- `adapter.push`: the new advert gets the id `fresh`. -/
def Portal.push (portal : Portal) (payload : Json) (fresh : RemoteId) : Portal :=
  { portal with live := (fresh, payload) :: portal.live, issued := fresh :: portal.issued }

/-- `adapter.update`. -/
def Portal.update (portal : Portal) (payload : Json) (remoteId : RemoteId) : Portal :=
  { portal.called .update remoteId with
    live := portal.live.map fun ad => if ad.1 = remoteId then (ad.1, payload) else ad }

/-- `adapter.remove`. -/
def Portal.remove (portal : Portal) (remoteId : RemoteId) : Portal :=
  { portal.called .remove remoteId with live := portal.live.filter fun ad => ad.1 ≠ remoteId }

/-! ### One sync -/

/-- `PortalError`. -/
structure PortalError where
  message : String
  permanent : Bool := false

/-- `_effective_action`. -/
def effectiveAction (action : PortalAction) (state : PortalSyncState) : Option PortalAction :=
  match action, state.remoteId with
  | .remove, none => none
  | .update, none => some .push
  | action, _ => some action

/-- `_invoke`: the portal afterwards, and the `remote_id` of the result. -/
def invoke (portal : Portal) (listing : Listing) (action : PortalAction)
    (state : PortalSyncState) (fresh : RemoteId) :
    Except PortalError (Portal × Option RemoteId) :=
  match action, listing.portalPayload, state.remoteId with
  | .remove, _, some remoteId => .ok (portal.remove remoteId, some remoteId)
  -- an assertion in the source; `effectiveAction` rules it out
  | .remove, _, none => .error { message := "" }
  | _, none, none => .error { message := "listing is not published", permanent := true }
  -- no longer published: treat a push or update as a withdrawal instead
  | _, none, some remoteId => .ok (portal.remove remoteId, some remoteId)
  | .update, some payload, some remoteId => .ok (portal.update payload remoteId, some remoteId)
  | _, some payload, _ => .ok (portal.push payload fresh, some fresh)

/-- `_record_success`. -/
def recordSuccess (state : PortalSyncState) (now : DateTime) (action : PortalAction)
    (remoteId : Option RemoteId) : PortalSyncState :=
  { state with
    lastStatus := if action = .remove then .removed else .synced
    remoteId := if action = .remove then state.remoteId else remoteId <|> state.remoteId
    lastPushedAt := some now
    lastError := none
    consecutiveFailures := 0
    circuitOpen := false }

/-- `_record_failure`. -/
def recordFailure (state : PortalSyncState) (error : PortalError) : PortalSyncState :=
  let failures := state.consecutiveFailures + 1
  let tripped := decide (circuitBreakerThreshold ≤ failures)
  { state with
    lastStatus := if tripped then .paused else .failed
    lastError := some error.message
    consecutiveFailures := failures
    retryCount := state.retryCount + 1
    circuitOpen := tripped || state.circuitOpen }

/-- `sync_to_portal` for a portal that is known and enabled. `_state_row` creates the row on
the first sync. -/
def syncToPortal (portal : Portal) (listing : Listing) (row : Option PortalSyncState)
    (now : DateTime) (action : PortalAction) (fresh : RemoteId) : Portal × PortalSyncState :=
  let state := row.getD {}
  if state.circuitOpen then (portal, state)
  else
    match effectiveAction action state with
    | none => (portal, { state with lastStatus := .removed })
    | some effective =>
      match invoke portal listing effective state fresh with
      | .error error => (portal, recordFailure state error)
      | .ok (portal, remoteId) => (portal, recordSuccess state now effective remoteId)

/-- The breaker's reset in `request_repush`. -/
def resetCircuit (row : Option PortalSyncState) : Option PortalSyncState :=
  row.map fun state =>
    if state.circuitOpen then { state with circuitOpen := false, consecutiveFailures := 0 }
    else state

/-- `request_repush` with the portal enabled: the row, and a push is queued. -/
def requestRepush (listing : Listing) (row : Option PortalSyncState) :
    Except AppError (Option PortalSyncState × PortalAction) :=
  if listing.portalPayload.isNone then .error ⟨.notFound, "Published listing not found."⟩
  else .ok (resetCircuit row, .push)

end Syndication

end RealEstate
