import RealEstate.Core.Events
import RealEstate.Listings.Workflow
import RealEstate.Systems.RowService

/-!
# Listings and what is recorded of them (`modules/listings/service.py`, `workers/tasks/listings.py`)

The transactions that write listings: inserts, `update`, which reads its listing without a
lock, `transition` and `soft_delete`, which lock it, and the nightly sweep that flags stale
listings row by row after one unlocked read.

- `listingService`: the operations of `Listings.Workflow` with the rows they add, a status
  history entry for each transition and a `listing.published` event.
- `WorkflowInv`: a listing agrees with its history and its events.
- `StillPublished`: the condition on a sweep's writes.
- `workflow_of_marks`: runs whose sweeps meet it only commit listings with `WorkflowInv`.
- `stale_after_reserve`: a sweep that does not meet it flags a listing that is no longer
  published.
-/

namespace RealEstate

namespace Listings

open RealEstate.Core Events Systems RowService

/-! ### Records -/

/-- A row added with a change of a listing. -/
inductive Record where
  /-- `ListingStatusHistory`. -/
  | history (fromStatus toStatus : ListingStatus)
  | event (event : DomainEvent)

/-- The moves in a listing's history. -/
def historyOf (records : List Record) : List (ListingStatus × ListingStatus) :=
  records.filterMap fun
    | .history fromStatus toStatus => some (fromStatus, toStatus)
    | .event _ => none

/-- The events recorded for a listing. -/
def eventsOf (records : List Record) : List DomainEvent :=
  records.filterMap fun
    | .history _ _ => none
    | .event event => some event

@[simp] theorem historyOf_append (xs ys : List Record) :
    historyOf (xs ++ ys) = historyOf xs ++ historyOf ys := List.filterMap_append

@[simp] theorem eventsOf_append (xs ys : List Record) :
    eventsOf (xs ++ ys) = eventsOf xs ++ eventsOf ys := List.filterMap_append

/-- The `listing.published` event. -/
def listingPublished (listingId : Uuid) (referenceCode : String) : DomainEvent where
  eventType := "listing.published"
  payload := [("listingId", .str listingId.repr), ("referenceCode", .str referenceCode)]

/-- What `transition` records. -/
def transitionRecords (listingId : Uuid) (listing : Listing) (toStatus : ListingStatus) :
    List Record :=
  .history listing.status toStatus ::
    if toStatus = .published then [.event (listingPublished listingId listing.referenceCode)]
    else []

/-! ### Transactions -/

/-- A new draft; a duplicate is one with its source's content. -/
structure NewListing where
  referenceCode : String
  content : Json
  expiresAt : Option DateTime := none

/-- A patch of a listing's columns. -/
structure ListingUpdate where
  content : Option Json := none
  expiresAt : Option (Option DateTime) := none
  /-- The patch names a field other than `agent_id`, `address` and `location`, which are taken
  out of it before it is looked at. -/
  remains : Bool

/-- A request on a listing, or the sweep's part in it. -/
inductive ListingOp where
  | update (patch : ListingUpdate)
  | transition (now : DateTime) (toStatus : ListingStatus) (canPublish : Bool)
  | softDelete (now : DateTime)

/-- What an `UPDATE` of a listing sets. -/
inductive Patch where
  /-- The columns of the patch, and `stale_flagged_at` to null if the row read had it set. -/
  | edit (content : Option Json) (expiresAt : Option (Option DateTime)) (clearsFlag : Bool)
  /-- The row as planned, under its lock. -/
  | row (listing : Listing)
  | flag (now : DateTime)

/-- What a request writes to the row. -/
def Patch.apply : Patch → Listing → Listing
  | .edit content expiresAt clearsFlag, listing =>
    { listing with
      content := content.getD listing.content
      expiresAt := expiresAt.getD listing.expiresAt
      staleFlaggedAt := if clearsFlag then none else listing.staleFlaggedAt }
  | .row listing, _ => listing
  | .flag now, listing => { listing with staleFlaggedAt := some now }

/-- A run of `_flag_tenant`. -/
structure StaleSweep where
  now : DateTime
  staleAfter : Seconds

/-- The `WHERE` of the sweep. -/
def StaleSweep.due (sweep : StaleSweep) (listing : Listing) : Bool :=
  listing.deletedAt.isNone ∧ listing.status = .published ∧ listing.staleFlaggedAt.isNone ∧
    (listing.expiresAt.any (· ≤ sweep.now) ∨
      listing.expiresAt.isNone ∧ listing.publishedAt.any (· ≤ sweep.now - sweep.staleAfter))

/-- The plan of an operation from the listing it read. -/
def ListingOp.plan (listingId : Uuid) (op : ListingOp) (listing : Listing) :
    Option (Patch × List Record) :=
  match op with
  | .update patch =>
    if listing.deletedAt.isSome then none
    else some (.edit patch.content patch.expiresAt
      (patch.remains && listing.staleFlaggedAt.isSome), [])
  | .transition now toStatus canPublish =>
    (listing.transition now toStatus canPublish).toOption.map fun result =>
      (.row result.1, transitionRecords listingId listing toStatus)
  | .softDelete now =>
    (listing.softDelete now).toOption.map fun result => (.row result.1, [])

/-- Whether it reads the row `FOR UPDATE`. -/
def ListingOp.locks : ListingOp → Bool
  | .update _ => false
  | .transition _ _ _ | .softDelete _ => true

/-- The service and its sweep. -/
def listingService : RowService Uuid Listing Patch Record NewListing ListingOp StaleSweep where
  create _ new := some (⟨.draft, new.content, new.referenceCode, new.expiresAt, none, none, none⟩,
    [])
  locks := ListingOp.locks
  plan := ListingOp.plan
  apply := Patch.apply
  due := StaleSweep.due
  mark sweep := .flag sweep.now

/-- An update whose listing did not change since it was read writes what `Listing.update`
returns. -/
theorem edit_eq_update {listing : Listing} {content : Json} {remains : Bool}
    {result : Listing × Option PortalAction} (h : listing.update content remains = .ok result) :
    ∃ patch, ListingOp.plan 0 (.update { content := some content, remains }) listing =
      some (patch, []) ∧ patch.apply listing = result.1 := by
  unfold Listing.update at h
  split at h
  · cases h
  · next hdeleted =>
    cases h
    refine ⟨_, if_neg hdeleted, ?_⟩
    cases remains <;> cases hflag : listing.staleFlaggedAt <;> simp [Patch.apply, hflag]

/-! ### The invariant -/

/-- The moves lead from one status to another along `ALLOWED_TRANSITIONS`. -/
def Walk : ListingStatus → List (ListingStatus × ListingStatus) → ListingStatus → Prop
  | status, [], current => status = current
  | status, (fromStatus, toStatus) :: moves, current =>
    fromStatus = status ∧ toStatus ∈ status.allowedTransitions ∧ Walk toStatus moves current

/-- A walk, and one move more. -/
theorem Walk.append_move {moves : List (ListingStatus × ListingStatus)}
    {status fromStatus toStatus : ListingStatus} (h : Walk status moves fromStatus)
    (hallowed : toStatus ∈ fromStatus.allowedTransitions) :
    Walk status (moves ++ [(fromStatus, toStatus)]) toStatus := by
  induction moves generalizing status with
  | nil =>
    obtain rfl : status = fromStatus := h
    exact ⟨rfl, hallowed, rfl⟩
  | cons move moves ih => exact ⟨h.1, h.2.1, ih h.2.2⟩

/-- A listing agrees with what is recorded of it. -/
structure WorkflowInv (listingId : Uuid) (listing : Listing) (records : List Record) : Prop where
  history : Walk .draft (historyOf records) listing.status
  deleted : listing.deletedAt.isSome → listing.status.undeletable = false
  published : listing.status = .published → listing.publishedAt.isSome
  stale : listing.staleFlaggedAt.isSome → listing.status = .published
  /-- One `listing.published` event for each entry into `PUBLISHED`. -/
  events : eventsOf records = ((historyOf records).filter (·.2 = .published)).map fun _ =>
    listingPublished listingId listing.referenceCode

/-- A listing that a sweep writes is still published. -/
def StillPublished (_ : StaleSweep) (listing : Listing) : Prop := listing.status = .published

/-- A comparison. -/
instance (sweep : StaleSweep) (listing : Listing) : Decidable (StillPublished sweep listing) :=
  inferInstanceAs (Decidable (_ = _))

section Operations

variable {listingId : Uuid} {listing : Listing} {records : List Record}

/-- Columns other than the workflow's change, and the flag is left or cleared. -/
theorem WorkflowInv.edit (h : WorkflowInv listingId listing records) (content : Option Json)
    (expiresAt : Option (Option DateTime)) (clearsFlag : Bool) :
    WorkflowInv listingId ((Patch.edit content expiresAt clearsFlag).apply listing) records where
  history := h.history
  deleted := h.deleted
  published := h.published
  stale hflag := by
    cases clearsFlag with
    | false => exact h.stale hflag
    | true => cases hflag
  events := h.events

/-- The sweep flags a published listing. -/
theorem WorkflowInv.flag (h : WorkflowInv listingId listing records)
    (hpublished : listing.status = .published) (now : DateTime) :
    WorkflowInv listingId ((Patch.flag now).apply listing) records :=
  { h with stale := fun _ => hpublished }

theorem WorkflowInv.softDelete (h : WorkflowInv listingId listing records) {now : DateTime}
    {result : Listing × Option PortalAction} (hdelete : listing.softDelete now = .ok result) :
    WorkflowInv listingId result.1 records := by
  unfold Listing.softDelete at hdelete
  split at hdelete
  · cases hdelete
  · split at hdelete
    · cases hdelete
    · next hdeletable =>
      cases hdelete
      exact { h with deleted := fun _ => Bool.not_eq_true _ ▸ hdeletable }

/-- A move is one row of the history. -/
theorem historyOf_transitionRecords (toStatus : ListingStatus) :
    historyOf (transitionRecords listingId listing toStatus) = [(listing.status, toStatus)] := by
  unfold transitionRecords
  split <;> rfl

/-- And one event, if it publishes. -/
theorem eventsOf_transitionRecords (toStatus : ListingStatus) :
    eventsOf (transitionRecords listingId listing toStatus) =
      if toStatus = .published then [listingPublished listingId listing.referenceCode]
      else [] := by
  unfold transitionRecords
  split <;> rfl

/-- **A transition** extends the walk by an allowed move. -/
theorem WorkflowInv.transition (h : WorkflowInv listingId listing records) {now : DateTime}
    {toStatus : ListingStatus} {canPublish : Bool} {result : Listing × Option PortalAction}
    (hmove : listing.transition now toStatus canPublish = .ok result) :
    WorkflowInv listingId result.1
      (records ++ transitionRecords listingId listing toStatus) := by
  unfold Listing.transition at hmove
  split at hmove
  · cases hmove
  · next hdeleted =>
    split at hmove
    · cases hmove
    · next hallowed =>
      split at hmove
      · cases hmove
      · cases hmove
        refine ⟨?_, fun hd => absurd hd hdeleted, fun hp => ?_, fun hflag => ?_, ?_⟩
        · rw [historyOf_append, historyOf_transitionRecords]
          exact h.history.append_move (Decidable.not_not.mp hallowed)
        · -- What is published gets its publication time.
          obtain rfl : toStatus = .published := hp
          rfl
        · by_cases hp : toStatus = .published
          · exact hp
          · -- Leaving `PUBLISHED` clears the flag.
            dsimp only at hflag
            rw [if_neg hp] at hflag
            cases hflag
        · -- One more move, and one more event if it leads to `PUBLISHED`.
          rw [eventsOf_append, eventsOf_transitionRecords, historyOf_append,
            historyOf_transitionRecords, List.filter_append, List.map_append, h.events]
          by_cases hp : toStatus = .published
          · rw [if_pos hp, List.filter_cons_of_pos (by simpa using hp)]
            rfl
          · rw [if_neg hp, List.filter_cons_of_neg (by simpa using hp)]
            rfl

end Operations

theorem listingService_keeps :
    listingService.Keeps StillPublished WorkflowInv (fun _ _ => True) where
  refl _ := trivial
  trans _ _ := trivial
  create := by
    intro listingId new listing records h
    cases h
    exact ⟨rfl, nofun, nofun, nofun, rfl⟩
  locked := by
    intro listingId op listing patch new records hlocks hplan hI
    cases op with
    | update patch => cases hlocks
    | transition now toStatus canPublish =>
      obtain ⟨result, hresult, heq⟩ := Option.map_eq_some_iff.mp hplan
      cases heq
      exact ⟨hI.transition (toOption_eq_some hresult), trivial⟩
    | softDelete now =>
      obtain ⟨result, hresult, heq⟩ := Option.map_eq_some_iff.mp hplan
      cases heq
      rw [List.append_nil]
      exact ⟨hI.softDelete (toOption_eq_some hresult), trivial⟩
  unlocked := by
    intro listingId op read patch new listing records hlocks hplan hI
    cases op with
    | update edit =>
      simp only [listingService, ListingOp.plan, Option.ite_none_left_eq_some] at hplan
      obtain ⟨-, heq⟩ := hplan
      cases heq
      rw [List.append_nil]
      exact ⟨hI.edit _ _ _, trivial⟩
    | transition | softDelete => cases hlocks
  mark hdue hI := ⟨hI.flag hdue _, trivial⟩

/-- As long as a sweep only writes listings that are still published, every committed listing
agrees with its history and its events, whatever interleaves. -/
theorem workflow_of_marks {s : State Uuid Listing Patch Record ListingOp StaleSweep}
    (h : listingService.machine.ReachVia (MarksDue StillPublished) s) {listingId : Uuid}
    {listing : Listing} (hrow : s.table.rows listingId = some listing) :
    WorkflowInv listingId listing (effectsOf listingId s.effects) :=
  listingService_keeps.committed (fun _ _ hg => hg) h hrow

/-- A listing is published and flagged, edited by its agent, and reserved. -/
theorem workflow_of_marks_review : ∃ s listing,
    listingService.machine.ReachVia (MarksDue StillPublished) s ∧
      s.table.rows 1 = some listing ∧ listing.status = .reserved ∧
      WorkflowInv 1 listing (effectsOf 1 s.effects) := by
  obtain ⟨s, hs, hp⟩ := Machine.exists_reachVia_of_run (M := listingService.machine)
    (G := MarksDue StillPublished) (s := ⟨.empty, [], fun _ => none⟩)
    [.create 0 1 { referenceCode := "AGE-1", content := .null }, .commit 0,
      .start 1 (.transition 10 .published true) 1, .read 1, .write 1, .commit 1,
      .sweep 2 ⟨100, 50⟩, .mark 2, .commit 2,
      .start 3 (.update { content := some (.str "new"), remains := true }) 1, .read 3,
      .start 4 (.transition 110 .reserved true) 1, .read 4, .write 4, .commit 4, .write 3,
      .commit 3]
    (fun s => (s.table.rows 1).any fun listing => listing.status = .reserved) rfl (by decide)
  obtain ⟨listing, hrow, hstatus⟩ := (Option.any_eq_true ..).mp hp
  exact ⟨s, listing, hs, hrow, of_decide_eq_true hstatus, workflow_of_marks hs hrow⟩

/-- The sweep reads a published listing, the listing is reserved, and the sweep flags it. -/
theorem stale_after_reserve : ∃ s listing, listingService.machine.Reachable s ∧
    s.table.rows 1 = some listing ∧ listing.status = .reserved ∧
    listing.staleFlaggedAt = some 100 ∧ ¬WorkflowInv 1 listing (effectsOf 1 s.effects) := by
  obtain ⟨s, hs, hp⟩ := Machine.exists_reachable_of_run (M := listingService.machine)
    (s := ⟨.empty, [], fun _ => none⟩)
    [.create 0 1 { referenceCode := "AGE-1", content := .null }, .commit 0,
      .start 1 (.transition 10 .published true) 1, .read 1, .write 1, .commit 1,
      .sweep 2 ⟨100, 50⟩, .start 3 (.transition 100 .reserved true) 1, .read 3, .write 3,
      .commit 3, .mark 2, .commit 2]
    (fun s => (s.table.rows 1).any fun listing =>
      listing.status = .reserved ∧ listing.staleFlaggedAt = some 100) rfl (by decide)
  obtain ⟨listing, hrow, hstale⟩ := (Option.any_eq_true ..).mp hp
  obtain ⟨hstatus, hflag⟩ := of_decide_eq_true hstale
  refine ⟨s, listing, hs, hrow, hstatus, hflag, fun h => ?_⟩
  have hpublished := h.stale (by rw [hflag]; rfl)
  rw [hstatus] at hpublished
  cases hpublished

end Listings

end RealEstate
