import RealEstate.Core.Events
import RealEstate.Core.Exceptions
import RealEstate.Systems.RowService

/-!
# Deals (`modules/transactions/service.py`)

`TransactionsService`'s writes of a deal, as functions of the row they read, and the
transactions that run them: every one but the insert reads its deal with `FOR UPDATE`.

- `createDeal`, `updateDeal`, `transition`: the operations, with their checks in order.
- `DealInv`: the stamps, the lost reason and the `deal.closed` event agree with the status.
- `deal_lifecycle`: `DealInv` holds of every committed deal, and a closed deal keeps its
  status for good.
-/

namespace RealEstate

namespace Transactions

open RealEstate.Core Events Systems RowService

/-- `DealStatus`. -/
inductive DealStatus where
  | opened
  | underContract
  | closedWon
  | closedLost
  deriving DecidableEq, Repr

/-- The member's value. -/
def DealStatus.value : DealStatus → String
  | .opened => "open"
  | .underContract => "under_contract"
  | .closedWon => "closed_won"
  | .closedLost => "closed_lost"

/-- `CLOSED_STATUSES`. -/
def DealStatus.closed : DealStatus → Bool
  | .closedWon | .closedLost => true
  | .opened | .underContract => false

/-- `_TRANSITIONS`. -/
def DealStatus.transitions : DealStatus → List DealStatus
  | .opened => [.closedWon, .closedLost, .underContract]
  | .underContract => [.closedWon, .closedLost, .opened]
  | .closedWon => []
  | .closedLost => []

/-- A row of `deals`, without its commission; prices are in cents. -/
structure Deal where
  ownerUserId : Uuid
  title : String
  status : DealStatus := .opened
  listingId : Option Uuid := none
  leadId : Option Uuid := none
  contactId : Option Uuid := none
  price : Option Int := none
  currency : String := "DZD"
  closedAt : Option DateTime := none
  lostReason : Option String := none
  notes : Option String := none

/-- What a new deal gives. -/
structure DealCreate where
  title : String
  listingId : Option Uuid := none
  leadId : Option Uuid := none
  contactId : Option Uuid := none
  ownerUserId : Option Uuid := none
  price : Option Int := none
  currency : String := "DZD"
  notes : Option String := none

/-- A patch: an absent field is `none`, and a null one `some none`. -/
structure DealUpdate where
  title : Option String := none
  price : Option (Option Int) := none
  currency : Option String := none
  ownerUserId : Option (Option Uuid) := none
  listingId : Option (Option Uuid) := none
  leadId : Option (Option Uuid) := none
  contactId : Option (Option Uuid) := none
  notes : Option (Option String) := none

/-- A move to another stage. -/
structure DealTransition where
  toStatus : DealStatus
  lostReason : Option String := none

/-- What the other modules answer about the ids a request names. -/
structure Boundaries where
  listingExists : Uuid → Bool
  leadExists : Uuid → Bool
  contactExists : Uuid → Bool
  activeUser : Uuid → Bool

/-! ### Operations -/

section Operations

variable (boundaries : Boundaries) (scope : Option (List Uuid))

/-- `_validate_links`. -/
def validateLinks (listingId leadId contactId : Option Uuid) : Except AppError Unit :=
  if listingId.any fun id => !boundaries.listingExists id then
    .error ⟨.notFound, "Linked listing not found."⟩
  else if leadId.any fun id => !boundaries.leadExists id then
    .error ⟨.notFound, "Linked lead not found."⟩
  else if contactId.any fun id => !boundaries.contactExists id then
    .error ⟨.notFound, "Linked contact not found."⟩
  else .ok ()

/-- `_validate_owner`. -/
def validateOwner (userId : Option Uuid) : Except AppError Unit :=
  if userId.any fun id => !boundaries.activeUser id then
    .error ⟨.notFound, "Assigned user not found."⟩
  else .ok ()

/-- `create_deal`. `scope` is what the actor may see: `none` is everything. -/
def createDeal (actor : Uuid) (data : DealCreate) : Except AppError Deal := do
  let ownerUserId := data.ownerUserId.getD actor
  if ownerUserId ≠ actor ∧ scope.isSome then
    throw ⟨.permissionDenied, "Only a manager can assign a deal to another agent."⟩
  if ownerUserId ≠ actor then
    validateOwner boundaries (some ownerUserId)
  validateLinks boundaries data.listingId data.leadId data.contactId
  return {
    ownerUserId
    title := data.title
    listingId := data.listingId
    leadId := data.leadId
    contactId := data.contactId
    price := data.price
    currency := data.currency
    notes := data.notes }

/-- The scope of `_deal_or_404`'s `SELECT`. -/
def dealOr404 (deal : Deal) : Except AppError Unit :=
  if scope.all (deal.ownerUserId ∈ ·) then .ok ()
  else .error ⟨.notFound, "Deal not found."⟩

/-- The patch as the flush writes it; `none` if it nulls the owner, which the column rejects. -/
def DealUpdate.apply (patch : DealUpdate) (deal : Deal) : Option Deal :=
  (patch.ownerUserId.getD (some deal.ownerUserId)).map fun ownerUserId =>
    { deal with
      ownerUserId
      title := patch.title.getD deal.title
      price := patch.price.getD deal.price
      currency := patch.currency.getD deal.currency
      listingId := patch.listingId.getD deal.listingId
      leadId := patch.leadId.getD deal.leadId
      contactId := patch.contactId.getD deal.contactId
      notes := patch.notes.getD deal.notes }

/-- `update_deal`, up to its flush. -/
def updateDeal (patch : DealUpdate) (deal : Deal) : Except AppError (Option Deal) := do
  dealOr404 scope deal
  let reassigning := patch.ownerUserId.any (· ≠ some deal.ownerUserId)
  if reassigning ∧ scope.isSome then
    throw ⟨.permissionDenied, "Only a manager can reassign a deal."⟩
  if reassigning then
    validateOwner boundaries patch.ownerUserId.join
  validateLinks boundaries patch.listingId.join patch.leadId.join patch.contactId.join
  return patch.apply deal

/-- The `deal.closed` event of a deal. -/
def dealClosed (dealId : Uuid) (outcome : DealStatus) (title : String) : DomainEvent where
  eventType := "deal.closed"
  payload := [("dealId", .str dealId.repr), ("outcome", .str outcome.value), ("title", .str title)]

/-- `transition`, with the events it emits. -/
def transition (dealId : Uuid) (now : DateTime) (data : DealTransition) (deal : Deal) :
    Except AppError (Deal × List DomainEvent) := do
  dealOr404 scope deal
  let target := data.toStatus
  if target = deal.status then
    return (deal, [])
  if target ∉ deal.status.transitions then
    throw ⟨.conflict,
      s!"Cannot move a deal from '{deal.status.value}' to '{target.value}'."⟩
  if target = .closedLost ∧ data.lostReason.getD "" = "" then
    throw ⟨.conflict, "A lost deal requires a reason."⟩
  if target.closed then
    return ({ deal with
        status := target
        closedAt := some now
        lostReason := if target = .closedLost then data.lostReason else none },
      [dealClosed dealId target deal.title])
  return ({ deal with status := target, closedAt := none, lostReason := none }, [])

end Operations

/-! ### Transactions -/

/-- A request to create a deal. -/
structure NewDeal where
  boundaries : Boundaries
  scope : Option (List Uuid)
  actor : Uuid
  data : DealCreate

/-- A request on an existing deal. -/
inductive DealOp where
  | update (boundaries : Boundaries) (scope : Option (List Uuid)) (patch : DealUpdate)
  | transition (scope : Option (List Uuid)) (now : DateTime) (data : DealTransition)

/-- The service. Under its row lock a deal is written as it was planned. -/
def dealService : RowService Uuid Deal Deal DomainEvent NewDeal DealOp Empty where
  create _ new := (createDeal new.boundaries new.scope new.actor new.data).toOption.map (·, [])
  locks _ := true
  plan dealId
    | .update boundaries scope patch, deal =>
      (updateDeal boundaries scope patch deal).toOption.join.map (·, [])
    | .transition scope now data, deal => (transition scope dealId now data deal).toOption
  apply deal _ := deal
  due := nofun
  mark := nofun

/-- A deal and the events recorded for it agree. -/
structure DealInv (dealId : Uuid) (deal : Deal) (events : List DomainEvent) : Prop where
  closedAt : deal.closedAt.isSome ↔ deal.status.closed = true
  lostReason : deal.lostReason.isSome → deal.status = .closedLost
  /-- One `deal.closed` event for a closed deal, none for an open one. -/
  events : if deal.status.closed then ∃ title, events = [dealClosed dealId deal.status title]
    else events = []

/-! ### What the operations write -/

/-- A new deal is open and bears no stamps. -/
theorem createDeal_ok {boundaries : Boundaries} {scope : Option (List Uuid)} {actor : Uuid}
    {data : DealCreate} {deal : Deal} (h : createDeal boundaries scope actor data = .ok deal) :
    deal.status = .opened ∧ deal.closedAt = none ∧ deal.lostReason = none := by
  unfold createDeal at h
  dsimp only at h
  split at h
  · cases h
  · split at h
    · obtain ⟨_, -, h⟩ := bind_eq_ok h
      obtain ⟨_, -, h⟩ := bind_eq_ok h
      cases h
      exact ⟨rfl, rfl, rfl⟩
    · obtain ⟨_, -, h⟩ := bind_eq_ok h
      cases h
      exact ⟨rfl, rfl, rfl⟩

/-- The fields a status comes with. A patch has none of them. -/
def Deal.SameStatus (deal deal' : Deal) : Prop :=
  deal'.status = deal.status ∧ deal'.closedAt = deal.closedAt ∧
    deal'.lostReason = deal.lostReason

theorem DealUpdate.apply_sameStatus {patch : DealUpdate} {deal deal' : Deal}
    (h : patch.apply deal = some deal') : deal.SameStatus deal' := by
  obtain ⟨ownerUserId, -, rfl⟩ := Option.map_eq_some_iff.mp h
  exact ⟨rfl, rfl, rfl⟩

/-- An update that is accepted moves no deal. -/
theorem updateDeal_ok {boundaries : Boundaries} {scope : Option (List Uuid)}
    {patch : DealUpdate} {deal deal' : Deal}
    (h : updateDeal boundaries scope patch deal = .ok (some deal')) : deal.SameStatus deal' := by
  unfold updateDeal at h
  obtain ⟨_, -, h⟩ := bind_eq_ok h
  dsimp only at h
  split at h
  · cases h
  · split at h
    · obtain ⟨_, -, h⟩ := bind_eq_ok h
      obtain ⟨_, -, h⟩ := bind_eq_ok h
      exact DealUpdate.apply_sameStatus (Except.ok.inj h)
    · obtain ⟨_, -, h⟩ := bind_eq_ok h
      exact DealUpdate.apply_sameStatus (Except.ok.inj h)

/-- A transition leaves the deal alone, or closes it with its event, or moves it between the
open statuses. -/
inductive Moved (dealId : Uuid) (deal : Deal) : Deal → List DomainEvent → Prop where
  | same : Moved dealId deal deal []
  | close (deal' : Deal) : deal.status.closed = false → deal'.status.closed = true →
    deal'.closedAt.isSome → (deal'.lostReason.isSome → deal'.status = .closedLost) →
    Moved dealId deal deal' [dealClosed dealId deal'.status deal.title]
  | reopen (deal' : Deal) : deal.status.closed = false → deal'.status.closed = false →
    deal'.closedAt = none → deal'.lostReason = none → Moved dealId deal deal' []

/-- A closed deal has nowhere to go. -/
theorem not_closed_of_transition {target status : DealStatus}
    (h : target ∈ status.transitions) : status.closed = false := by
  cases status with
  | opened | underContract => rfl
  | closedWon | closedLost => cases h

/-- A transition that is accepted is one of the table, with its event. -/
theorem transition_ok {scope : Option (List Uuid)} {dealId : Uuid} {now : DateTime}
    {data : DealTransition} {deal deal' : Deal} {events : List DomainEvent}
    (h : transition scope dealId now data deal = .ok (deal', events)) :
    Moved dealId deal deal' events := by
  unfold transition at h
  obtain ⟨_, -, h⟩ := bind_eq_ok h
  dsimp only at h
  split at h
  · cases h
    exact .same
  · split at h
    · cases h
    · next htarget =>
      have hopen := not_closed_of_transition (Decidable.not_not.mp htarget)
      split at h
      · cases h
      · split at h
        · next hclosed =>
          cases h
          -- A reason is kept with a lost deal only, whatever the request names.
          refine .close _ hopen hclosed rfl fun hreason => ?_
          by_cases hlost : data.toStatus = .closedLost
          · exact hlost
          · dsimp only at hreason
            rw [if_neg hlost] at hreason
            cases hreason
        · next hclosed =>
          cases h
          exact .reopen _ hopen (Bool.not_eq_true _ ▸ hclosed) rfl rfl

/-! ### The invariant -/

/-- The history does not depend on the other columns. -/
theorem DealInv.sameStatus {dealId : Uuid} {deal deal' : Deal} {events : List DomainEvent}
    (h : DealInv dealId deal events) (hsame : deal.SameStatus deal') :
    DealInv dealId deal' events := by
  obtain ⟨hstatus, hclosedAt, hreason⟩ := hsame
  constructor
  · rw [hstatus, hclosedAt]
    exact h.closedAt
  · rw [hstatus, hreason]
    exact h.lostReason
  · rw [hstatus]
    exact h.events

theorem DealInv.moved {dealId : Uuid} {deal deal' : Deal} {events new : List DomainEvent}
    (h : DealInv dealId deal events) (hmoved : Moved dealId deal deal' new) :
    DealInv dealId deal' (events ++ new) := by
  -- Only an open deal moves, and nothing was recorded for it so far.
  have hnone : deal.status.closed = false → events = [] := by
    intro hopen
    have hevents := h.events
    rw [hopen] at hevents
    exact hevents
  cases hmoved with
  | same =>
    rw [List.append_nil]
    exact h
  | close _ hopen hclosed hstamp hreason =>
    rw [hnone hopen, List.nil_append]
    refine ⟨⟨fun _ => hclosed, fun _ => hstamp⟩, hreason, ?_⟩
    rw [hclosed]
    exact ⟨deal.title, rfl⟩
  | reopen _ hopen hopen' hstamp hreason =>
    rw [hnone hopen, List.append_nil]
    constructor
    · rw [hstamp, hopen']
      simp
    · rw [hreason]
      simp
    · rw [hopen']
      exact rfl

/-- A closed deal keeps its status. -/
def KeepsClosed (deal deal' : Deal) : Prop :=
  deal.status.closed = true → deal'.status = deal.status

theorem Moved.keepsClosed {dealId : Uuid} {deal deal' : Deal} {new : List DomainEvent}
    (h : Moved dealId deal deal' new) : KeepsClosed deal deal' := by
  intro hclosed
  cases h with
  | same => rfl
  | close _ hopen | reopen _ hopen =>
    rw [hopen] at hclosed
    cases hclosed

theorem dealService_keeps :
    dealService.Keeps (fun _ _ => True) DealInv KeepsClosed where
  refl _ _ := rfl
  trans := fun {u v w} huv hvw hclosed => by
    have hv := huv hclosed
    rw [← hv] at hclosed ⊢
    exact hvw hclosed
  create := by
    intro dealId new deal events h
    obtain ⟨created, hcreate, heq⟩ := Option.map_eq_some_iff.mp h
    cases heq
    obtain ⟨hstatus, hclosedAt, hreason⟩ := createDeal_ok (toOption_eq_some hcreate)
    constructor
    · rw [hstatus, hclosedAt]
      simp [DealStatus.closed]
    · rw [hreason]
      simp
    · rw [hstatus]
      exact rfl
  locked := by
    intro dealId op deal deal' new events _ hplan hI
    cases op with
    | update boundaries scope patch =>
      obtain ⟨patched, hpatched, heq⟩ := Option.map_eq_some_iff.mp hplan
      cases heq
      obtain ⟨result, hresult, hjoin⟩ := Option.bind_eq_some_iff.mp hpatched
      cases hjoin
      have hsame := updateDeal_ok (toOption_eq_some hresult)
      rw [List.append_nil]
      exact ⟨hI.sameStatus hsame, fun _ => hsame.1⟩
    | transition scope now data =>
      have hmoved := transition_ok (toOption_eq_some hplan)
      exact ⟨hI.moved hmoved, hmoved.keepsClosed⟩
  unlocked := by
    -- Every write of a deal locks its row first.
    intro _ _ _ _ _ _ _ hlocks
    cases hlocks
  mark := fun {sweep} => sweep.elim

/-- **The life of a deal.** Whatever requests interleave, the stamps, the lost reason and the
events of every committed deal agree with its status, and once closed it keeps its status. -/
theorem deal_lifecycle {s : State Uuid Deal Deal DomainEvent DealOp Empty}
    (h : dealService.machine.Reachable s) {dealId : Uuid} {deal : Deal}
    (hrow : s.table.rows dealId = some deal) :
    DealInv dealId deal (effectsOf dealId s.effects) ∧
      (deal.status.closed = true → ∀ s', Later dealService s s' →
        ∃ deal', s'.table.rows dealId = some deal' ∧ deal'.status = deal.status) := by
  constructor
  · exact dealService_keeps.committed (fun s l _ => marksDue_of_forall (fun _ _ => trivial) s l) h
      hrow
  · intro hclosed s' hlater
    obtain ⟨deal', hrow', hkeeps⟩ :=
      dealService_keeps.later (fun _ _ => trivial) h hlater hrow
    exact ⟨deal', hrow', hkeeps hclosed⟩

/-- Two agents move one deal at once: the first loses it, and the second finds it closed. -/
theorem deal_lifecycle_race : ∃ s deal, dealService.machine.Reachable s ∧
    s.table.rows 1 = some deal ∧ deal.status = .closedLost ∧
    DealInv 1 deal (effectsOf 1 s.effects) ∧
    ∀ s', Later dealService s s' →
      ∃ deal', s'.table.rows 1 = some deal' ∧ deal'.status = .closedLost := by
  let everyone : Boundaries := ⟨fun _ => true, fun _ => true, fun _ => true, fun _ => true⟩
  obtain ⟨s, hs, hp⟩ := Machine.exists_reachable_of_run (M := dealService.machine)
    (s := ⟨.empty, [], fun _ => none⟩)
    [.create 0 1 ⟨everyone, none, 7, { title := "Villa" }⟩, .commit 0,
      .start 1 (.transition none 10 ⟨.closedLost, some "budget"⟩) 1,
      .start 2 (.transition none 11 ⟨.underContract, none⟩) 1, .read 1, .write 1, .commit 1,
      .rollback 2]
    (fun s => (s.table.rows 1).any fun deal => deal.status = .closedLost) rfl (by decide)
  obtain ⟨deal, hrow, hstatus⟩ := (Option.any_eq_true ..).mp hp
  have hstatus := of_decide_eq_true hstatus
  obtain ⟨hinv, hlater⟩ := deal_lifecycle hs hrow
  refine ⟨s, deal, hs, hrow, hstatus, hinv, fun s' h => ?_⟩
  rw [← hstatus]
  exact hlater (by rw [hstatus]; rfl) s' h

end Transactions

end RealEstate
