import RealEstate.Core.Events
import RealEstate.Core.Json
import RealEstate.Core.Exceptions
import RealEstate.Listings.Workflow
import RealEstate.Systems.UnitOfWork
import RealEstate.Systems.Uuid

/-!
# The seller form (`modules/valuations/service.py`)

A valuation request is filled in step by step by whoever holds its token, and completed once:
the completion stores the estimate, mints a lead in the CRM and stamps `completed_at`.

- `startRow`, `updateDetails`, `complete`: the steps, on the row that the token names.
- `valuations`: the requests as sessions over the table. None of them locks the row it reads.
- `Completed`: a completed request has one lead and one `lead.created`, any other none.
- `completed_once`: sessions that meet an uncompleted row complete it once, and nothing
  changes it any more.
-/

namespace RealEstate

namespace Valuations

open RealEstate.Core Systems
open Listings (PropertyType)

/-! ### The service -/

/-- One row of `valuation_requests`; prices and areas in hundredths. -/
structure ValuationRequest where
  tenantId : UUID
  address : JsonObject
  location : Option String
  propertyType : Option PropertyType := none
  areaBuilt : Option Nat := none
  beds : Option Int := none
  baths : Option Int := none
  floor : Option Int := none
  yearBuilt : Option Int := none
  details : JsonObject := []
  contactId : Option UUID := none
  leadId : Option UUID := none
  estimateLow : Option Nat := none
  estimateHigh : Option Nat := none
  currency : String := "DZD"
  compsCount : Option Nat := none
  completedAt : Option DateTime := none
  deriving DecidableEq

/-- `ValuationStartCreate`; the point as it is stored. -/
structure StartCreate where
  street : Option String
  city : String
  postalCode : Option String
  point : Option String

/-- The row that `start` adds. -/
def startRow (tenantId : UUID) (data : StartCreate) : ValuationRequest where
  tenantId
  address := [("street", data.street), ("city", some data.city), ("postal_code", data.postalCode)]
    |>.filterMap fun (k, v) => v.map fun v => (k, .str v)
  location := data.point

/-- `ValuationDetailsUpdate`: a column that is not set, or set to a value or to null. -/
structure DetailsUpdate where
  propertyType : Option (Option PropertyType) := none
  areaBuilt : Option (Option Nat) := none
  beds : Option (Option Int) := none
  baths : Option (Option Int) := none
  floor : Option (Option Int) := none
  yearBuilt : Option (Option Int) := none
  condition : Option String := none
  notes : Option String := none

/-- No such request. -/
def notFound : AppError := ⟨.notFound, "Valuation request not found."⟩

/-- `details.update`, with the extras that have a value. -/
def DetailsUpdate.details (data : DetailsUpdate) (details : JsonObject) : JsonObject :=
  [("condition", data.condition), ("notes", data.notes)].foldl
    (fun details (k, v) =>
      match v with
      | none => details
      | some v => details.set k (.str v)) details

/-- `update_details`, on the row that `_resolve` found. -/
def updateDetails (data : DetailsUpdate) (row : Option ValuationRequest) :
    Except AppError ValuationRequest :=
  match row with
  | none => .error notFound
  | some row =>
    if row.completedAt.isSome then .error notFound
    else .ok { row with
      propertyType := data.propertyType.getD row.propertyType
      areaBuilt := data.areaBuilt.getD row.areaBuilt
      beds := data.beds.getD row.beds
      baths := data.baths.getD row.baths
      floor := data.floor.getD row.floor
      yearBuilt := data.yearBuilt.getD row.yearBuilt
      details := data.details row.details }

/-- The comparable sales of the first radius with enough of them: their band, and how many
they are. -/
structure Comps where
  low : Nat
  high : Nat
  count : Nat

/-- `_estimate`. -/
def estimate (row : ValuationRequest) (comps : Option Comps) : Option Nat × Option Nat × Nat :=
  if row.location.isNone || row.propertyType.isNone || row.areaBuilt.isNone then (none, none, 0)
  else
    match comps with
    | none => (none, none, 0)
    | some comps => (some comps.low, some comps.high, comps.count)

/-- A captured lead, as far as its `lead.created` describes it. -/
structure Lead where
  id : UUID
  contactId : UUID
  agentId : Option UUID
  source : String
  sourceMeta : JsonObject
  message : Option String

/-- What a completion adds to the CRM. -/
inductive Effect where
  | lead (lead : Lead)
  | outbox (event : Events.DomainEvent)

/-- An id in a payload. -/
def uuidJson (id : UUID) : Json := .str (String.ofList (uuidText id))

/-- The `lead.created` of a capture. -/
def leadCreated (lead : Lead) : Events.DomainEvent where
  eventType := "lead.created"
  payload := [("leadId", uuidJson lead.id), ("contactId", uuidJson lead.contactId),
    ("agentId", lead.agentId.elim .null uuidJson), ("source", .str lead.source),
    ("listingId", .null)]

/-- `register_valuation_lead`, up to the activities. -/
def registerValuationLead (lead : Lead) : List Effect :=
  let lead := { lead with source := "valuation" }
  [.lead lead, .outbox (leadCreated lead)]

/-- `complete`, on the row that `_resolve` found. `lead` is the lead it registers. -/
def complete (now : DateTime) (comps : Option Comps) (lead : Lead)
    (row : Option ValuationRequest) : Except AppError (ValuationRequest × List Effect) :=
  match row with
  | none => .error notFound
  | some row =>
    if row.completedAt.isSome then
      .error ⟨.conflict, "This valuation request was already completed."⟩
    else
      let (low, high, compsCount) := estimate row comps
      .ok ({ row with
        estimateLow := low
        estimateHigh := high
        compsCount := some compsCount
        contactId := some lead.contactId
        leadId := some lead.id
        completedAt := some now }, registerValuationLead lead)

/-! ### Sessions -/

/-- `_resolve`, up to the row: `unsign` is what `unsign_value` makes of a token. -/
def resolve (unsign : Text → Option Text) (tenantId : UUID) (token : Text) : Option UUID :=
  (unsign token).bind fun value =>
    let (tenantPart, sep, idPart) := partition ':' value
    if sep = [] ∨ tenantPart ≠ uuidText tenantId then none else parseUuid idPart

/-- The requests of the valuation funnel. -/
inductive Op where
  | start (id tenantId : UUID) (data : StartCreate)
  | updateDetails (tenantId : UUID) (token : Text) (data : DetailsUpdate)
  /-- `hp` says whether the honeypot was filled. -/
  | complete (tenantId : UUID) (token : Text) (hp : Bool) (now : DateTime) (comps : Option Comps)
      (lead : Lead)

variable (unsign : Text → Option Text)

/-- The row an operation loads with `repo.get`. -/
def loads : Op → UUID → ValuationRequest → Bool
  | .start .., _, _ => false
  | .updateDetails tenantId token _, id, row | .complete tenantId token false _ _ _, id, row =>
    resolve unsign tenantId token = some id && row.tenantId = tenantId
  | .complete _ _ true _ _ _, _, _ => false

/-- What an operation writes. The completion's first `UPDATE`, of the estimate, takes the row
lock that its second finds; here they are one. -/
def plan (op : Op) (rows : List (UUID × ValuationRequest)) :
    Option (List (Write UUID ValuationRequest Effect)) :=
  match op with
  | .start id tenantId data => some [⟨id, .insert (startRow tenantId data), []⟩]
  | .updateDetails _ _ data =>
    (updateDetails data (rows.head?.map Prod.snd)).toOption.map fun edited =>
      rows.head?.toList.map fun (id, row) => ⟨id, .update row edited, []⟩
  | .complete _ _ hp now comps lead =>
    if hp then some []
    else
      (complete now comps lead (rows.head?.map Prod.snd)).toOption.map fun (edited, effects) =>
        rows.head?.toList.map fun (id, row) => ⟨id, .update row edited, effects⟩

/-- The `UPDATE` of the columns that were edited. -/
def overlay (read edited current : ValuationRequest) : ValuationRequest where
  tenantId := column read.tenantId edited.tenantId current.tenantId
  address := column read.address edited.address current.address
  location := column read.location edited.location current.location
  propertyType := column read.propertyType edited.propertyType current.propertyType
  areaBuilt := column read.areaBuilt edited.areaBuilt current.areaBuilt
  beds := column read.beds edited.beds current.beds
  baths := column read.baths edited.baths current.baths
  floor := column read.floor edited.floor current.floor
  yearBuilt := column read.yearBuilt edited.yearBuilt current.yearBuilt
  details := column read.details edited.details current.details
  contactId := column read.contactId edited.contactId current.contactId
  leadId := column read.leadId edited.leadId current.leadId
  estimateLow := column read.estimateLow edited.estimateLow current.estimateLow
  estimateHigh := column read.estimateHigh edited.estimateHigh current.estimateHigh
  currency := column read.currency edited.currency current.currency
  compsCount := column read.compsCount edited.compsCount current.compsCount
  completedAt := column read.completedAt edited.completedAt current.completedAt

/-- The valuation requests; the table has no unique index but its key. -/
def valuations : UnitOfWork UUID ValuationRequest Effect Unit Op where
  loads := loads unsign
  plan := plan
  overlay := overlay
  index _ := none

/-! ### Completed once -/

/-- A completed request has its lead and the event of that lead, any other has neither. -/
def Completed (row : ValuationRequest) (effects : List Effect) : Prop :=
  match row.completedAt with
  | none => row.leadId = none ∧ effects = []
  | some _ => ∃ lead, row.leadId = some lead.id ∧ effects = registerValuationLead lead

/-- The `UPDATE` of a request meets a row that is not completed. -/
def Open (_ : Op) (_ : Write UUID ValuationRequest Effect) (current : ValuationRequest) : Prop :=
  current.completedAt = none

/-- Whether a request is still open is read off its row. -/
instance (op : Op) (w : Write UUID ValuationRequest Effect) (current : ValuationRequest) :
    Decidable (Open op w current) :=
  inferInstanceAs (Decidable (_ = _))

variable {unsign}

/-- Details change an open request, which stays open. -/
theorem completedAt_updateDetails {data : DetailsUpdate} {row edited : ValuationRequest}
    (h : updateDetails data (some row) = .ok edited) :
    row.completedAt = none ∧ edited.completedAt = row.completedAt ∧ edited.leadId = row.leadId := by
  unfold updateDetails at h
  dsimp only at h
  split at h
  · cases h
  · next hopen =>
    cases h
    exact ⟨Option.not_isSome_iff_eq_none.1 hopen, rfl, rfl⟩

/-- A completion is of an open request. -/
theorem complete_eq_ok {now : DateTime} {comps : Option Comps} {lead : Lead}
    {row edited : ValuationRequest} {effects : List Effect}
    (h : complete now comps lead (some row) = .ok (edited, effects)) :
    row.completedAt = none ∧ edited.completedAt = some now ∧ edited.leadId = some lead.id ∧
      effects = registerValuationLead lead := by
  unfold complete at h
  dsimp only at h
  split at h
  · cases h
  · next hopen =>
    cases h
    exact ⟨Option.not_isSome_iff_eq_none.1 hopen, rfl, rfl, rfl⟩

/-- What the operations plan: a new row, details, or a completion. -/
inductive Planned (P : UUID → ValuationRequest → List Effect → Prop) :
    Write UUID ValuationRequest Effect → Prop where
  | start (id tenantId : UUID) (data : StartCreate) :
    Planned P ⟨id, .insert (startRow tenantId data), []⟩
  | details {id : UUID} {row edited : ValuationRequest} {data : DetailsUpdate}
    (hrow : ∃ es, P id row es) (h : updateDetails data (some row) = .ok edited) :
    Planned P ⟨id, .update row edited, []⟩
  | completion {id : UUID} {row edited : ValuationRequest} {now : DateTime}
    {comps : Option Comps} {lead : Lead} {effects : List Effect} (hrow : ∃ es, P id row es)
    (h : complete now comps lead (some row) = .ok (edited, effects)) :
    Planned P ⟨id, .update row edited, effects⟩

/-- What the requests plan, one by one. -/
theorem planned_of_plans {P : UUID → ValuationRequest → List Effect → Prop} {op : Op}
    {w : Write UUID ValuationRequest Effect} (h : (valuations unsign).Plans P op w) :
    Planned P w := by
  obtain ⟨rows, writes, hrows, hplan, hw⟩ := h
  cases op with
  | start id tenantId data =>
    cases hplan
    obtain rfl := List.mem_singleton.1 hw
    exact .start id tenantId data
  | updateDetails tenantId token data =>
    obtain ⟨edited, hedited, rfl⟩ := Option.map_eq_some_iff.1 hplan
    cases rows with
    | nil => cases hw
    | cons row rows =>
      obtain rfl := List.mem_singleton.1 hw
      exact .details (hrows row List.mem_cons_self).2 (toOption_eq_some hedited)
  | complete tenantId token hp now comps lead =>
    -- The honeypot answers as if it had been completed, and writes nothing.
    cases hp with
    | true =>
      cases hplan
      cases hw
    | false =>
      obtain ⟨⟨edited, effects⟩, hedited, rfl⟩ := Option.map_eq_some_iff.1 hplan
      cases rows with
      | nil => cases hw
      | cons row rows =>
        obtain rfl := List.mem_singleton.1 hw
        exact .completion (hrows row List.mem_cons_self).2 (toOption_eq_some hedited)

/-- An open request has no lead and no effects. -/
theorem Completed.leadId_eq {row : ValuationRequest} {es : List Effect} (h : Completed row es)
    (hopen : row.completedAt = none) : row.leadId = none ∧ es = [] := by
  rw [Completed, hopen] at h
  exact h

/-- Details of a row that nobody has completed leave it uncompleted. -/
theorem Completed.details {data : DetailsUpdate} {read edited current : ValuationRequest}
    {es : List Effect} (h : Completed current es) (hcurrent : current.completedAt = none)
    (hedited : updateDetails data (some read) = .ok edited) :
    Completed (overlay read edited current) es := by
  obtain ⟨hopen, hcompleted, hlead⟩ := completedAt_updateDetails hedited
  have hcompletedAt : (overlay read edited current).completedAt = none := by
    show column _ edited.completedAt _ = none
    rw [hcompleted, column_unedited, hcurrent]
  rw [Completed, hcompletedAt]
  refine ⟨?_, (h.leadId_eq hcurrent).2⟩
  show column _ edited.leadId _ = none
  rw [hlead, column_unedited, (h.leadId_eq hcurrent).1]

/-- A completion of a row that nobody has completed. -/
theorem Completed.complete {now : DateTime} {comps : Option Comps} {lead : Lead}
    {read edited current : ValuationRequest} {es effects : List Effect} (h : Completed current es)
    (hcurrent : current.completedAt = none) (hread : ∃ es, Completed read es)
    (hedited : Valuations.complete now comps lead (some read) = .ok (edited, effects)) :
    Completed (overlay read edited current) (es ++ effects) := by
  obtain ⟨hopen, hcompleted, hlead, rfl⟩ := complete_eq_ok hedited
  obtain ⟨es', hread⟩ := hread
  have hcompletedAt : (overlay read edited current).completedAt = some now := by
    show column read.completedAt edited.completedAt _ = some now
    rw [hopen, hcompleted]
    rfl
  rw [Completed, hcompletedAt]
  refine ⟨lead, ?_, ?_⟩
  · show column read.leadId edited.leadId _ = some lead.id
    rw [(hread.leadId_eq hopen).1, hlead]
    rfl
  · rw [(h.leadId_eq hcurrent).2]
    rfl

/-- The row versions after a completion: there are none. -/
def Final (old new : ValuationRequest) : Prop := old.completedAt.isSome → new = old

/-- From an open request everything is allowed. -/
theorem final_of_open {old new : ValuationRequest} (h : old.completedAt = none) :
    Final old new := by
  intro hsome
  rw [h] at hsome
  cases hsome

/-- Every request keeps it: completed once, then final. -/
theorem keeps_completed : (valuations unsign).Keeps Open (fun _ => Completed) Final where
  refl _ _ := rfl
  trans u v w huv hvw hu := by
    obtain rfl := huv hu
    exact hvw hu
  insert hplans hchange := by
    cases planned_of_plans hplans with
    | start id tenantId data =>
      cases hchange
      exact ⟨rfl, rfl⟩
    | details | completion => cases hchange
  update hplans hchange hopen hcurrent := by
    cases planned_of_plans hplans with
    | start => cases hchange
    | details hrow hedited =>
      cases hchange
      rw [List.append_nil]
      exact ⟨hcurrent.details hopen hedited, final_of_open hopen⟩
    | completion hrow hedited =>
      cases hchange
      exact ⟨hcurrent.complete hopen hrow hedited, final_of_open hopen⟩
  delete hplans hchange := by
    cases planned_of_plans hplans <;> cases hchange

/-- **Completed once.** Where every `UPDATE` of a request meets a row that is not completed, a
request has at most one lead and one `lead.created`, those of its one completion, and a
completed request never changes again. -/
theorem completed_once {s s' : UnitOfWork.State UUID ValuationRequest Effect Op}
    (h : (valuations unsign).machine.ReachVia (UnitOfWork.Meets Open) s)
    (hlater : ((valuations unsign).machine.startingAt s).ReachVia (UnitOfWork.Meets Open) s')
    {id : UUID} {row : ValuationRequest} (hrow : s.table.rows id = some row) :
    Completed row (RowService.effectsOf id s.log) ∧
      (row.completedAt.isSome → s'.table.rows id = some row) := by
  refine ⟨keeps_completed.committed h hrow, fun hcompleted => ?_⟩
  obtain ⟨row', hrow', hfinal⟩ := keeps_completed.later h hlater hrow
  rw [hrow', hfinal hcompleted]

/-! ### Two submissions -/

/-- The request 1 of the tenant 5, under a signature that lets every text through. -/
def seller : Text := uuidText 5 ++ ':' :: uuidText 1

/-- A request is started. -/
def started (id : UUID) : List (UnitOfWork.Label Op) :=
  [.load 0 (.start id 5 ⟨none, "Oran", none, none⟩), .flush 0, .commit 0]

/-- It is submitted. -/
def submission (lead : UUID) : Op :=
  .complete 5 seller false 10 none ⟨lead, 3, none, "", [], none⟩

/-- The request is completed. Later a robot fills the honeypot, the seller asks about
another property, and the request 1 is what it was. -/
theorem completed_once_sequential :
    ∃ (s s' : UnitOfWork.State UUID ValuationRequest Effect Op) (row : ValuationRequest),
      s.table.rows 1 = some row ∧ row.completedAt = some 10 ∧
        Completed row (RowService.effectsOf 1 s.log) ∧ (s'.table.rows 2).isSome ∧
          s'.table.rows 1 = some row := by
  obtain ⟨s, s', hs, hs', hp⟩ := Machine.exists_later_of_runVia (M := (valuations some).machine)
    (G := UnitOfWork.Meets Open) (s := .empty)
    (started 1 ++ [.load 1 (submission 7), .flush 1, .commit 1])
    (.load 2 (.complete 5 seller true 20 none ⟨8, 3, none, "", [], none⟩) :: .commit 2 ::
      started 2)
    (fun s s' => (s.table.rows 1).any (·.completedAt = some 10) && (s'.table.rows 2).isSome)
    rfl (by decide)
  obtain ⟨hcompleted, hother⟩ := Bool.and_eq_true_iff.1 hp
  obtain ⟨row, hrow, htime⟩ := (Option.any_eq_true _ _).1 hcompleted
  have htime : row.completedAt = some 10 := of_decide_eq_true htime
  obtain ⟨honce, hfinal⟩ := completed_once hs hs' hrow
  exact ⟨s, s', row, hrow, htime, honce, hother, hfinal (by rw [htime]; rfl)⟩

/-- Two submissions read the request before either commits: it is completed twice, with two
leads and two events. -/
theorem submitted_twice : ¬ ∀ s, (valuations some).machine.Reachable s →
    ∀ id row, s.table.rows id = some row → Completed row (RowService.effectsOf id s.log) := by
  intro hclaim
  obtain ⟨s, hs, hp⟩ := Machine.exists_reachable_of_run (M := (valuations some).machine)
    (s := .empty) (started 1 ++ [.load 1 (submission 7), .load 2 (submission 8), .flush 1,
      .commit 1, .flush 2, .commit 2])
    (fun s => (s.table.rows 1).isSome && (RowService.effectsOf 1 s.log).length = 4)
    rfl (by decide)
  obtain ⟨hrow, hlength⟩ := Bool.and_eq_true_iff.1 hp
  obtain ⟨row, hrow⟩ := Option.isSome_iff_exists.1 hrow
  have hcompleted := hclaim s hs 1 row hrow
  have hfour := of_decide_eq_true hlength
  unfold Completed at hcompleted
  split at hcompleted
  · rw [hcompleted.2] at hfour
    cases hfour
  · obtain ⟨lead, -, heffects⟩ := hcompleted
    rw [heffects] at hfour
    cases hfour

end Valuations

end RealEstate
