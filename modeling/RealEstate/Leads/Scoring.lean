import RealEstate.Leads.Assignment
import RealEstate.Leads.Patches

/-!
# Lead scores (`modules/leads/service.py`, `integrations/ai/scoring.py`)

The score of a lead is stored in its row. It depends on the source, the listing and the activities
of the lead, and on the clock; every operation is left to compute it again.

- `score`, `features`, `recomputeScore`: the scorer and what it is given.
- `machine`: the operations that create or change a lead, or add to its timeline.
- `score_current`: after which operations the stored score is the scorer's.
- `no_show_score`: when a no-show does not raise a score.
-/

namespace RealEstate

namespace Leads

namespace Scoring

open RealEstate.Core Systems Users
open Assignment (LeadSource LeadRow Directory assignLead)
open Patches (Rejected raise LeadUpdate managesAll flushReference)

/-! ### The scorer -/

/-- `LeadScoringFeatures`. -/
structure LeadScoringFeatures where
  sourceWeight : Int
  attachedToListing : Bool
  engagementCount : Nat
  daysSinceLastActivity : Int
  noShowCount : Nat

/-- `RulesLeadScorer.score`. -/
def score (features : LeadScoringFeatures) : Int :=
  let score := features.sourceWeight
  let score := score + if features.attachedToListing then 15 else 0
  let score := score + min (features.engagementCount * 5 : Int) 25
  let score := score - min features.daysSinceLastActivity 20
  let score := score - features.noShowCount * 15
  max 0 (min 100 score)

/-- `_SOURCE_WEIGHT`. -/
def sourceWeight : LeadSource → Int
  | .phone => 40
  | .listingForm => 30
  | .portal => 25
  | .valuation => 25
  | .whatsappClick => 30
  | .tourRequest => 35
  | .chat => 20
  | .mortgage => 15
  | .marketReport => 15
  | .searchSignup => 15
  | .ad => 10
  | .other => 5

/-! ### Rows -/

/-- `ActivityType`. -/
inductive ActivityType where
  | note
  | call
  | email
  | sms
  | statusChange
  | assignment
  | tour
  | noShow
  | system
  deriving DecidableEq, Repr

/-- A row of `lead_activities`. -/
structure LeadActivity where
  tenantId : Uuid
  leadId : Uuid
  actorId : Option Uuid
  type : ActivityType
  createdAt : DateTime
  deriving DecidableEq

/-- The two tables that a score is made from. -/
structure Tables where
  leads : List LeadRow
  activities : List LeadActivity

namespace Tables

/-- A lead more. -/
def insert (s : Tables) (lead : LeadRow) : Tables := { s with leads := lead :: s.leads }

/-- The changed attributes of a lead are flushed. -/
def save (s : Tables) (lead : LeadRow) : Tables :=
  { s with leads := s.leads.map fun row => if row.id = lead.id then lead else row }

/-- An activity more. -/
def add (s : Tables) (activity : LeadActivity) : Tables :=
  { s with activities := activity :: s.activities }

/-- `LeadsRepository.get_lead`. -/
def getLead (s : Tables) (tenantId leadId : Uuid) (scope : Option (List Uuid)) : Option LeadRow :=
  s.leads.find? fun lead => lead.tenantId = tenantId ∧
    scope.all (fun ids => lead.agentId.any (· ∈ ids)) ∧ lead.id = leadId

/-- `LeadsRepository.list_activities_for_lead`; the order is of no consequence here. -/
def listActivitiesForLead (s : Tables) (tenantId leadId : Uuid) : List LeadActivity :=
  s.activities.filter fun activity => activity.tenantId = tenantId ∧ activity.leadId = leadId

/-- The foreign key of `lead_activities`. -/
def References (s : Tables) : Prop :=
  ∀ activity ∈ s.activities, activity.leadId ∈ s.leads.map LeadRow.id

end Tables

/-! ### Features -/

/-- What counts as engagement. -/
def engages (type : ActivityType) : Bool := type ≠ .system ∧ type ≠ .noShow

/-- The last activity, or the creation of a lead without one. -/
def lastAt (lead : LeadRow) (activities : List LeadActivity) : DateTime :=
  (activities.map LeadActivity.createdAt).max?.getD lead.createdAt

/-- Whole days; `timedelta.days` is a floor. -/
def daysSince (now last : DateTime) : Int := max ((now - last) / 86400) 0

/-- The feature vector of `_recompute_score`. -/
def features (now : DateTime) (lead : LeadRow) (activities : List LeadActivity) :
    LeadScoringFeatures where
  sourceWeight := sourceWeight lead.source
  attachedToListing := lead.listingId.isSome
  engagementCount := activities.countP fun a => engages a.type
  daysSinceLastActivity := daysSince now (lastAt lead activities)
  noShowCount := activities.countP fun a => a.type = .noShow

/-- What the scorer gives to a lead with all its activities. -/
def scoreOf (now : DateTime) (tenantId : Uuid) (s : Tables) (lead : LeadRow) : Int :=
  score (features now lead (s.listActivitiesForLead tenantId lead.id))

/-- `_recompute_score`. -/
def recomputeScore (now : DateTime) (tenantId : Uuid) (s : Tables) (lead : LeadRow) : LeadRow :=
  { lead with score := scoreOf now tenantId s lead }

/-! ### Operations

Rows are created at the instant of the operation. Contacts and listings that a request names have
been looked up. -/

section

variable {Area Point : Type} (contains : Area → Point → Bool) (directory : Directory Area Point)
  (now : DateTime) (tenantId : Uuid) (s : Tables)

/-- What `_create_captured_lead` is given. -/
structure Capture where
  contactId : Uuid
  listingId : Option Uuid
  source : LeadSource
  message : Option String
  forcedAgentId : Option Uuid := none

/-- `if message`. -/
def Capture.hasMessage (data : Capture) : Bool := data.message.any (· ≠ "")

/-- The row that is inserted. -/
def Capture.lead (data : Capture) (id : Uuid) : LeadRow where
  id
  tenantId
  contactId := data.contactId
  listingId := data.listingId
  source := data.source
  createdAt := now

/-- Whom a capture is assigned to. -/
def assignedAgent (leads : List LeadRow) (lead : LeadRow) : Option Uuid → Option Uuid
  | some forced =>
    if (getIdentityIfActive directory.users (some tenantId) forced).isSome then some forced
    else none
  | none => assignLead contains directory leads tenantId lead

/-- An entry that no user made. -/
def systemActivity (leadId : Uuid) (type : ActivityType) : LeadActivity where
  tenantId
  leadId
  actorId := none
  type
  createdAt := now

/-- The agent of a captured lead. -/
def Capture.agentId (data : Capture) (id : Uuid) : Option Uuid :=
  let lead := data.lead now tenantId id
  assignedAgent contains directory tenantId (lead :: s.leads)
    (recomputeScore now tenantId (s.insert lead) lead) data.forcedAgentId

/-- `_create_captured_lead`. The score is computed before the activities are written. -/
def createCapturedLead (id : Uuid) (data : Capture) : Tables :=
  let agentId := data.agentId contains directory now tenantId s id
  let lead := data.lead now tenantId id
  let s := s.insert lead
  let lead := recomputeScore now tenantId s lead
  let s := s.save { lead with agentId }
  let s := if data.hasMessage then s.add (systemActivity now tenantId id .note) else s
  if agentId.isSome then s.add (systemActivity now tenantId id .assignment) else s

/-- The surfaces that capture leads. -/
inductive Surface where
  | captureLead (listingId : Option Uuid) (source : LeadSource) (message : Option String)
  | captureWhatsappClick (listingId : Option Uuid) (message : Option String)
  | registerSignupLead
  | registerTourRequest (listingId : Option Uuid) (message : Option String) (agentUserId : Uuid)
  | registerValuationLead (message : Option String)
  | registerMortgageLead (listingId : Option Uuid)
  | registerReportDownloadLead

/-- What each of them hands to `_create_captured_lead`. -/
def Surface.capture (contactId : Uuid) : Surface → Capture
  | .captureLead listingId source message => ⟨contactId, listingId, source, message, none⟩
  | .captureWhatsappClick listingId message =>
    ⟨contactId, listingId, .whatsappClick, message, none⟩
  | .registerSignupLead => ⟨contactId, none, .searchSignup, none, none⟩
  | .registerTourRequest listingId message agentUserId =>
    ⟨contactId, listingId, .tourRequest, message, some agentUserId⟩
  | .registerValuationLead message => ⟨contactId, none, .valuation, message, none⟩
  | .registerMortgageLead listingId => ⟨contactId, listingId, .mortgage, none, none⟩
  | .registerReportDownloadLead => ⟨contactId, none, .marketReport, none, none⟩

/-- Three of them add what the visitor asked for to the timeline. -/
def Surface.describes : Surface → Bool
  | .registerValuationLead _ | .registerMortgageLead _ | .registerReportDownloadLead => true
  | _ => false

/-- A capture on a surface. -/
def Surface.enter (surface : Surface) (id contactId : Uuid) : Tables :=
  let s := createCapturedLead contains directory now tenantId s id (surface.capture contactId)
  if surface.describes then s.add (systemActivity now tenantId id .system) else s

/-- `LeadCreate`, of a contact that was found or created. -/
structure LeadCreate where
  contactId : Uuid
  listingId : Option Uuid
  source : LeadSource
  agentId : Option Uuid

/-- The agent is named by an id that no active user of the tenant has. -/
def unknownAgent (agentId : Option Uuid) : Bool :=
  agentId.any fun id => (getIdentityIfActive directory.users (some tenantId) id).isNone

/-- `create_manual`. -/
def createManual (id : Uuid) (data : LeadCreate) : Except Rejected Tables :=
  if unknownAgent directory tenantId data.agentId then
    raise .conflict "The assigned agent does not exist or is not active."
  else
    let lead : LeadRow := { id, tenantId, contactId := data.contactId,
                            listingId := data.listingId, agentId := data.agentId,
                            source := data.source, createdAt := now }
    let s := s.insert lead
    let lead := match data.agentId with
      | none => { lead with agentId := assignLead contains directory s.leads tenantId lead }
      | some _ => lead
    .ok (s.save (recomputeScore now tenantId s lead))

/-- Who makes a request; `scope` is what `_scope_for` gives. -/
structure Actor where
  id : Uuid
  role : Role
  scope : Option (List Uuid) := none

/-- `_get_scoped_lead_or_404`. -/
def getScopedLeadOr404 (actor : Actor) (leadId : Uuid) : Except Rejected LeadRow :=
  match s.getLead tenantId leadId actor.scope with
  | some lead => .ok lead
  | none => raise .notFound "Lead not found."

/-- The checks of `update` on the fields that are set. -/
def checkPatch (actor : Actor) (data : LeadUpdate) : Except Rejected Unit := do
  if data.agentId.isSome then
    if !managesAll actor.role then raise .permissionDenied "Only managers can reassign a lead."
    else if unknownAgent directory tenantId data.agentId.join then
      raise .conflict "The assigned agent does not exist or is not active."
  flushReference "listing_id" (fun id => (directory.listings id).isSome) data.listingId

/-- The attributes that a patch sets. -/
def patched (lead : LeadRow) (data : LeadUpdate) : LeadRow :=
  { lead with
    agentId := data.agentId.getD lead.agentId
    listingId := data.listingId.getD lead.listingId }

/-- `update`. -/
def update (actor : Actor) (leadId : Uuid) (data : LeadUpdate) : Except Rejected Tables := do
  let lead ← getScopedLeadOr404 tenantId s actor leadId
  checkPatch directory tenantId actor data
  return s.save (patched lead data)

/-- An activity is added and the score computed again. -/
def addAndRescore (lead : LeadRow) (activity : LeadActivity) : Tables :=
  let s := s.add activity
  s.save (recomputeScore now tenantId s lead)

/-- `transition_stage`. -/
def transitionStage (actor : Actor) (leadId : Uuid) (toStage : LeadStage)
    (lostReason : Option String) : Except Rejected Tables := do
  let lead ← getScopedLeadOr404 tenantId s actor leadId
  if toStage = .lost ∧ lostReason.all (· = "") then
    raise .conflict "A reason is required when marking a lead lost."
  else
    let lead := { lead with
      stage := toStage
      lostReason := if toStage = .lost then lostReason else lead.lostReason }
    return addAndRescore now tenantId s lead
      ⟨tenantId, lead.id, some actor.id, .statusChange, now⟩

/-- `agent_authored_types`. -/
def agentAuthored (type : ActivityType) : Bool :=
  type ∈ [ActivityType.note, .call, .email, .sms]

/-- `record_activity`. -/
def recordActivity (actor : Actor) (leadId : Uuid) (type : ActivityType) :
    Except Rejected Tables := do
  let lead ← getScopedLeadOr404 tenantId s actor leadId
  let lead := { lead with
    firstResponseAt :=
      if lead.firstResponseAt.isNone && agentAuthored type then some now
      else lead.firstResponseAt }
  return addAndRescore now tenantId s lead ⟨tenantId, lead.id, some actor.id, type, now⟩

/-- An event of a tour; nothing is done for a lead that is gone. -/
def tourEvent (type : ActivityType) (leadId : Uuid) : Tables :=
  match s.getLead tenantId leadId none with
  | none => s
  | some lead => addAndRescore now tenantId s lead (systemActivity now tenantId lead.id type)

/-- `log_tour_activity`. -/
def logTourActivity (leadId : Uuid) : Tables := tourEvent now tenantId s .tour leadId

/-- `record_no_show`. -/
def recordNoShow (leadId : Uuid) : Tables := tourEvent now tenantId s .noShow leadId

end

/-! ### Runs -/

/-- A request on leads. -/
inductive Operation where
  | capture (id contactId : Uuid) (surface : Surface)
  | createManual (id : Uuid) (data : LeadCreate)
  | update (leadId : Uuid) (data : LeadUpdate)
  | transitionStage (leadId : Uuid) (toStage : LeadStage) (lostReason : Option String)
  | recordActivity (leadId : Uuid) (type : ActivityType)
  | logTourActivity (leadId : Uuid)
  | recordNoShow (leadId : Uuid)

namespace Operation

/-- The lead that an operation is about. -/
def leadId : Operation → Uuid
  | .capture id _ _ | .createManual id _ | .update id _ | .transitionStage id _ _
  | .recordActivity id _ | .logTourActivity id | .recordNoShow id => id

/-- The lead is created. -/
def creates : Operation → Bool
  | .capture _ _ _ | .createManual _ _ => true
  | _ => false

end Operation

/-- An operation, with the clock and what the other modules have on record. -/
structure Label (Area Point : Type) where
  directory : Directory Area Point
  now : DateTime
  tenantId : Uuid
  actor : Actor
  operation : Operation

section

variable {Area Point : Type} (contains : Area → Point → Bool)

/-- What a request makes of the tables. -/
def perform (s : Tables) (l : Label Area Point) : Except Rejected Tables :=
  match l.operation with
  | .capture id contactId surface =>
    .ok (surface.enter contains l.directory l.now l.tenantId s id contactId)
  | .createManual id data => createManual contains l.directory l.now l.tenantId s id data
  | .update leadId data => update l.directory l.tenantId s l.actor leadId data
  | .transitionStage leadId toStage lostReason =>
    transitionStage l.now l.tenantId s l.actor leadId toStage lostReason
  | .recordActivity leadId type => recordActivity l.now l.tenantId s l.actor leadId type
  | .logTourActivity leadId => .ok (logTourActivity l.now l.tenantId s leadId)
  | .recordNoShow leadId => .ok (recordNoShow l.now l.tenantId s leadId)

/-- A new lead has an id of its own, and a rejected operation is rolled back. -/
def machine : Machine Tables (Label Area Point) where
  init := Tables.References
  step s l :=
    if l.operation.creates ∧ l.operation.leadId ∈ s.leads.map LeadRow.id then none
    else (perform contains s l).toOption

end

/-- The stored score is the scorer's. -/
def Current (now : DateTime) (tenantId : Uuid) (s : Tables) (leadId : Uuid) : Prop :=
  ∀ row ∈ s.leads, row.tenantId = tenantId → row.id = leadId →
    row.score = scoreOf now tenantId s row

/-- Over the rows. -/
instance (now : DateTime) (tenantId : Uuid) (s : Tables) (leadId : Uuid) :
    Decidable (Current now tenantId s leadId) :=
  inferInstanceAs (Decidable (∀ row ∈ s.leads, _ → _ → _))

/-- A capture writes no note and assigns nobody; a patch leaves a score that is the scorer's for
the lead as patched. -/
def Settled {Area Point : Type} (contains : Area → Point → Bool) (s : Tables)
    (l : Label Area Point) : Prop :=
  match l.operation with
  | .capture id contactId surface =>
    (surface.capture contactId).hasMessage = false ∧
      (surface.capture contactId).agentId contains l.directory l.now l.tenantId s id = none
  | .update leadId data => ∀ lead ∈ s.getLead l.tenantId leadId l.actor.scope,
      lead.score = scoreOf l.now l.tenantId s (patched lead data)
  | _ => True

/-- The points of a lead before they decay. -/
def points (lead : LeadRow) (activities : List LeadActivity) : Int :=
  sourceWeight lead.source + (if lead.listingId.isSome then 15 else 0) +
    min ((activities.countP fun a => engages a.type) * 5 : Int) 25 -
    (activities.countP fun a => a.type = .noShow) * 15

/-! ### Scores -/

theorem sourceWeight_bounds (source : LeadSource) :
    5 ≤ sourceWeight source ∧ sourceWeight source ≤ 40 := by
  cases source <;> decide

/-- At most eighty points are gathered, so a score is only cut off below. -/
theorem score_eq (source : LeadSource) (attached : Bool) (engagement noShows : Nat) {days : Int}
    (h : 0 ≤ days) :
    score ⟨sourceWeight source, attached, engagement, days, noShows⟩ =
      max 0 (sourceWeight source + (if attached then 15 else 0) + min (engagement * 5 : Int) 25 -
        min days 20 - noShows * 15) := by
  have hweight := sourceWeight_bounds source
  have hattached : (if attached then 15 else 0 : Int) ≤ 15 := by cases attached <;> decide
  have hengaged : min (engagement * 5 : Int) 25 ≤ 25 := min_le_right _ _
  have hdecay : 0 ≤ min days 20 := le_min h (by decide)
  refine congrArg (max 0) (min_eq_right ?_)
  dsimp only
  omega

/-- Engagement raises the score of a lead without decay or no-shows. -/
theorem score_engagement_iff (source : LeadSource) (attached : Bool) (engagement : Nat) :
    score ⟨sourceWeight source, attached, 0, 0, 0⟩ =
      score ⟨sourceWeight source, attached, engagement, 0, 0⟩ ↔ engagement = 0 := by
  have hweight := sourceWeight_bounds source
  have hattached : (0 : Int) ≤ if attached then 15 else 0 := by cases attached <;> decide
  rw [score_eq source attached 0 0 le_rfl, score_eq source attached engagement 0 le_rfl]
  generalize (if attached then 15 else 0 : Int) = bonus at hattached ⊢
  omega

/-- A no-show without decay against the decay alone. -/
theorem score_noShow_le_iff (source : LeadSource) (attached : Bool) (engagement noShows : Nat)
    {days : Int} (h : 0 ≤ days) :
    score ⟨sourceWeight source, attached, engagement, 0, noShows + 1⟩ ≤
      score ⟨sourceWeight source, attached, engagement, days, noShows⟩ ↔
    days ≤ 15 ∨ sourceWeight source + (if attached then 15 else 0) +
      min (engagement * 5 : Int) 25 - noShows * 15 ≤ 15 := by
  have hshows : score ⟨sourceWeight source, attached, engagement, 0, noShows + 1⟩ = _ :=
    score_eq source attached engagement (noShows + 1) le_rfl
  rw [hshows, score_eq source attached engagement noShows h]
  generalize sourceWeight source + (if attached then 15 else 0) +
    min (engagement * 5 : Int) 25 = points
  omega

/-! ### Reads and writes -/

section

variable {now : DateTime} {tenantId leadId : Uuid} {s : Tables} {lead : LeadRow}

theorem of_getLead {scope : Option (List Uuid)}
    (h : s.getLead tenantId leadId scope = some lead) :
    lead ∈ s.leads ∧ lead.tenantId = tenantId ∧ lead.id = leadId := by
  unfold Tables.getLead at h
  have hfound := List.find?_some h
  obtain ⟨htenant, -, hid⟩ := of_decide_eq_true hfound
  exact ⟨List.mem_of_find?_eq_some h, htenant, hid⟩

/-- The rows under the id of a lead that has been saved. -/
theorem eq_of_mem_save {row : LeadRow} (h : row ∈ (s.save lead).leads) (hid : row.id = lead.id) :
    row = lead := by
  obtain ⟨old, -, rfl⟩ := List.mem_map.1 h
  by_cases hold : old.id = lead.id
  · exact if_pos hold
  · rw [if_neg hold] at hid
    exact absurd hid hold

/-- A lead that is saved is in the table. -/
theorem mem_save (h : lead.id ∈ s.leads.map LeadRow.id) : lead ∈ (s.save lead).leads := by
  obtain ⟨old, hold, hid⟩ := List.mem_map.1 h
  exact List.mem_map.2 ⟨old, hold, if_pos hid⟩

theorem ids_save : (s.save lead).leads.map LeadRow.id = s.leads.map LeadRow.id := by
  unfold Tables.save
  rw [List.map_map]
  refine List.map_congr_left fun row _ => ?_
  show LeadRow.id (ite _ _ _) = row.id
  by_cases hid : row.id = lead.id
  · rw [if_pos hid, hid]
  · rw [if_neg hid]

/-- A lead's activities after one more. -/
theorem listActivitiesForLead_add (activity : LeadActivity) :
    (s.add activity).listActivitiesForLead tenantId leadId =
      if activity.tenantId = tenantId ∧ activity.leadId = leadId then
        activity :: s.listActivitiesForLead tenantId leadId
      else s.listActivitiesForLead tenantId leadId := by
  unfold Tables.listActivitiesForLead Tables.add
  rw [List.filter_cons]
  simp only [decide_eq_true_eq]

/-! ### References -/

namespace Tables.References

theorem insert (h : s.References) (lead : LeadRow) : (s.insert lead).References :=
  fun activity hactivity => List.mem_cons_of_mem _ (h activity hactivity)

theorem save (h : s.References) (lead : LeadRow) : (s.save lead).References := by
  intro activity hactivity
  rw [ids_save]
  exact h activity hactivity

theorem add (h : s.References) {activity : LeadActivity}
    (hlead : activity.leadId ∈ s.leads.map LeadRow.id) : (s.add activity).References := by
  intro other hother
  rcases List.mem_cons.1 hother with rfl | hother
  · exact hlead
  · exact h other hother

/-- A lead that is not there has no activities. -/
theorem listActivitiesForLead_eq_nil (h : s.References) (hnew : leadId ∉ s.leads.map LeadRow.id) :
    s.listActivitiesForLead tenantId leadId = [] := by
  refine List.filter_eq_nil_iff.2 fun activity hactivity hmatch => hnew ?_
  rw [← (of_decide_eq_true hmatch).2]
  exact h activity hactivity

end Tables.References


/-! ### One operation -/

/-- A score computed last is current. -/
theorem current_recomputeScore (s : Tables) (lead : LeadRow) :
    Current now tenantId (s.save (recomputeScore now tenantId s lead)) lead.id := by
  intro row hrow _ hid
  rw [eq_of_mem_save hrow hid]
  rfl

/-- An activity of a lead was added and its score computed again. -/
def Rescored (now : DateTime) (tenantId leadId : Uuid) (s t : Tables) : Prop :=
  ∃ lead activity, leadId ∈ s.leads.map LeadRow.id ∧ lead.id = leadId ∧
    activity.leadId = leadId ∧ addAndRescore now tenantId s lead activity = t

/-- A score that was just computed is current. -/
theorem Rescored.current {t : Tables} (h : Rescored now tenantId leadId s t) :
    Current now tenantId t leadId := by
  obtain ⟨lead, activity, -, rfl, -, rfl⟩ := h
  exact current_recomputeScore (s.add activity) lead

theorem Rescored.references {t : Tables} (h : Rescored now tenantId leadId s t)
    (hs : s.References) : t.References := by
  obtain ⟨lead, activity, hmem, -, hlead, rfl⟩ := h
  refine (hs.add ?_).save _
  rw [hlead]
  exact hmem

/-- A lead within the actor's scope. -/
theorem getScopedLead_eq_ok {actor : Actor}
    (h : getScopedLeadOr404 tenantId s actor leadId = .ok lead) :
    s.getLead tenantId leadId actor.scope = some lead := by
  unfold getScopedLeadOr404 at h
  split at h
  · next hlead =>
    cases h
    exact hlead
  · cases h

theorem mem_ids_of_getLead {scope : Option (List Uuid)}
    (h : s.getLead tenantId leadId scope = some lead) : leadId ∈ s.leads.map LeadRow.id := by
  obtain ⟨hmem, -, hid⟩ := of_getLead h
  exact List.mem_map.2 ⟨lead, hmem, hid⟩

/-- A move to another stage rescores the lead. -/
theorem rescored_of_transitionStage {actor : Actor} {toStage : LeadStage}
    {lostReason : Option String} {t : Tables}
    (h : transitionStage now tenantId s actor leadId toStage lostReason = .ok t) :
    Rescored now tenantId leadId s t := by
  unfold transitionStage at h
  cases hlead : getScopedLeadOr404 tenantId s actor leadId with
  | error e =>
    rw [hlead] at h
    cases h
  | ok lead =>
    rw [hlead] at h
    replace h : (if toStage = .lost ∧ lostReason.all (· = "") then _ else _) = _ := h
    split at h
    · cases h
    · cases h
      have hget := getScopedLead_eq_ok hlead
      have hid : lead.id = leadId := (of_getLead hget).2.2
      refine ⟨_, _, mem_ids_of_getLead hget, ?_, ?_, rfl⟩
      · exact hid
      · exact hid

/-- So does an activity. -/
theorem rescored_of_recordActivity {actor : Actor} {type : ActivityType} {t : Tables}
    (h : recordActivity now tenantId s actor leadId type = .ok t) :
    Rescored now tenantId leadId s t := by
  unfold recordActivity at h
  cases hlead : getScopedLeadOr404 tenantId s actor leadId with
  | error e =>
    rw [hlead] at h
    cases h
  | ok lead =>
    rw [hlead] at h
    cases h
    have hget := getScopedLead_eq_ok hlead
    have hid : lead.id = leadId := (of_getLead hget).2.2
    refine ⟨_, _, mem_ids_of_getLead hget, ?_, ?_, rfl⟩
    · exact hid
    · exact hid

/-- An event of a tour does nothing, or the same. -/
theorem tourEvent_cases (now : DateTime) (tenantId : Uuid) (s : Tables) (type : ActivityType)
    (leadId : Uuid) :
    s.getLead tenantId leadId none = none ∧ tourEvent now tenantId s type leadId = s ∨
      Rescored now tenantId leadId s (tourEvent now tenantId s type leadId) := by
  unfold tourEvent
  cases hlead : s.getLead tenantId leadId none with
  | none => exact .inl ⟨rfl, rfl⟩
  | some lead =>
    have hid : lead.id = leadId := (of_getLead hlead).2.2
    exact .inr ⟨lead, _, mem_ids_of_getLead hlead, hid, hid, rfl⟩

/-- So does an event of an appointment. -/
theorem current_tourEvent (now : DateTime) (tenantId : Uuid) (s : Tables) (type : ActivityType)
    (leadId : Uuid) : Current now tenantId (tourEvent now tenantId s type leadId) leadId := by
  rcases tourEvent_cases now tenantId s type leadId with ⟨hnone, hsame⟩ | hrescored
  · intro row hrow htenant hid
    rw [hsame] at hrow
    unfold Tables.getLead at hnone
    exact absurd (decide_eq_true ⟨htenant, rfl, hid⟩) (List.find?_eq_none.1 hnone row hrow)
  · exact hrescored.current

theorem references_tourEvent (h : s.References) (type : ActivityType) (leadId : Uuid) :
    (tourEvent now tenantId s type leadId).References := by
  rcases tourEvent_cases now tenantId s type leadId with ⟨-, hsame⟩ | hrescored
  · rw [hsame]
    exact h
  · exact hrescored.references h

end

/-! ### Captures -/

section

variable {Area Point : Type} {contains : Area → Point → Bool} {directory : Directory Area Point}
  {now : DateTime} {tenantId : Uuid} {s : Tables} {id : Uuid}

/-- So many activities of a lead engage, all from now and none a no-show. -/
structure Written (now : DateTime) (tenantId : Uuid) (s : Tables) (leadId : Uuid)
    (engagement : Nat) : Prop where
  createdAt : ∀ a ∈ s.listActivitiesForLead tenantId leadId, a.createdAt = now
  noShow : ∀ a ∈ s.listActivitiesForLead tenantId leadId, a.type ≠ .noShow
  engagement : (s.listActivitiesForLead tenantId leadId).countP (engages ·.type) = engagement

theorem Written.of_eq_nil (h : s.listActivitiesForLead tenantId id = []) :
    Written now tenantId s id 0 where
  createdAt := by simp [h]
  noShow := by simp [h]
  engagement := by simp [h]

/-- One more activity of the capture. -/
theorem Written.add {engagement : Nat} (h : Written now tenantId s id engagement)
    {type : ActivityType} (htype : type ≠ .noShow) :
    Written now tenantId (s.add (systemActivity now tenantId id type)) id
      (engagement + if engages type then 1 else 0) := by
  have hlist : (s.add (systemActivity now tenantId id type)).listActivitiesForLead tenantId id =
      systemActivity now tenantId id type :: s.listActivitiesForLead tenantId id := by
    rw [listActivitiesForLead_add]
    exact if_pos ⟨rfl, rfl⟩
  constructor
  · rw [hlist]
    exact List.forall_mem_cons.2 ⟨rfl, h.createdAt⟩
  · rw [hlist]
    exact List.forall_mem_cons.2 ⟨htype, h.noShow⟩
  · rw [hlist, List.countP_cons, h.engagement]
    rfl

/-- The score of a lead that was created now. -/
theorem Written.scoreOf_eq {engagement : Nat} {lead : LeadRow}
    (h : Written now tenantId s lead.id engagement) (hcreated : lead.createdAt = now) :
    scoreOf now tenantId s lead =
      score ⟨sourceWeight lead.source, lead.listingId.isSome, engagement, 0, 0⟩ := by
  have hlast : lastAt lead (s.listActivitiesForLead tenantId lead.id) = now := by
    unfold lastAt
    cases hmax : ((s.listActivitiesForLead tenantId lead.id).map LeadActivity.createdAt).max? with
    | none => exact hcreated
    | some last =>
      obtain ⟨a, ha, rfl⟩ := List.mem_map.1 (List.max?_mem hmax)
      exact h.createdAt a ha
  have hdays : daysSince now now = 0 := by simp [daysSince]
  have hnoShows : (s.listActivitiesForLead tenantId lead.id).countP (·.type = .noShow) = 0 :=
    List.countP_eq_zero.2 fun a ha htype => h.noShow a ha (of_decide_eq_true htype)
  unfold scoreOf features
  rw [hlast, hdays, hnoShows, h.engagement]


section

variable (contains directory now tenantId s id) (data : Capture)

/-- The row that a capture leaves. -/
def Capture.stored : LeadRow :=
  { recomputeScore now tenantId (s.insert (data.lead now tenantId id)) (data.lead now tenantId id)
    with agentId := data.agentId contains directory now tenantId s id }

/-- A capture saves its lead with its score. -/
theorem leads_createCapturedLead :
    (createCapturedLead contains directory now tenantId s id data).leads =
      ((s.insert (data.lead now tenantId id)).save
        (data.stored contains directory now tenantId s id)).leads := by
  unfold createCapturedLead
  dsimp only
  split <;> split <;> rfl

end

variable {data : Capture}

/-- A capture writes a note if there is a message, and names the agent if there is one. -/
theorem written_createCapturedLead (h : s.References) (hnew : id ∉ s.leads.map LeadRow.id) :
    Written now tenantId (createCapturedLead contains directory now tenantId s id data) id
      ((if data.hasMessage then 1 else 0) +
        if (data.agentId contains directory now tenantId s id).isSome then 1 else 0) := by
  have hnone : Written now tenantId ((s.insert (data.lead now tenantId id)).save
      (data.stored contains directory now tenantId s id)) id 0 :=
    .of_eq_nil (h.listActivitiesForLead_eq_nil hnew)
  have hnote : Written now tenantId _ id 1 :=
    hnone.add (show ActivityType.note ≠ .noShow from nofun)
  unfold createCapturedLead
  dsimp only
  by_cases hmessage : data.hasMessage = true <;>
    by_cases hagent : (data.agentId contains directory now tenantId s id).isSome = true
  · rw [if_pos hmessage, if_pos hmessage, if_pos hagent, if_pos hagent]
    exact hnote.add (show ActivityType.assignment ≠ .noShow from nofun)
  · rw [if_pos hmessage, if_pos hmessage, if_neg hagent, if_neg hagent]
    exact hnote
  · rw [if_neg hmessage, if_neg hmessage, if_pos hagent, if_pos hagent]
    exact hnone.add (show ActivityType.assignment ≠ .noShow from nofun)
  · rw [if_neg hmessage, if_neg hmessage, if_neg hagent, if_neg hagent]
    exact hnone

/-- Its activities are of a lead that exists. -/
theorem references_createCapturedLead (h : s.References) (data : Capture) :
    (createCapturedLead contains directory now tenantId s id data).References := by
  have hsaved : ((s.insert (data.lead now tenantId id)).save
      (data.stored contains directory now tenantId s id)).References := (h.insert _).save _
  have hmem : id ∈ ((s.insert (data.lead now tenantId id)).save
      (data.stored contains directory now tenantId s id)).leads.map LeadRow.id := by
    rw [ids_save]
    exact List.mem_cons_self
  unfold createCapturedLead
  dsimp only
  split <;> split
  · exact (@Tables.References.add _ hsaved (systemActivity now tenantId id .note) hmem).add hmem
  · exact hsaved.add hmem
  · exact hsaved.add hmem
  · exact hsaved

variable {surface : Surface} {contactId : Uuid}

/-- What the visitor asked for is no engagement. -/
theorem written_enter (h : s.References) (hnew : id ∉ s.leads.map LeadRow.id) :
    Written now tenantId (surface.enter contains directory now tenantId s id contactId) id
      ((if (surface.capture contactId).hasMessage then 1 else 0) +
        if ((surface.capture contactId).agentId contains directory now tenantId s id).isSome then 1
        else 0) := by
  have hcaptured := @written_createCapturedLead _ _ contains directory now tenantId s id
    (surface.capture contactId) h hnew
  unfold Surface.enter
  dsimp only
  by_cases hdescribes : surface.describes = true
  · rw [if_pos hdescribes]
    exact hcaptured.add (show ActivityType.system ≠ .noShow from nofun)
  · rw [if_neg hdescribes]
    exact hcaptured

theorem references_enter (h : s.References) :
    (surface.enter contains directory now tenantId s id contactId).References := by
  have hcaptured : (createCapturedLead contains directory now tenantId s id
      (surface.capture contactId)).References := references_createCapturedLead h _
  unfold Surface.enter
  dsimp only
  by_cases hdescribes : surface.describes = true
  · rw [if_pos hdescribes]
    refine hcaptured.add ?_
    rw [leads_createCapturedLead, ids_save]
    exact List.mem_cons_self
  · rw [if_neg hdescribes]
    exact hcaptured

/-- **A captured lead** has a current score if it got neither a note nor an agent. -/
theorem current_enter_iff (h : s.References) (hnew : id ∉ s.leads.map LeadRow.id) :
    Current now tenantId (surface.enter contains directory now tenantId s id contactId) id ↔
      (surface.capture contactId).hasMessage = false ∧
        (surface.capture contactId).agentId contains directory now tenantId s id = none := by
  -- The rows after a capture are those after the insert, with the lead stored last.
  have hleads : (surface.enter contains directory now tenantId s id contactId).leads =
      ((s.insert ((surface.capture contactId).lead now tenantId id)).save
        ((surface.capture contactId).stored contains directory now tenantId s id)).leads := by
    rw [← leads_createCapturedLead]
    unfold Surface.enter
    dsimp only
    split <;> rfl
  have hwritten := @written_enter _ _ contains directory now tenantId s id surface contactId h hnew
  generalize surface.capture contactId = data at *
  generalize surface.enter contains directory now tenantId s id contactId = t at *
  -- The score is taken before the activities are written.
  have hbefore : (data.stored contains directory now tenantId s id).score =
      score ⟨sourceWeight data.source, data.listingId.isSome, 0, 0, 0⟩ := by
    have hnone : Written now tenantId (s.insert (data.lead now tenantId id)) id 0 :=
      .of_eq_nil (h.listActivitiesForLead_eq_nil hnew)
    exact @Written.scoreOf_eq _ _ _ _ (data.lead now tenantId id) hnone rfl
  have hafter := @Written.scoreOf_eq _ _ _ _ (data.stored contains directory now tenantId s id)
    hwritten rfl
  have hcurrent : Current now tenantId t id ↔
      (data.stored contains directory now tenantId s id).score =
        scoreOf now tenantId t (data.stored contains directory now tenantId s id) := by
    constructor
    · intro hall
      refine hall _ ?_ rfl rfl
      rw [hleads]
      exact mem_save List.mem_cons_self
    · intro hscore row hrow _ hid
      rw [hleads] at hrow
      rw [eq_of_mem_save hrow hid]
      exact hscore
  rw [hcurrent, hbefore, hafter]
  refine (score_engagement_iff data.source data.listingId.isSome _).trans ?_
  cases data.hasMessage <;> cases data.agentId contains directory now tenantId s id <;> simp

/-! ### Other operations -/

theorem createManual_cases {data : LeadCreate} {t : Tables}
    (h : createManual contains directory now tenantId s id data = .ok t) :
    ∃ inserted lead : LeadRow, inserted.id = id ∧ lead.id = id ∧
      (s.insert inserted).save (recomputeScore now tenantId (s.insert inserted) lead) = t := by
  unfold createManual at h
  split at h
  · cases h
  · cases h
    refine ⟨_, _, ?_, ?_, rfl⟩
    · rfl
    · cases data.agentId <;> rfl

/-- An update saves the patched lead, and does not rescore it. -/
theorem update_cases {actor : Actor} {leadId : Uuid} {data : LeadUpdate} {t : Tables}
    (h : update directory tenantId s actor leadId data = .ok t) :
    ∃ lead, s.getLead tenantId leadId actor.scope = some lead ∧ s.save (patched lead data) = t := by
  unfold update at h
  cases hlead : getScopedLeadOr404 tenantId s actor leadId with
  | error e =>
    rw [hlead] at h
    cases h
  | ok lead =>
    rw [hlead] at h
    cases hcheck : checkPatch directory tenantId actor data with
    | error e =>
      replace h : (checkPatch directory tenantId actor data >>= fun _ => _) = _ := h
      rw [hcheck] at h
      cases h
    | ok _ =>
      replace h : (checkPatch directory tenantId actor data >>= fun _ => _) = _ := h
      rw [hcheck] at h
      cases h
      exact ⟨lead, getScopedLead_eq_ok hlead, rfl⟩

/-- A patch leaves the score as it was. -/
theorem current_update_iff {actor : Actor} {leadId : Uuid} {data : LeadUpdate} {t : Tables}
    (h : update directory tenantId s actor leadId data = .ok t) :
    Current now tenantId t leadId ↔ ∀ lead ∈ s.getLead tenantId leadId actor.scope,
      lead.score = scoreOf now tenantId s (patched lead data) := by
  obtain ⟨lead, hlead, rfl⟩ := update_cases h
  obtain ⟨-, htenant, rfl⟩ := of_getLead hlead
  constructor
  · intro hall other hother
    cases hlead.symm.trans hother
    exact hall (patched lead data) (mem_save (mem_ids_of_getLead hlead)) htenant rfl
  · intro hscore row hrow _ hid
    rw [eq_of_mem_save hrow hid]
    exact hscore lead hlead

/-! ### Every operation -/

theorem step_cases {l : Label Area Point} {t : Tables} (h : (machine contains).step s l = some t) :
    (l.operation.creates = true → l.operation.leadId ∉ s.leads.map LeadRow.id) ∧
      perform contains s l = .ok t := by
  unfold machine at h
  dsimp only at h
  split at h
  · cases h
  · next hnew =>
    refine ⟨fun hcreates hmem => hnew ⟨hcreates, hmem⟩, ?_⟩
    cases hperform : perform contains s l with
    | error e =>
      rw [hperform] at h
      cases h
    | ok t' =>
      rw [hperform] at h
      cases h
      rfl

/-- One step keeps every activity with its lead. -/
theorem references_step {l : Label Area Point} {t : Tables} (hs : s.References)
    (h : (machine contains).step s l = some t) : t.References := by
  obtain ⟨-, hperform⟩ := step_cases h
  unfold perform at hperform
  split at hperform
  · cases hperform
    exact references_enter hs
  · obtain ⟨inserted, lead, -, -, rfl⟩ := createManual_cases hperform
    exact (hs.insert inserted).save _
  · obtain ⟨lead, -, rfl⟩ := update_cases hperform
    exact hs.save _
  · exact (rescored_of_transitionStage hperform).references hs
  · exact (rescored_of_recordActivity hperform).references hs
  · cases hperform
    exact references_tourEvent hs .tour _
  · cases hperform
    exact references_tourEvent hs .noShow _

theorem references_of_reachable (h : (machine contains).Reachable s) : s.References :=
  Machine.Inductive.always (I := Tables.References)
    ⟨fun _ hs => hs, fun _ _ _ hs _ hst => references_step hs hst⟩ h

/-- **Stored scores.** After an operation on a lead its score is the scorer's if the operation
wrote nothing that engages after it had computed the score, and, for a patch, if the score it left
alone was the scorer's already. -/
theorem score_current {Area Point : Type} (contains : Area → Point → Bool) {s : Tables}
    (hs : (machine contains).Reachable s) {l : Label Area Point} {t : Tables}
    (h : (machine contains).step s l = some t) :
    Current l.now l.tenantId t l.operation.leadId ↔ Settled contains s l := by
  have hreferences := references_of_reachable hs
  obtain ⟨hnew, hperform⟩ := step_cases h
  unfold Settled
  unfold perform at hperform
  cases hoperation : l.operation with
  | capture id contactId surface =>
    rw [hoperation] at hnew hperform
    -- A captured lead is the case with a condition.
    cases hperform
    exact current_enter_iff hreferences (hnew rfl)
  | createManual id data =>
    rw [hoperation] at hperform
    obtain ⟨inserted, lead, -, rfl, rfl⟩ := createManual_cases hperform
    exact iff_of_true (current_recomputeScore (s.insert inserted) lead) trivial
  | update leadId data =>
    -- A patch leaves the score as it was, right or not.
    rw [hoperation] at hperform
    exact current_update_iff hperform
  | transitionStage leadId toStage lostReason =>
    -- Every other operation rescores behind its last write.
    rw [hoperation] at hperform
    exact iff_of_true (rescored_of_transitionStage hperform).current trivial
  | recordActivity leadId type =>
    rw [hoperation] at hperform
    exact iff_of_true (rescored_of_recordActivity hperform).current trivial
  | logTourActivity leadId =>
    rw [hoperation] at hperform
    cases hperform
    exact iff_of_true (current_tourEvent l.now l.tenantId s .tour leadId) trivial
  | recordNoShow leadId =>
    rw [hoperation] at hperform
    cases hperform
    exact iff_of_true (current_tourEvent l.now l.tenantId s .noShow leadId) trivial

end


/-- An agency without rules, users or listings. -/
def nothingOnRecord : Directory Unit Unit := ⟨[], fun _ => none, [], fun _ => none⟩

/-- With zones that contain all points. -/
def chats : Machine Tables (Label Unit Unit) := machine fun _ _ => true

/-- A lead that writes, or not. -/
def chat (message : Option String) : Label Unit Unit where
  directory := nothingOnRecord
  now := 0
  tenantId := 9
  actor := ⟨1, .agent, none⟩
  operation := .capture 5 7 (.captureLead none .chat message)

/-- A chat without a message is captured with its score. -/
theorem score_current_chat :
    ∃ t, chats.step ⟨[], []⟩ (chat none) = some t ∧ Current 0 9 t 5 := by
  refine ⟨_, rfl, (@score_current Unit Unit (fun _ _ => true) ⟨[], []⟩
    (.init fun _ h => absurd h List.not_mem_nil) (chat none) _ rfl).2 ⟨rfl, rfl⟩⟩

/-- With a message it is captured at 20 points, where the scorer gives 25. -/
theorem score_stale :
    ¬∀ (s : Tables) (l : Label Unit Unit) (t : Tables), chats.Reachable s →
      chats.step s l = some t →
      Current l.now l.tenantId t l.operation.leadId := by
  intro h
  have hstale : ¬Current 0 9 ((perform (fun _ _ => true) ⟨[], []⟩ (chat (some "Hi"))).toOption.getD
      ⟨[], []⟩) 5 := by decide
  exact hstale (h ⟨[], []⟩ (chat (some "Hi")) _
    (.init fun _ h => absurd h List.not_mem_nil) rfl)

/-! ### No-shows -/

section

variable {now : DateTime} {tenantId leadId : Uuid} {s : Tables} {lead : LeadRow}

/-- The last activity is the latest. -/
theorem le_lastAt {activities : List LeadActivity} {activity : LeadActivity}
    (h : activity ∈ activities) : activity.createdAt ≤ lastAt lead activities := by
  have hmem : activity.createdAt ∈ activities.map LeadActivity.createdAt :=
    List.mem_map.2 ⟨activity, h, rfl⟩
  unfold lastAt
  cases hmax : (activities.map LeadActivity.createdAt).max? with
  | none =>
    rw [List.max?_eq_none_iff.1 hmax] at hmem
    cases hmem
  | some last => exact (List.max?_eq_some_iff.1 hmax).2 _ hmem

theorem daysSince_eq_zero {last : DateTime} (h : now ≤ last) : daysSince now last = 0 := by
  have hdays : (now - last) / 86400 ≤ 0 :=
    Int.ediv_nonpos_of_nonpos_of_neg (Int.sub_nonpos_of_le h) (by decide)
  exact max_eq_right hdays

theorem daysSince_nonneg (now last : DateTime) : 0 ≤ daysSince now last := Int.le_max_right _ _

/-- What a no-show makes of the features: one more of its kind, and no days since. -/
theorem scoreOf_add_noShow (now : DateTime) (s : Tables) (lead : LeadRow) :
    scoreOf now tenantId (s.add (systemActivity now tenantId lead.id .noShow)) lead =
      score { features now lead (s.listActivitiesForLead tenantId lead.id) with
        daysSinceLastActivity := 0
        noShowCount :=
          (features now lead (s.listActivitiesForLead tenantId lead.id)).noShowCount + 1 } := by
  have hlist : (s.add (systemActivity now tenantId lead.id .noShow)).listActivitiesForLead tenantId
      lead.id = systemActivity now tenantId lead.id .noShow ::
        s.listActivitiesForLead tenantId lead.id := by
    rw [listActivitiesForLead_add]
    exact if_pos ⟨rfl, rfl⟩
  unfold scoreOf
  rw [hlist]
  have hlast : now ≤ lastAt lead (systemActivity now tenantId lead.id .noShow ::
      s.listActivitiesForLead tenantId lead.id) :=
    le_lastAt (@List.mem_cons_self _ (systemActivity now tenantId lead.id .noShow) _)
  unfold features
  rw [daysSince_eq_zero hlast, List.countP_cons, List.countP_cons]
  rfl

/-- **A no-show** does not raise a score exactly if the lead was last active at most 15 days ago,
or has at most 15 points before they decay: the penalty is 15, but the decay of up to 20 points is
taken back. -/
theorem no_show_score (now : DateTime) {tenantId leadId : Uuid} {s : Tables} {lead : LeadRow}
    (h : s.getLead tenantId leadId none = some lead) :
    (∀ row ∈ (recordNoShow now tenantId s leadId).leads, row.id = leadId →
      row.score ≤ scoreOf now tenantId s lead) ↔
    daysSince now (lastAt lead (s.listActivitiesForLead tenantId leadId)) ≤ 15 ∨
      points lead (s.listActivitiesForLead tenantId leadId) ≤ 15 := by
  obtain ⟨-, -, rfl⟩ := of_getLead h
  have hrecord : recordNoShow now tenantId s lead.id =
      addAndRescore now tenantId s lead (systemActivity now tenantId lead.id .noShow) := by
    unfold recordNoShow tourEvent
    rw [h]
  -- One no-show more, and no days since the last activity.
  have hscore := @scoreOf_add_noShow tenantId now s lead
  have hrows : (∀ row ∈ (recordNoShow now tenantId s lead.id).leads, row.id = lead.id →
      row.score ≤ scoreOf now tenantId s lead) ↔
      scoreOf now tenantId (s.add (systemActivity now tenantId lead.id .noShow)) lead ≤
        scoreOf now tenantId s lead := by
    rw [hrecord]
    constructor
    · intro hall
      exact hall _ (@mem_save _ (recomputeScore now tenantId _ lead)
        (mem_ids_of_getLead h)) rfl
    · intro hle row hrow hid
      rw [@eq_of_mem_save _ (recomputeScore now tenantId _ lead) _ hrow hid]
      exact hle
  rw [hrows, hscore]
  exact score_noShow_le_iff lead.source lead.listingId.isSome _ _ (daysSince_nonneg _ _)

end

/-- A lead that phoned about a listing, and was called back at once. -/
def calledBack : Tables where
  leads := [{ id := 5, tenantId := 9, contactId := 7, listingId := some 3, source := .phone,
              createdAt := 0 }]
  activities := [⟨9, 5, some 1, .call, 0⟩]

/-- A no-show within a fortnight costs what it should. -/
theorem no_show_score_fortnight :
    ∃ row, row ∈ (recordNoShow (14 * 86400) 9 calledBack 5).leads ∧ row.id = 5 ∧
      row.score ≤ 46 := by
  have hle := (@no_show_score (14 * 86400) 9 5 calledBack _ rfl).2 (.inl (by decide))
  exact ⟨_, List.mem_cons_self, rfl, hle _ List.mem_cons_self rfl⟩

/-- After twenty days it raises the score from 40 to 45. -/
theorem no_show_raises :
    ¬∀ (now : DateTime) (tenantId leadId : Uuid) (s : Tables) (lead : LeadRow),
      s.getLead tenantId leadId none = some lead →
      ∀ row ∈ (recordNoShow now tenantId s leadId).leads, row.id = leadId →
        row.score ≤ scoreOf now tenantId s lead := by
  intro h
  have hraised : ¬∀ row ∈ (recordNoShow (20 * 86400) 9 calledBack 5).leads, row.id = 5 →
      row.score ≤ 40 := by decide
  exact hraised (h (20 * 86400) 9 5 calledBack _ rfl)

end Scoring

end Leads

end RealEstate
