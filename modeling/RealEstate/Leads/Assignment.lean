import Mathlib.Data.List.MinMax
import Mathlib.Data.List.Sort
import RealEstate.Leads.Models
import RealEstate.Systems.Machine
import RealEstate.Users.Models

/-!
# The assignment engine (`modules/leads/service.py`)

A captured lead goes to the agent of its listing, or to the least loaded of a pool: the agents
of the rule, all agents, or those whose published service area contains the listing.

- `assignLead`, `leastLoaded`, `pickRoundRobin`, `pickTerritory`: the functions of the source.
- `leastLoaded_eq_argmin`: the fold picks the first minimum of the candidates below the cap.
- `assignLead_correct`: who is returned, and what captures in sequence make of the loads.
-/

namespace RealEstate

namespace Leads

namespace Assignment

open RealEstate.Core Systems Users

/-! ### Rows -/

/-- `LeadSource`. -/
inductive LeadSource where
  | listingForm
  | valuation
  | mortgage
  | marketReport
  | searchSignup
  | chat
  | whatsappClick
  | tourRequest
  | phone
  | portal
  | ad
  | other
  deriving DecidableEq, Repr

/-- A row of `leads`. -/
structure LeadRow where
  id : Uuid
  tenantId : Uuid
  contactId : Uuid
  listingId : Option Uuid
  agentId : Option Uuid := none
  source : LeadSource
  stage : LeadStage := .new
  score : Int := 0
  lostReason : Option String := none
  firstResponseAt : Option DateTime := none
  createdAt : DateTime
  deriving DecidableEq

/-- `AssignmentStrategy`. -/
inductive AssignmentStrategy where
  | listingAgent
  | roundRobin
  | territory
  deriving DecidableEq, Repr

/-- `AssignmentRuleConfig`, through which the `config` of a rule is written. -/
structure AssignmentRuleConfig where
  agentPool : Option (List Uuid) := none
  maxOpenLeadsPerAgent : Option Nat := none
  positive : ∀ n ∈ maxOpenLeadsPerAgent, 1 ≤ n := by simp

/-- `AssignmentRule`. -/
structure AssignmentRule where
  strategy : AssignmentStrategy := .listingAgent
  config : AssignmentRuleConfig := {}

/-- The columns of a listing that an assignment reads; `location` is a point. -/
structure ListingPlace (Point : Type) where
  tenantId : Uuid
  agentId : Option Uuid := none
  location : Option Point := none
  deleted : Bool := false

/-- A row of `agent_profiles`, unique for its tenant and user. -/
structure AgentProfile (Area : Type) where
  tenantId : Uuid
  userId : Uuid
  isPublished : Bool := false
  serviceAreas : Option Area := none

/-- What the other modules have on record. -/
structure Directory (Area Point : Type) where
  users : List User
  listings : Uuid → Option (ListingPlace Point)
  profiles : List (AgentProfile Area)
  rules : Uuid → Option AssignmentRule

section

variable {Area Point : Type} (contains : Area → Point → Bool) (directory : Directory Area Point)
  (leads : List LeadRow) (tenantId : Uuid)

/-! ### Boundaries -/

/-- An active user of the tenant. -/
def isActive (user : User) : Bool :=
  user.tenantId = some tenantId ∧ user.status = .active ∧ user.deletedAt = none

/-- `UserRepository.list_active_by_role`, of the agents: their ids in order. -/
def listActiveAgents : List Uuid :=
  ((directory.users.filter fun u => isActive tenantId u && decide (u.role = .agent)).map
    User.id).insertionSort (· ≤ ·)

/-- The ids among the keys of `UserService.identities_for`. -/
def identitiesFor (ids : List Uuid) : List Uuid :=
  (directory.users.filter fun u => isActive tenantId u && decide (u.id ∈ ids)).map User.id

/-- `ListingRepository.get`. -/
def getListing (listingId : Uuid) : Option (ListingPlace Point) :=
  (directory.listings listingId).filter fun listing =>
    listing.tenantId = tenantId ∧ !listing.deleted

/-- `ListingService.agent_for`. -/
def agentFor (listingId : Uuid) : Option Uuid :=
  (getListing directory tenantId listingId).bind ListingPlace.agentId

/-- `ListingService.point_for`. -/
def pointFor (listingId : Uuid) : Option Point :=
  (getListing directory tenantId listingId).bind ListingPlace.location

/-- `AgentsService.candidates_for_point`: `contains` is `ST_Contains`. -/
def candidatesForPoint (point : Point) : List Uuid :=
  ((directory.profiles.filter fun profile => profile.tenantId = tenantId ∧ profile.isPublished ∧
    profile.serviceAreas.any (contains · point)).map AgentProfile.userId).insertionSort (· ≤ ·)

/-- Neither won nor lost. -/
def isOpen (lead : LeadRow) : Bool := lead.stage ≠ .won ∧ lead.stage ≠ .lost

/-- The open leads of an agent. -/
def openLeads (agentId : Uuid) : Nat :=
  leads.countP fun lead => lead.tenantId = tenantId ∧ lead.agentId = some agentId ∧ isOpen lead

/-- `LeadsRepository.open_lead_counts`: groups without rows are missing. -/
def openLeadCounts (agentIds : List Uuid) (agentId : Uuid) : Option Nat :=
  if agentId ∈ agentIds ∧ openLeads leads tenantId agentId ≠ 0 then
    some (openLeads leads tenantId agentId)
  else none

/-! ### Assignment -/

/-- One round of the loop of `_least_loaded`. -/
def consider (config : AssignmentRuleConfig) (counts : Uuid → Option Nat)
    (best : Option (Uuid × Nat)) (agentId : Uuid) : Option (Uuid × Nat) :=
  let count := (counts agentId).getD 0
  if config.maxOpenLeadsPerAgent.any (· ≤ count) then best
  else
    match best with
    | none => some (agentId, count)
    | some (_, bestCount) => if count < bestCount then some (agentId, count) else best

/-- `_least_loaded`. -/
def leastLoaded (candidates : List Uuid) (config : AssignmentRuleConfig) : Option Uuid :=
  let counts := openLeadCounts leads tenantId candidates
  (candidates.foldl (consider config counts) none).map Prod.fst

/-- Below the maximum of the rule, if there is one. -/
def below (config : AssignmentRuleConfig) (agentId : Uuid) : Bool :=
  config.maxOpenLeadsPerAgent.all (openLeads leads tenantId agentId < ·)

/-- The candidates of `_pick_territory`. -/
def territoryPool (lead : LeadRow) : List Uuid :=
  match lead.listingId.bind (pointFor directory tenantId) with
  | none => []
  | some point =>
    let candidateIds := candidatesForPoint contains directory tenantId point
    let identities := identitiesFor directory tenantId candidateIds
    candidateIds.filter (· ∈ identities)

/-- `_pick_territory`. -/
def pickTerritory (lead : LeadRow) (config : AssignmentRuleConfig) : Option Uuid :=
  leastLoaded leads tenantId (territoryPool contains directory tenantId lead) config

/-- The candidates of `_pick_round_robin`. -/
def roundRobinPool (config : AssignmentRuleConfig) : List Uuid :=
  match config.agentPool with
  | some (id :: ids) =>
    let identities := identitiesFor directory tenantId (id :: ids)
    (id :: ids).filter (· ∈ identities)
  | _ => listActiveAgents directory tenantId

/-- `_pick_round_robin`. -/
def pickRoundRobin (config : AssignmentRuleConfig) : Option Uuid :=
  leastLoaded leads tenantId (roundRobinPool directory tenantId config) config

/-- The rule of a tenant, or what stands for a missing one. -/
def ruleOf : AssignmentRule := (directory.rules tenantId).getD {}

/-- `assign_lead`. -/
def assignLead (lead : LeadRow) : Option Uuid :=
  let rule := ruleOf directory tenantId
  match rule.strategy with
  | .listingAgent => do
    let listingId ← lead.listingId
    let listingAgent ← agentFor directory tenantId listingId
    let _ ← getIdentityIfActive directory.users (some tenantId) listingAgent
    return listingAgent
  | .roundRobin => pickRoundRobin directory leads tenantId rule.config
  | .territory => pickTerritory contains directory leads tenantId lead rule.config

/-- The candidates of a lead under a strategy that compares loads. -/
def pool (lead : LeadRow) : List Uuid :=
  let rule := ruleOf directory tenantId
  match rule.strategy with
  | .listingAgent => []
  | .roundRobin => roundRobinPool directory tenantId rule.config
  | .territory => territoryPool contains directory tenantId lead

end

/-! ### Captures in sequence -/

/-- The directory and the leads. -/
structure State (Area Point : Type) where
  directory : Directory Area Point
  leads : List LeadRow

/-- A capture, or a change of the directory. -/
inductive Label (Area Point : Type) where
  | capture (lead : LeadRow)
  /-- Users, listings, profiles and rules change. -/
  | change (directory : Directory Area Point)

section

variable {Area Point : Type} (contains : Area → Point → Bool)

/-- The rows after a capture: the lead is inserted without an agent, and then assigned. -/
def capture (directory : Directory Area Point) (leads : List LeadRow) (lead : LeadRow) :
    List LeadRow :=
  let row := { lead with agentId := none }
  { row with agentId := assignLead contains directory (row :: leads) lead.tenantId row } :: leads

/-- Captures one after the other. -/
def machine : Machine (State Area Point) (Label Area Point) where
  init _ := True
  step s
    | .capture lead => some { s with leads := capture contains s.directory s.leads lead }
    | .change directory => some { s with directory }

/-- The rule of a captured lead compares loads, and has the maximum of its tenant. -/
def Capped (maximum : Uuid → Nat) (s : State Area Point) : Label Area Point → Prop
  | .capture lead => (ruleOf s.directory lead.tenantId).strategy ≠ .listingAgent ∧
      (ruleOf s.directory lead.tenantId).config.maxOpenLeadsPerAgent =
        some (maximum lead.tenantId)
  | .change _ => True

/-- An active user of the tenant has this id. -/
def ActiveUser (directory : Directory Area Point) (tenantId agentId : Uuid) : Prop :=
  ∃ user ∈ directory.users, isActive tenantId user = true ∧ user.id = agentId

end

/-! ### Least loaded -/

section

variable {Area Point : Type} {contains : Area → Point → Bool} {directory : Directory Area Point}
  {leads : List LeadRow} {tenantId agentId : Uuid} {lead : LeadRow} {config : AssignmentRuleConfig}

/-- The dictionary holds the count of an agent's open leads. -/
theorem openLeadCounts_getD {agentIds : List Uuid} (h : agentId ∈ agentIds) :
    (openLeadCounts leads tenantId agentIds agentId).getD 0 = openLeads leads tenantId agentId := by
  unfold openLeadCounts
  by_cases hzero : openLeads leads tenantId agentId = 0
  · rw [if_neg fun hboth => hboth.2 hzero, hzero]
    rfl
  · rw [if_pos ⟨h, hzero⟩]
    rfl

/-- A candidate with its open leads. -/
def withLoad (leads : List LeadRow) (tenantId agentId : Uuid) : Uuid × Nat :=
  (agentId, openLeads leads tenantId agentId)

/-- A round of the loop: a candidate at the maximum is passed over, another one compared. -/
theorem consider_eq {counts : Uuid → Option Nat}
    (h : (counts agentId).getD 0 = openLeads leads tenantId agentId) (best : Option Uuid) :
    consider config counts (best.map (withLoad leads tenantId)) agentId =
      Option.map (withLoad leads tenantId) (if below leads tenantId config agentId then
        List.argAux (fun a b => openLeads leads tenantId a < openLeads leads tenantId b) best
          agentId
        else best) := by
  have hbelow : config.maxOpenLeadsPerAgent.any (· ≤ openLeads leads tenantId agentId) = true ↔
      ¬below leads tenantId config agentId = true := by
    unfold below
    cases config.maxOpenLeadsPerAgent with
    | none => exact iff_of_false Bool.false_ne_true fun h => h rfl
    | some n => simp
  unfold consider
  dsimp only
  rw [h]
  -- An agent at the cap is no candidate, and leaves the best as it is.
  by_cases hopen : below leads tenantId config agentId = true
  · rw [if_neg fun hfull => hbelow.1 hfull hopen, if_pos hopen]
    -- Otherwise the lower load wins, and the earlier agent at equal loads.
    cases best with
    | none => rfl
    | some b =>
      show ite _ _ _ = Option.map _ (ite _ _ _)
      rw [apply_ite (Option.map (withLoad leads tenantId))]
      rfl
  · rw [if_pos (hbelow.2 hopen), if_neg hopen]

/-- **The least loaded** is the first minimum of the candidates below the maximum. -/
theorem leastLoaded_eq_argmin (candidates : List Uuid) :
    leastLoaded leads tenantId candidates config =
      (candidates.filter (below leads tenantId config)).argmin (openLeads leads tenantId) := by
  have hfold : ∀ (l : List Uuid) (best : Option Uuid), (∀ id ∈ l, id ∈ candidates) →
      l.foldl (consider config (openLeadCounts leads tenantId candidates))
        (best.map (withLoad leads tenantId)) =
      ((l.filter (below leads tenantId config)).foldl
        (List.argAux fun a b => openLeads leads tenantId a < openLeads leads tenantId b)
        best).map (withLoad leads tenantId) := by
    intro l
    induction l with
    | nil => exact fun _ _ => rfl
    | cons id l ih =>
      intro best hmem
      have hrest : ∀ id ∈ l, id ∈ candidates := fun x hx => hmem x (List.mem_cons_of_mem id hx)
      rw [List.foldl_cons, consider_eq (openLeadCounts_getD (hmem id List.mem_cons_self)),
        ih _ hrest]
      by_cases hbelow : below leads tenantId config id = true
      · rw [if_pos hbelow, List.filter_cons_of_pos hbelow, List.foldl_cons]
      · rw [if_neg hbelow, List.filter_cons_of_neg hbelow]
  show Option.map Prod.fst (candidates.foldl _ (Option.map (withLoad leads tenantId) none)) = _
  rw [hfold candidates none fun _ => id, Option.map_map]
  exact Option.map_id'

/-! ### Candidates -/

/-- Candidates are active users of the tenant. -/
theorem activeUser_of_mem_identitiesFor {ids : List Uuid}
    (h : agentId ∈ identitiesFor directory tenantId ids) :
    ActiveUser directory tenantId agentId := by
  obtain ⟨user, huser, hid⟩ := List.mem_map.1 h
  obtain ⟨hmem, hboth⟩ := List.mem_filter.1 huser
  exact ⟨user, hmem, (Bool.and_eq_true_iff.1 hboth).1, hid⟩

/-- Every candidate is active. -/
theorem activeUser_of_mem_pool (h : agentId ∈ pool contains directory tenantId lead) :
    ActiveUser directory tenantId agentId := by
  unfold pool at h
  dsimp only at h
  cases hstrategy : (ruleOf directory tenantId).strategy with
  | listingAgent =>
    rw [hstrategy] at h
    cases h
  | roundRobin =>
    rw [hstrategy] at h
    dsimp only at h
    unfold roundRobinPool at h
    split at h
    · exact activeUser_of_mem_identitiesFor (of_decide_eq_true (List.mem_filter.1 h).2)
    · obtain ⟨user, huser, hid⟩ := List.mem_map.1 ((List.mem_insertionSort _).1 h)
      obtain ⟨hmem, hboth⟩ := List.mem_filter.1 huser
      exact ⟨user, hmem, (Bool.and_eq_true_iff.1 hboth).1, hid⟩
  | territory =>
    rw [hstrategy] at h
    dsimp only at h
    unfold territoryPool at h
    split at h
    · cases h
    · exact activeUser_of_mem_identitiesFor (of_decide_eq_true (List.mem_filter.1 h).2)

/-- A strategy that compares loads takes the least loaded of its candidates. -/
theorem assignLead_eq (h : (ruleOf directory tenantId).strategy ≠ .listingAgent) :
    assignLead contains directory leads tenantId lead =
      leastLoaded leads tenantId (pool contains directory tenantId lead)
        (ruleOf directory tenantId).config := by
  unfold assignLead pool
  dsimp only
  cases hstrategy : (ruleOf directory tenantId).strategy with
  | listingAgent => exact absurd hstrategy h
  | roundRobin => rfl
  | territory => rfl

theorem activeUser_of_getIdentityIfActive {identity : UserIdentity}
    (h : getIdentityIfActive directory.users (some tenantId) agentId = some identity) :
    ActiveUser directory tenantId agentId := by
  unfold getIdentityIfActive activeIdentity at h
  obtain ⟨user, huser, hactive⟩ := Option.bind_eq_some_iff.1 h
  have hfound := List.find?_some huser
  obtain ⟨htenant, hid, hdeleted⟩ := of_decide_eq_true hfound
  by_cases hstatus : user.status = .active
  · exact ⟨user, List.mem_of_find?_eq_some huser,
      decide_eq_true ⟨htenant, hstatus, hdeleted⟩, hid⟩
  · rw [if_neg hstatus] at hactive
    cases hactive

/-- Whoever is returned is active. -/
theorem activeUser_of_assignLead
    (h : assignLead contains directory leads tenantId lead = some agentId) :
    ActiveUser directory tenantId agentId := by
  by_cases hstrategy : (ruleOf directory tenantId).strategy = .listingAgent
  · unfold assignLead at h
    dsimp only at h
    rw [hstrategy] at h
    obtain ⟨listingId, -, h⟩ := Option.bind_eq_some_iff.1 h
    obtain ⟨listingAgent, -, h⟩ := Option.bind_eq_some_iff.1 h
    obtain ⟨identity, hidentity, h⟩ := Option.bind_eq_some_iff.1 h
    cases h
    exact activeUser_of_getIdentityIfActive hidentity
  · rw [assignLead_eq hstrategy, leastLoaded_eq_argmin] at h
    exact activeUser_of_mem_pool (List.mem_filter.1 (List.argmin_mem h)).1

/-! ### Loads -/

/-- A lead without an agent counts for nobody. -/
theorem openLeads_cons_unassigned (row : LeadRow) (agentId : Uuid) :
    openLeads ({ row with agentId := none } :: leads) tenantId agentId =
      openLeads leads tenantId agentId :=
  List.countP_cons_of_neg (by simp)

/-- Another lead is at most one more. -/
theorem openLeads_cons_le (row : LeadRow) (agentId : Uuid) :
    openLeads (row :: leads) tenantId agentId ≤ openLeads leads tenantId agentId + 1 := by
  unfold openLeads
  rw [List.countP_cons]
  split <;> omega

theorem openLeads_cons_of_ne {row : LeadRow} (h : ¬(row.tenantId = tenantId ∧
    row.agentId = some agentId)) :
    openLeads (row :: leads) tenantId agentId = openLeads leads tenantId agentId := by
  refine List.countP_cons_of_neg fun hcounts => h ?_
  obtain ⟨htenant, hagent, -⟩ := of_decide_eq_true hcounts
  exact ⟨htenant, hagent⟩

/-- A capture leaves everybody with at most the maximum, or what they had. -/
theorem openLeads_capture_le {maximum : Uuid → Nat} {s : State Area Point} {lead : LeadRow}
    (h : Capped maximum s (.capture lead)) (tenantId agentId : Uuid) :
    openLeads (capture contains s.directory s.leads lead) tenantId agentId ≤
      max (openLeads s.leads tenantId agentId) (maximum tenantId) := by
  obtain ⟨hstrategy, hmaximum⟩ := h
  unfold capture
  dsimp only
  generalize hassigned : assignLead contains s.directory
    ({ lead with agentId := none } :: s.leads) lead.tenantId { lead with agentId := none } = agent
  by_cases hrow : lead.tenantId = tenantId ∧ agent = some agentId
  · obtain ⟨rfl, rfl⟩ := hrow
    rw [assignLead_eq hstrategy, leastLoaded_eq_argmin] at hassigned
    have hbelow := (List.mem_filter.1 (List.argmin_mem hassigned)).2
    unfold below at hbelow
    rw [hmaximum, openLeads_cons_unassigned] at hbelow
    have hlt : openLeads s.leads lead.tenantId agentId < maximum lead.tenantId :=
      of_decide_eq_true hbelow
    have hle : openLeads ({ lead with agentId := some agentId } :: s.leads) lead.tenantId agentId ≤
        openLeads s.leads lead.tenantId agentId + 1 := openLeads_cons_le _ agentId
    omega
  · rw [openLeads_cons_of_ne hrow]
    exact Nat.le_max_left _ _

/-- **No agent gets past the cap by assignment.** -/
theorem openLeads_le {maximum : Uuid → Nat} {s₀ s : State Area Point}
    (h : ((machine contains).startingAt s₀).ReachVia (Capped maximum) s)
    (tenantId agentId : Uuid) :
    openLeads s.leads tenantId agentId ≤
      max (openLeads s₀.leads tenantId agentId) (maximum tenantId) := by
  induction h with
  | init heq =>
    cases heq
    exact Nat.le_max_left _ _
  | @step s t l _ hcapped hst ih =>
    cases l with
    | capture lead =>
      cases hst
      have hle : openLeads (capture contains s.directory s.leads lead) tenantId agentId ≤
          max (openLeads s.leads tenantId agentId) (maximum tenantId) :=
        openLeads_capture_le hcapped tenantId agentId
      dsimp only
      omega
    | change directory =>
      cases hst
      exact ih

/-- **The assignment engine.** It returns active users only; under round robin and territory the
first of the least loaded candidates below the maximum, or nobody if there is no such candidate;
so captures in sequence leave nobody with more open leads than the maximum, or than they began
with. -/
theorem assignLead_correct {Area Point : Type} (contains : Area → Point → Bool) :
    (∀ (directory : Directory Area Point) leads tenantId lead agentId,
      assignLead contains directory leads tenantId lead = some agentId →
        ActiveUser directory tenantId agentId) ∧
    (∀ (directory : Directory Area Point) leads tenantId lead,
      (ruleOf directory tenantId).strategy ≠ .listingAgent →
      let candidates := (pool contains directory tenantId lead).filter
        (below leads tenantId (ruleOf directory tenantId).config)
      let load := openLeads leads tenantId
      (∀ agentId, assignLead contains directory leads tenantId lead = some agentId ↔
        agentId ∈ candidates ∧ (∀ id ∈ candidates, load agentId ≤ load id) ∧
          ∀ id ∈ candidates, load id ≤ load agentId →
            candidates.idxOf agentId ≤ candidates.idxOf id) ∧
      (assignLead contains directory leads tenantId lead = none ↔ candidates = [])) ∧
    ∀ (maximum : Uuid → Nat) (s₀ s : State Area Point),
      ((machine contains).startingAt s₀).ReachVia (Capped maximum) s →
      ∀ tenantId agentId, openLeads s.leads tenantId agentId ≤
        max (openLeads s₀.leads tenantId agentId) (maximum tenantId) := by
  refine ⟨fun _ _ _ _ _ => activeUser_of_assignLead, fun directory leads tenantId lead h => ?_,
    fun _ _ _ => openLeads_le⟩
  rw [assignLead_eq h, leastLoaded_eq_argmin]
  exact ⟨fun _ => List.argmin_eq_some_iff, List.argmin_eq_none⟩

end

/-! ### Witness -/

/-- Two agents of an agency that assigns round robin, one open lead to each at most. -/
def twoAgents : Directory Unit Unit where
  users := [1, 2].map fun id =>
    { id, tenantId := some 9, email := "", passwordHash := "", role := .agent }
  listings _ := none
  profiles := []
  rules _ := some ⟨.roundRobin, { maxOpenLeadsPerAgent := some 1 }⟩

/-- A lead of this agent. -/
def enquiry (id : Uuid) (agentId : Option Uuid) : LeadRow where
  id
  tenantId := 9
  contactId := 0
  listingId := none
  agentId
  source := .portal
  createdAt := 0

/-- The agent without a lead gets the next one. -/
theorem assignLead_correct_pair :
    ActiveUser twoAgents 9 2 ∧
    (assignLead (fun _ _ => true) twoAgents [enquiry 5 (some 1)] 9 (enquiry 6 none) = some 2) ∧
    openLeads (capture (fun _ _ => true) twoAgents [enquiry 5 (some 1)] (enquiry 6 none)) 9 2 ≤
      max 0 1 := by
  obtain ⟨hactive, hpick, hloads⟩ :=
    @assignLead_correct Unit Unit fun _ _ => true
  have hsecond : assignLead (fun _ _ => true) twoAgents [enquiry 5 (some 1)] 9 (enquiry 6 none) =
      some 2 := by
    refine ((hpick twoAgents [enquiry 5 (some 1)] 9 (enquiry 6 none) (by decide)).1 2).2 ?_
    decide
  refine ⟨hactive _ _ _ _ _ hsecond, hsecond, ?_⟩
  exact hloads (fun _ => 1) ⟨twoAgents, [enquiry 5 (some 1)]⟩ _
    (.step (l := .capture (enquiry 6 none)) (.init rfl) ⟨by decide, rfl⟩ rfl) 9 2

end Assignment

end Leads

end RealEstate
