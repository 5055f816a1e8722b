import RealEstate.Leads.Models
import RealEstate.Systems.Ascent
import RealEstate.Systems.Paging
import RealEstate.Systems.Sends

/-!
# Drip sequences and escalations

`sweep_drips_and_escalations` of `workers/tasks/leads.py` with `advance_drip` of
`modules/leads/service.py`, and the requests that stop a drip.

- A sweep lists the due drips without a lock (`listDueDrips`). For each one it reads the lead
  (`check`), sends the step (`mail`), which no rollback takes back, and flushes the columns
  that changed (`flush`). Then it escalates (`escalate`) and commits.
- `transition_stage` and `record_activity` lock the lead, read its drip without a lock
  (`readDrip`) and stop it.
- `Orderly`: a lead is sent each step at most once and in order, nothing after a transaction
  that stopped its drip has committed, and is escalated at most once.
- `Steady`: the runs in which that is so.
-/

namespace RealEstate

namespace Leads

open RealEstate.Core Systems
open RowService (effectsOf)

/-- A step of `settings["leads"]["drip_sequence"]`. -/
structure DripStep where
  day : Int
  subject : String
  body : String
  deriving DecidableEq

/-- `DEFAULT_DRIP_SEQUENCE`. -/
def defaultDripSequence : List DripStep :=
  [⟨0, "Thanks for reaching out!",
    "Thanks for your interest — one of our agents will be in touch shortly."⟩,
   ⟨2, "Still looking?",
    "Just checking in — let us know if you'd like to schedule a viewing."⟩,
   ⟨7, "We're here whenever you're ready",
    "No rush — reach out any time and we'll pick up where we left off."⟩]

/-- `_drip_sequence`, of the list in the tenant's settings. -/
def dripSequence (override : List DripStep) : List DripStep :=
  if override.isEmpty then defaultDripSequence else override

/-- `DRIP_ACTIVE_STAGES`. -/
def LeadStage.dripActive (stage : LeadStage) : Bool :=
  stage = .new ∨ stage = .contacted

/-- `DripStopReason`. -/
inductive DripStopReason where
  | stageAdvanced
  | replied
  | sequenceComplete
  | manual
  deriving DecidableEq, Repr

/-- A row of `lead_drip_state`, which has one for each lead. -/
structure LeadDripState where
  tenantId : Uuid
  stepIndex : Nat := 0
  nextSendAt : DateTime
  stoppedAt : Option DateTime := none
  stoppedReason : Option DripStopReason := none
  deriving DecidableEq

/-- A row of `leads`, with what the sweep reads of it. -/
structure SweptLead where
  id : Uuid
  tenantId : Uuid
  agentId : Option Uuid := none
  stage : LeadStage := .new
  createdAt : DateTime

namespace Drips

/-- The columns that an `UPDATE` of `lead_drip_state` writes. -/
structure Columns where
  stepIndex : Option Nat := none
  nextSendAt : Option DateTime := none
  stopped : Option (DateTime × DripStopReason) := none

/-- The columns that an `UPDATE` sets. -/
def Columns.apply (columns : Columns) (drip : LeadDripState) : LeadDripState :=
  { drip with
    stepIndex := columns.stepIndex.getD drip.stepIndex
    nextSendAt := columns.nextSendAt.getD drip.nextSendAt
    stoppedAt := (columns.stopped.map (·.1)).or drip.stoppedAt
    stoppedReason := (columns.stopped.map (·.2)).or drip.stoppedReason }

/-- `stop_drip`. -/
def stop (reason : DripStopReason) (now : DateTime) : Columns :=
  { stopped := some (now, reason) }

/-- The end of `advance_drip`. -/
def advance (sequence : List DripStep) (drip : LeadDripState) (step : DripStep)
    (now : DateTime) : Columns :=
  match sequence[drip.stepIndex + 1]? with
  | none => { stepIndex := some (drip.stepIndex + 1), stopped := some (now, .sequenceComplete) }
  | some nextStep =>
    { stepIndex := some (drip.stepIndex + 1)
      nextSendAt := some (now + (nextStep.day - step.day) * 86400) }

/-- What `send_email` is called with. -/
structure Mail where
  stepIndex : Nat
  recipient : String
  subject : String
  body : String
  /-- A transaction that stopped the drip had committed. -/
  late : Bool
  deriving DecidableEq

/-- Where a sweep stands: between two drips, before the mail of one, before the flush after
one, or before its commit. -/
inductive Phase where
  | advancing (due : List (Uuid × LeadDripState))
  | mailing (id : Uuid) (drip : LeadDripState) (due : List (Uuid × LeadDripState))
  | writing (id : Uuid) (columns : Columns) (due : List (Uuid × LeadDripState))
  | escalated (ids : List Uuid)

/-- A sweep of one tenant, or a request that stops a drip. -/
inductive Proc where
  | sweep (tenantId : Uuid) (now : DateTime) (sequence : List DripStep) (phase : Phase)
  | stopping (tenantId id : Uuid) (reason : DripStopReason)
  | flushing (id : Uuid) (columns : Columns)
  | done

/-- A drip that an open sweep has advanced from `stepIndex` on, with the mail it has sent. -/
structure Advance where
  n : Nat
  id : Uuid
  stepIndex : Nat
  mail : Option Mail

/-- The leads, their drip states, the sweeps under way and the mails. -/
structure State where
  leads : Table Uuid SweptLead Nat
  drips : Table Uuid LeadDripState Nat
  /-- The leads of the `escalation_unassigned` activities. -/
  escalations : List Uuid
  procs : Nat → Option Proc
  /-- The mails sent, by lead. -/
  mails : List (Uuid × Mail)
  advanced : List Advance
  /-- A transaction that stopped the drip has committed. -/
  stopped : Uuid → Bool

/-- `ORDER BY next_send_at`. -/
abbrev ByNextSendAt :=
  OrderBy fun a b : Uuid × LeadDripState => a.2.nextSendAt ≤ b.2.nextSendAt

/-- A step of a sweep or of a request. -/
inductive Label where
  | create (id tenantId : Uuid) (agentId : Option Uuid) (now : DateTime)
  | assign (n : Nat) (id : Uuid) (agentId : Option Uuid)
  | listDueDrips (n : Nat) (tenantId : Uuid) (now : DateTime) (override : List DripStep)
    (order : ByNextSendAt)
  | check (n : Nat) (now : DateTime)
  | mail (n : Nat) (email : Option String) (now : DateTime)
  | flush (n : Nat)
  | escalate (n : Nat) (escalationMinutes : Nat) (found : List Uuid)
  | transitionStage (n : Nat) (tenantId id : Uuid) (toStage : LeadStage)
  | recordActivity (n : Nat) (tenantId id : Uuid)
  | readDrip (n : Nat) (now : DateTime)
  | flushStop (n : Nat)
  | commit (n : Nat)
  /-- A sweep or a request fails; it may be tried again. -/
  | abort (n : Nat)

/-- The process goes on. -/
def State.goes (s : State) (n : Nat) (proc : Proc) : State :=
  { s with procs := Function.update s.procs n (some proc) }

/-- The `UPDATE` of a drip, on the row as it is by then. -/
def State.update (s : State) (n : Nat) (id : Uuid) (columns : Columns) (proc : Proc) :
    Option State :=
  (s.drips.visible n id).bind fun drip =>
    (s.drips.write n id (some (columns.apply drip))).map fun drips =>
      { s with drips }.goes n proc

/-- A lead of the tenant. -/
def State.lead (s : State) (n : Nat) (tenantId id : Uuid) : Option SweptLead :=
  (s.leads.visible n id).filter (·.tenantId = tenantId)

/-- The condition of `list_due_drips`. -/
def due (tenantId : Uuid) (now : DateTime) (drip : LeadDripState) : Bool :=
  drip.tenantId = tenantId && drip.stoppedAt.isNone && drip.nextSendAt ≤ now

/-- The condition of `_escalate_unassigned` on the lead. -/
def unassigned (tenantId : Uuid) (cutoff : DateTime) (lead : SweptLead) : Bool :=
  lead.tenantId = tenantId && lead.agentId.isNone && lead.stage = .new &&
    lead.createdAt ≤ cutoff

/-- The address of the contact; an empty one is none. -/
def address (email : Option String) : Option String := email.filter (· ≠ "")

/-- `advance_drip` up to the contact: a drip goes on while it has a step left and its lead is
in an early stage. -/
def State.checks (s : State) (n : Nat) (tenantId : Uuid) (sequence : List DripStep) (id : Uuid)
    (drip : LeadDripState) (due : List (Uuid × LeadDripState)) (now : DateTime) : Phase :=
  if sequence.length ≤ drip.stepIndex then .writing id (stop .sequenceComplete now) due
  else if (s.lead n tenantId id).any (·.stage.dripActive) then .mailing id drip due
  else .writing id (stop .stageAdvanced now) due

/-- A drip is advanced in memory, and the mail of its step sent. -/
def State.advances (s : State) (a : Advance) : State :=
  { s with
    mails := s.mails ++ (a.mail.map (a.id, ·)).toList
    advanced := a :: s.advanced }

/-- The step of a drip is sent if the contact has an address. -/
def State.mailStep (s : State) (n : Nat) (id : Uuid) (drip : LeadDripState) (step : DripStep)
    (email : Option String) : State :=
  s.advances
    { n
      id
      stepIndex := drip.stepIndex
      mail := (address email).map fun recipient =>
        { stepIndex := drip.stepIndex
          recipient
          subject := step.subject
          body := step.body
          late := s.stopped id } }

/-- The locks of a request that stops a drip, and the lead as it writes it. -/
def State.locks (s : State) (n : Nat) (tenantId id : Uuid) (f : SweptLead → SweptLead)
    (proc : Proc) : Option State :=
  (s.lead n tenantId id).bind fun lead =>
    (s.leads.write n id (some (f lead))).map fun leads => { s with leads }.goes n proc

/-- The process ends. -/
def State.ends (s : State) (n : Nat) (leads : Table Uuid SweptLead Nat)
    (drips : Table Uuid LeadDripState Nat) (escalations : List Uuid) : State :=
  { s with
    leads
    drips
    escalations
    procs := Function.update s.procs n none
    advanced := s.advanced.filter (·.n ≠ n)
    stopped := fun id => s.stopped id || (drips.rows id).any (·.stoppedAt.isSome) }

/-- A sweep commits, with its escalations. -/
def State.commits (s : State) (n : Nat) (escalated : List Uuid) : State :=
  s.ends n (s.leads.commit n) (s.drips.commit n) (s.escalations ++ escalated)

/-- One statement, one mail, or the end of a transaction. -/
def step (s : State) : Label → Option State
  | .create id tenantId agentId now =>
    (s.leads.publish id { id, tenantId, agentId, createdAt := now }).bind fun leads =>
      (s.drips.publish id { tenantId, nextSendAt := now }).map fun drips =>
        { s with leads, drips }
  | .assign n id agentId =>
    if (s.procs n).isSome then none
    else
      (s.leads.visible n id).bind fun lead =>
        (s.leads.write n id (some { lead with agentId })).map fun leads =>
          { s with leads := leads.commit n }
  | .listDueDrips n tenantId now override order =>
    if (s.procs n).isSome then none
    else
      let rows := s.drips.load n (s.drips.scan n (due tenantId now))
      some (s.goes n
        (.sweep tenantId now (dripSequence override) (.advancing (order.page rows 200))))
  | .check n clock =>
    match s.procs n with
    | some (.sweep tenantId now sequence (.advancing ((id, drip) :: due))) =>
      some (s.goes n
        (.sweep tenantId now sequence (s.checks n tenantId sequence id drip due clock)))
    | _ => none
  | .mail n email clock =>
    match s.procs n with
    | some (.sweep tenantId now sequence (.mailing id drip due)) =>
      -- the drip as it was listed: nobody reads it again
      sequence[drip.stepIndex]?.map fun step =>
        (s.mailStep n id drip step email).goes n
          (.sweep tenantId now sequence (.writing id (advance sequence drip step clock) due))
    | _ => none
  | .flush n =>
    match s.procs n with
    | some (.sweep tenantId now sequence (.writing id columns due)) =>
      s.update n id columns (.sweep tenantId now sequence (.advancing due))
    | _ => none
  | .escalate n escalationMinutes found =>
    match s.procs n with
    | some (.sweep tenantId now sequence (.advancing [])) =>
      let cutoff := now - escalationMinutes * 60
      -- `NOT EXISTS` sees the activities that are committed by now
      let ids := (s.leads.scan n (unassigned tenantId cutoff)).filter (· ∉ s.escalations)
      if found.Perm ids then
        some (s.goes n (.sweep tenantId now sequence (.escalated found)))
      else none
    | _ => none
  | .transitionStage n tenantId id toStage =>
    if (s.procs n).isSome then none
    else
      s.locks n tenantId id (fun lead => { lead with stage := toStage })
        (if toStage.dripActive then .done else .stopping tenantId id .stageAdvanced)
  | .recordActivity n tenantId id =>
    if (s.procs n).isSome then none
    else s.locks n tenantId id (fun lead => lead) (.stopping tenantId id .replied)
  | .readDrip n now =>
    match s.procs n with
    | some (.stopping tenantId id reason) =>
      -- the lead is locked, its drip is not
      if (s.drips.visible n id).any fun drip =>
          drip.tenantId = tenantId && drip.stoppedAt.isNone then
        some (s.goes n (.flushing id (stop reason now)))
      else some (s.goes n .done)
    | _ => none
  | .flushStop n =>
    match s.procs n with
    | some (.flushing id columns) => s.update n id columns .done
    | _ => none
  | .commit n =>
    match s.procs n with
    | some (.sweep _ _ _ (.escalated ids)) => some (s.commits n ids)
    | some .done => some (s.commits n [])
    | _ => none
  | .abort n =>
    if (s.procs n).isSome then
      some (s.ends n (s.leads.rollback n) (s.drips.rollback n) s.escalations)
    else none

/-- Any number of leads, sweeps and requests, from empty tables on. -/
def machine : Machine State Label where
  init s := s = ⟨.empty, .empty, [], fun _ => none, [], [], fun _ => false⟩
  step := step

/-! ### What is expected, and of which runs -/

/-- The steps a lead has been sent. -/
def State.steps (s : State) (id : Uuid) : List Nat :=
  (effectsOf id s.mails).map (·.stepIndex)

/-- What the claim says of a state. -/
structure Orderly (s : State) : Prop where
  /-- At most once each, and in order. -/
  steps : ∀ id, (s.steps id).Pairwise (· < ·)
  stopped : ∀ id, ∀ mail ∈ effectsOf id s.mails, mail.late = false
  escalated : ∀ id, s.escalations.count id ≤ 1

/-- How far the committed drips have come. -/
def State.level (s : State) (id : Uuid) : Nat :=
  (s.drips.rows id).elim 0 (·.stepIndex)

/-- A drip is advanced while the committed row is at the step that the sweep has read, not
stopped if a mail is sent, and advanced by no other sweep that is still open; a sweep that
fails has sent no mail; the leads that a sweep escalates are not escalated when it commits. -/
def Steady (s : State) : Label → Prop
  | .mail n email _ =>
    match s.procs n with
    | some (.sweep _ _ _ (.mailing id drip _)) =>
      (s.drips.rows id).any (fun row => row.stepIndex = drip.stepIndex &&
        (row.stoppedAt.isNone || (address email).isNone)) = true ∧
          ∀ other ∈ s.advanced, other.id ≠ id
    | _ => True
  | .commit n =>
    match s.procs n with
    | some (.sweep _ _ _ (.escalated ids)) => ∀ id ∈ ids, id ∉ s.escalations
    | _ => True
  | .abort n => ∀ sent ∈ s.advanced, sent.n = n → sent.mail.isNone = true
  | _ => True

/-- By cases, as `Steady` is defined. -/
instance (s : State) (l : Label) : Decidable (Steady s l) := by
  unfold Steady
  split
  · split <;> infer_instance
  · split <;> infer_instance
  · infer_instance
  · infer_instance

end Drips

end Leads

end RealEstate
