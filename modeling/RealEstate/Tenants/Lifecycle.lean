import RealEstate.Core.Exceptions
import RealEstate.Systems.Rows
import RealEstate.Tenants.Models

/-!
# Tenant lifecycle and billing (`modules/tenants/service.py`, `billing.py`)

Every operation that writes a tenant's status or its deletion schedule: the
platform routes, the billing webhook, and the sweeps and the purge of
`workers/tasks/tenants.py`. Each takes the platform tables and returns them
changed; an error rolls everything back.
-/

namespace RealEstate

namespace Tenants

open RealEstate.Core Systems

/-- The settings the lifecycle reads, in days. -/
structure LifecycleSettings where
  trialLengthDays : Int := 14
  billingGraceDays : Int := 7
  offboardDeletionDelayDays : Int := 30

/-- Days in seconds. -/
def days (n : Int) : Seconds := n * 86400

/-- The platform tables. `events` is the idempotency log of `billing_events`. -/
structure Platform where
  now : DateTime
  tenants : Rows Uuid Tenant
  subscriptions : Rows Uuid TenantSubscription
  events : List (String × String)

/-- No such tenant. -/
def tenantNotFound : AppError := ⟨.notFound, "Tenant not found."⟩

/-- `_get_or_404`, then an update of the row found. -/
def Platform.updateTenant (p : Platform) (tenantId : Uuid) (f : Tenant → Tenant) :
    Except AppError Platform :=
  match p.tenants.row tenantId with
  | none => .error tenantNotFound
  | some tenant => .ok { p with tenants := p.tenants.put tenantId (f tenant) }

/-! ### `TenantService` -/

/-- `TenantService.create`. -/
def Platform.create (settings : LifecycleSettings) (p : Platform) (id : Uuid) (name slug : String)
    (blob : JsonObject) : Except AppError Platform :=
  if (p.tenants.select (·.slug = slug)) ≠ [] then
    .error ⟨.conflict, s!"A tenant with slug '{slug}' already exists."⟩
  else
    .ok { p with
      tenants := p.tenants.put id
        { id, name, slug, settings := blob
          trialEndsAt := some (p.now + days settings.trialLengthDays) } }

/-- `set_status`. -/
def Platform.setStatus (p : Platform) (tenantId : Uuid) (status : TenantStatus) :
    Except AppError Platform :=
  p.updateTenant tenantId fun tenant => { tenant with status }

/-- The keys of `PLANS`. -/
def knownPlans : List String := ["trial", "starter", "growth", "enterprise"]

/-- `set_plan`. -/
def Platform.setPlan (p : Platform) (tenantId : Uuid) (plan : String) :
    Except AppError Platform :=
  if plan ∉ knownPlans then .error ⟨.conflict, s!"Unknown plan '{plan}'."⟩
  else p.updateTenant tenantId fun tenant => { tenant with plan }

/-- `start_offboard`. -/
def Platform.startOffboard (settings : LifecycleSettings) (p : Platform) (tenantId : Uuid) :
    Except AppError Platform :=
  p.updateTenant tenantId fun tenant =>
    { tenant with
      status := .suspended
      offboardingAt := some p.now
      deletionScheduledAt := some (p.now + days settings.offboardDeletionDelayDays) }

/-- `cancel_offboard`. -/
def Platform.cancelOffboard (p : Platform) (tenantId : Uuid) : Except AppError Platform :=
  match p.tenants.row tenantId with
  | none => .error tenantNotFound
  | some tenant =>
    if tenant.deletedAt.isSome then
      .error ⟨.conflict, "This tenant has already been deleted."⟩
    else
      p.updateTenant tenantId fun tenant =>
        { tenant with
          status := .active
          offboardingAt := none
          deletionScheduledAt := none }

/-! ### Billing -/

/-- `BillingEventType`. -/
inductive BillingEventType where
  | subscriptionActivated
  | subscriptionRenewed
  | paymentFailed
  | subscriptionCanceled
  deriving DecidableEq, Repr

/-- `BillingEvent`, verified. `dataTenantId` is the `tenant_id` of its raw data. -/
structure BillingEvent where
  provider : String
  eventId : String
  type : BillingEventType
  subscriptionId : Option String := none
  customerId : Option String := none
  dataTenantId : Option String := none
  plan : Option String := none
  currentPeriodEnd : Option DateTime := none

section Billing

variable (parseUuid : String → Option Uuid) (settings : LifecycleSettings)

/-- `_tenant_id_from_event`. -/
def BillingEvent.tenantId (event : BillingEvent) : Option Uuid :=
  (event.customerId.bind parseUuid) <|> (event.dataTenantId.bind parseUuid)

/-- `get_subscription_by_provider_id`. -/
def Platform.subscriptionByProviderId (p : Platform) (provider : String)
    (subscriptionId : Option String) : Option Uuid :=
  match subscriptionId with
  | none | some "" => none
  | some subscriptionId =>
    (p.subscriptions.select fun sub =>
      sub.provider = provider ∧ sub.providerSubscriptionId = some subscriptionId).head?

/-- `_resolve_subscription`: the tenant whose mirror row the event targets. -/
def Platform.resolveSubscription (p : Platform) (event : BillingEvent) :
    Platform × Option Uuid :=
  match p.subscriptionByProviderId event.provider event.subscriptionId with
  | some tenantId => (p, some tenantId)
  | none =>
    match event.tenantId parseUuid with
    | none => (p, none)
    | some tenantId =>
      match p.tenants.row tenantId with
      | none => (p, none)
      | some tenant =>
        let sub := match p.subscriptions.row tenantId with
          | some existing =>
            { existing with
              providerSubscriptionId := event.subscriptionId
              providerCustomerId := event.customerId }
          | none =>
            { tenantId
              provider := event.provider
              plan := if event.plan = some "" then tenant.plan else event.plan.getD tenant.plan
              status := .incomplete
              providerCustomerId := event.customerId
              providerSubscriptionId := event.subscriptionId }
        ({ p with subscriptions := p.subscriptions.put tenantId sub }, some tenantId)

/-- `_reactivate_tenant`: it also cancels an offboarding in flight. -/
def Platform.reactivateTenant (p : Platform) (tenantId : Uuid) : Platform :=
  match p.tenants.row tenantId with
  | none => p
  | some tenant =>
    { p with
      tenants := p.tenants.put tenantId
        { tenant with
          status := .active
          offboardingAt := none
          deletionScheduledAt := none } }

/-- The plan of an activation: a plan nobody models is kept out of the mirror. -/
def Platform.applyPlan (p : Platform) (tenantId : Uuid) (sub : TenantSubscription)
    (plan : Option String) : Except AppError (Platform × TenantSubscription) :=
  match plan with
  | none => .ok (p, sub)
  | some plan =>
    if plan ∈ knownPlans then (p.setPlan tenantId plan).map fun p => (p, { sub with plan })
    else .ok (p, sub)

/-- `_apply`. -/
def Platform.applyEvent (p : Platform) (event : BillingEvent) : Except AppError Platform :=
  match p.resolveSubscription parseUuid event with
  | (p, none) => .ok p
  | (p, some tenantId) =>
    match p.subscriptions.row tenantId with
    | none => .ok p
    | some sub =>
      match event.type with
      | .subscriptionActivated | .subscriptionRenewed =>
        let sub := { sub with
          status := .active
          graceUntil := none
          currentPeriodEnd := event.currentPeriodEnd <|> sub.currentPeriodEnd }
        (p.applyPlan tenantId sub event.plan).map fun (p, sub) =>
          { p with subscriptions := p.subscriptions.put tenantId sub }.reactivateTenant tenantId
      | .paymentFailed =>
        .ok { p with
          subscriptions := p.subscriptions.put tenantId
            { sub with
              status := .pastDue
              graceUntil := some (p.now + days settings.billingGraceDays) } }
      | .subscriptionCanceled =>
        { p with
          subscriptions := p.subscriptions.put tenantId { sub with status := .canceled }
        }.setStatus tenantId .suspended

/-- `handle_webhook` of a verified event: a replay is acknowledged without effect. -/
def Platform.handleWebhook (p : Platform) (event : BillingEvent) : Except AppError Platform :=
  if (event.provider, event.eventId) ∈ p.events then .ok p
  else
    { p with events := (event.provider, event.eventId) :: p.events }.applyEvent parseUuid settings
      event

/-! ### Sweeps -/

/-- The body of the loop of `suspend_grace_expired`. -/
def Platform.suspendPastDue (p : Platform) (tenantId : Uuid) : Except AppError Platform := do
  let p ← p.setStatus tenantId .suspended
  match p.subscriptions.row tenantId with
  | none => return p
  | some sub =>
    -- The window is cleared, so that a re-run does not suspend again.
    return { p with
      subscriptions := p.subscriptions.put tenantId { sub with graceUntil := none } }

/-- `list_grace_expired_subscriptions`. -/
def Platform.graceExpired (p : Platform) : List Uuid :=
  p.subscriptions.select fun sub => sub.status = .pastDue ∧ sub.graceUntil.any (· ≤ p.now)

/-- `suspend_grace_expired`. -/
def Platform.suspendGraceExpired (p : Platform) : Except AppError Platform :=
  p.graceExpired.foldlM Platform.suspendPastDue p

/-- The body of the loop of `expire_trials`. -/
def Platform.expireTrial (p : Platform) (tenantId : Uuid) : Except AppError Platform :=
  if (p.subscriptions.row tenantId).any (·.status = .active) then p.setStatus tenantId .active
  else p.setStatus tenantId .suspended

/-- `list_trials_expiring`. -/
def Platform.trialsExpiring (p : Platform) : List Uuid :=
  p.tenants.select fun tenant => tenant.status = .trial ∧ tenant.trialEndsAt.any (· ≤ p.now)

/-- `expire_trials`. -/
def Platform.expireTrials (p : Platform) : Except AppError Platform :=
  p.trialsExpiring.foldlM Platform.expireTrial p

/-- `list_deletions_due`. -/
def Platform.deletionsDue (p : Platform) : List Uuid :=
  p.tenants.select fun tenant =>
    tenant.deletionScheduledAt.any (· ≤ p.now) ∧ tenant.deletedAt.isNone

/-- The hard delete of a tenant, with the cascade to its subscription. -/
def Platform.deleteTenant (p : Platform) (tenantId : Uuid) : Platform :=
  { p with
    tenants := p.tenants.delete tenantId
    subscriptions := p.subscriptions.delete tenantId }

/-- `purge_scheduled_tenants`. -/
def Platform.purgeScheduledTenants (p : Platform) : Platform :=
  p.deletionsDue.foldl Platform.deleteTenant p

end Billing

end Tenants

end RealEstate
