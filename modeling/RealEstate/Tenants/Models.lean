import RealEstate.Core.Base

/-!
# Tenants and their subscriptions (`modules/tenants/models.py`)

The platform-level rows the lifecycle reads and writes: the tenant itself
(status, trial, offboarding schedule) and the mirror of its billing
subscription.
-/

namespace RealEstate

namespace Tenants

open RealEstate.Core

/-- `TenantStatus`. -/
inductive TenantStatus where
  | trial
  | active
  | suspended
  deriving DecidableEq, Repr

/-- The stored spelling of a status (`TenantStatus.value`). -/
def TenantStatus.value : TenantStatus → String
  | .trial => "trial"
  | .active => "active"
  | .suspended => "suspended"

/-- One row of `tenants`. -/
structure Tenant where
  id : Uuid
  name : String
  slug : String
  status : TenantStatus := .trial
  plan : String := "trial"
  trialEndsAt : Option DateTime := none
  offboardingAt : Option DateTime := none
  deletionScheduledAt : Option DateTime := none
  deletedAt : Option DateTime := none
  exportObjectKey : Option String := none
  settings : JsonObject := []

/-- `SubscriptionStatus`. -/
inductive SubscriptionStatus where
  | trialing
  | active
  | pastDue
  | canceled
  | incomplete
  deriving DecidableEq, Repr

/-- One row of `tenant_subscriptions`; `tenant_id` is unique. -/
structure TenantSubscription where
  tenantId : Uuid
  provider : String
  plan : String
  status : SubscriptionStatus
  providerCustomerId : Option String := none
  providerSubscriptionId : Option String := none
  currentPeriodEnd : Option DateTime := none
  graceUntil : Option DateTime := none

/-- `_to_context` of the workers: the context a sweep runs a tenant under. -/
def Tenant.toContext (tenant : Tenant) : TenantContext where
  id := tenant.id
  slug := tenant.slug
  name := tenant.name
  status := tenant.status.value
  settings := tenant.settings
  plan := tenant.plan

end Tenants

end RealEstate
