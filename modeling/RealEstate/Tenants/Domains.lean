import RealEstate.Core.Exceptions
import RealEstate.Core.Json
import RealEstate.Systems.UnitOfWork
import RealEstate.Tenants.Models

/-!
# The domains of a tenant (`modules/tenants/service.py`)

A tenant is created with its primary domain. A domain added as primary demotes the ones that the
request has read, and any but the primary domain can be removed.

- `create`, `addDomain`, `removeDomain`: the requests, on the rows they load.
- `domains`: the requests as sessions. The rows of both tables are filed under a `Key`, and
  those of a domain under its tenant, which never changes.
- `OnePrimary`: each tenant has exactly one primary domain.
- `StillPrimary`: the condition under which `Tenants.PrimaryDomain` proves it.
-/

namespace RealEstate

namespace Tenants

namespace Domains

open RealEstate.Core Systems

deriving instance DecidableEq for Tenant

/-! ### The service -/

/-- One row of `tenant_domains`. -/
structure TenantDomain where
  domain : String
  isPrimary : Bool
  verificationToken : String
  deriving DecidableEq

/-- Tenants and their domains in one table: a domain's key names its tenant. -/
inductive Key where
  | tenant (id : Uuid)
  | domain (tenantId id : Uuid)
  deriving DecidableEq

/-- A row of either table. -/
inductive Row where
  | tenant (tenant : Tenant)
  | domain (domain : TenantDomain)
  deriving DecidableEq

/-- What a new agency gives. -/
structure TenantCreate where
  name : String
  slug : String
  domain : String
  settings : JsonObject

/-- What a new domain gives. -/
structure TenantDomainCreate where
  domain : String
  isPrimary : Bool := false

/-- The rows a request has loaded. -/
abbrev Rows := List (Key × Row)

/-- The unique index on the slug. -/
def Row.hasSlug (slug : String) : Row → Bool
  | .tenant t => t.slug = slug
  | .domain _ => false

/-- The unique index on the domain. -/
def Row.hasDomain (name : String) : Row → Bool
  | .tenant _ => false
  | .domain d => d.domain = name

/-- A primary domain. -/
def Row.isPrimary : Row → Bool
  | .tenant _ => false
  | .domain d => d.isPrimary

/-- `existing.is_primary = False`. -/
def Row.demoted : Row → Row
  | .tenant t => .tenant t
  | .domain d => .domain { d with isPrimary := false }

/-- A domain of somebody's. -/
def inUse (domain : String) : AppError :=
  ⟨.conflict, "Domain '" ++ domain ++ "' is already in use."⟩

/-- No such tenant. -/
def notFound : AppError := ⟨.notFound, "Tenant not found."⟩

/-- What a request is going to write. -/
abbrev Writes := List (Write Key Row Empty)

/-- A new row. -/
def inserted (key : Key) (row : Row) : Write Key Row Empty := ⟨key, .insert row, []⟩

/-- `create`. The trial ends at `trialEndsAt`. -/
def create (id domainId : Uuid) (data : TenantCreate) (trialEndsAt : DateTime)
    (verificationToken : String) (rows : Rows) : Except AppError Writes :=
  if rows.any (·.2.hasSlug data.slug) then
    .error ⟨.conflict, "A tenant with slug '" ++ data.slug ++ "' already exists."⟩
  else if rows.any (·.2.hasDomain data.domain) then .error (inUse data.domain)
  else
    .ok [inserted (.tenant id) (.tenant
        { id, name := data.name, slug := data.slug, settings := data.settings, plan := "trial"
          trialEndsAt := some trialEndsAt }),
      inserted (.domain id domainId) (.domain
        { domain := data.domain, isPrimary := true, verificationToken })]

/-- The domains of a tenant among the rows it loaded. -/
def domainsOf (tenantId : Uuid) (rows : Rows) : Rows :=
  rows.filter fun row =>
    match row.1 with
    | .tenant _ => false
    | .domain tenant _ => tenant = tenantId

/-- `add_domain`. -/
def addDomain (tenantId domainId : Uuid) (data : TenantDomainCreate) (verificationToken : String)
    (rows : Rows) : Except AppError Writes :=
  if rows.all (·.1 ≠ .tenant tenantId) then .error notFound
  else if rows.any (·.2.hasDomain data.domain) then .error (inUse data.domain)
  else
    let demotions : Writes :=
      if data.isPrimary then
        (domainsOf tenantId rows).map fun (key, row) => ⟨key, .update row row.demoted, []⟩
      else []
    .ok (demotions ++ [inserted (.domain tenantId domainId) (.domain
      { domain := data.domain, isPrimary := data.isPrimary, verificationToken })])

/-- `remove_domain`. -/
def removeDomain (tenantId domainId : Uuid) (rows : Rows) : Except AppError Writes :=
  if rows.all (·.1 ≠ .tenant tenantId) then .error notFound
  else
    match rows.find? (·.1 = .domain tenantId domainId) with
    | none => .error ⟨.notFound, "Domain not found."⟩
    | some (key, row) =>
      if row.isPrimary then
        .error ⟨.conflict, "The primary domain cannot be removed."⟩
      else .ok [⟨key, .delete, []⟩]

/-! ### Sessions -/

/-- The requests on tenants and domains. -/
inductive Op where
  | create (id domainId : Uuid) (data : TenantCreate) (trialEndsAt : DateTime)
      (verificationToken : String)
  | addDomain (tenantId domainId : Uuid) (data : TenantDomainCreate) (verificationToken : String)
  | removeDomain (tenantId domainId : Uuid)

/-- The rows that the `SELECT`s of a request return: the tenant with its domains, and whoever
has the slug or the domain name already. -/
def loads : Op → Key → Row → Bool
  | .create _ _ data _ _, _, row => row.hasSlug data.slug || row.hasDomain data.domain
  | .addDomain tenantId _ data _, .tenant id, row =>
    id = tenantId || row.hasDomain data.domain
  | .addDomain tenantId _ data _, .domain tenant _, row =>
    tenant = tenantId || row.hasDomain data.domain
  | .removeDomain tenantId _, .tenant id, _ => id = tenantId
  | .removeDomain tenantId _, .domain tenant _, _ => tenant = tenantId

/-- What a request writes, from the rows it has loaded. -/
def plan (op : Op) (rows : Rows) : Option Writes :=
  match op with
  | .create id domainId data trialEndsAt verificationToken =>
    (create id domainId data trialEndsAt verificationToken rows).toOption
  | .addDomain tenantId domainId data verificationToken =>
    (addDomain tenantId domainId data verificationToken rows).toOption
  | .removeDomain tenantId domainId => (removeDomain tenantId domainId rows).toOption

/-- The `UPDATE` of a domain. -/
def overlay : Row → Row → Row → Row
  | .domain read, .domain edited, .domain current =>
    .domain {
      domain := column read.domain edited.domain current.domain
      isPrimary := column read.isPrimary edited.isPrimary current.isPrimary
      verificationToken :=
        column read.verificationToken edited.verificationToken current.verificationToken }
  | _, _, current => current

/-- What is unique: the slug of a tenant, and the name of a domain. -/
inductive Index where
  | slug (slug : String)
  | domain (domain : String)
  deriving DecidableEq

/-- The requests as units of work. -/
def domains : UnitOfWork Key Row Empty Index Op where
  loads := loads
  plan := plan
  overlay := overlay
  index
    | .tenant tenant => some (.slug tenant.slug)
    | .domain domain => some (.domain domain.domain)

/-- Both tables and the requests at work. -/
abbrev State := UnitOfWork.State Key Row Empty Op

/-- The domain is a primary one of the tenant. -/
def Primary (rows : Key → Option Row) (tenantId id : Uuid) : Prop :=
  (rows (.domain tenantId id)).any Row.isPrimary = true

/-- Each tenant has exactly one primary domain. -/
def OnePrimary (rows : Key → Option Row) : Prop :=
  ∀ tenantId, (rows (.tenant tenantId)).isSome → ∃! id, Primary rows tenantId id

/-- A demotion meets a domain that is still primary. -/
def StillPrimary (_ : Op) (w : Write Key Row Empty) (current : Row) : Prop :=
  match w.change with
  | .update _ _ => current.isPrimary = true
  | _ => True

/-- Whether a row is still primary is read off it. -/
instance (op : Op) (w : Write Key Row Empty) (current : Row) :
    Decidable (StillPrimary op w current) := by
  unfold StillPrimary
  split <;> infer_instance

end Domains

end Tenants

end RealEstate
