import RealEstate.Core.Cache
import RealEstate.Tenants.Models
import RealEstate.Tenants.SiteConfig

/-!
# Who serves a domain (`modules/tenants/service.py`, `core/tenancy.py`)

`DomainTenantResolver.resolve` and `GET /site/config`, split at their Redis commands and
database reads, beside transactions that change tenants and then run their invalidations.

- `Change`, `invalidations`: what a transaction of `TenantService` writes, and the
  callbacks it leaves for after its commit.
- `Progress`: a request resolves its host, out of the domain cache or the database, and
  a site-config request goes on to `cache_aside`.
- `step`: one command, one read, one commit, or time passing.
-/

namespace RealEstate

namespace Tenants

namespace Resolution

open RealEstate.Core Systems Cache

/-- Which domain belongs to which tenant. -/
structure Directory where
  owner : String → Option Uuid
  domains : Uuid → List String
  mem_domains : ∀ domain tenantId, domain ∈ domains tenantId ↔ owner domain = some tenantId

/-- `_domain_cache_key`. -/
def domainCacheKey (domain : String) : String := "tenant:domain:" ++ domain

/-- The cache group of a tenant's site configuration. -/
def siteConfigGroup (tenantId : Uuid) : Group where
  tenantId := tenantId.repr
  entity := "site_config"
  tenantId_plain := colon_not_mem_repr tenantId
  entity_plain := by decide

/-! ### Changes of a tenant -/

/-- A change to a tenant. -/
inductive Change where
  /-- `update`, and `replace_settings_key`. -/
  | details (name : Option String) (settings : Option JsonObject)
  /-- `set_status`, `start_offboard` and `cancel_offboard`. -/
  | status (status : TenantStatus)
  /-- `set_plan`. -/
  | plan (plan : String)

/-- The tenant after it. -/
def Change.apply (change : Change) (tenant : Tenant) : Tenant :=
  match change with
  | .details name settings =>
    { tenant with name := name.getD tenant.name, settings := settings.getD tenant.settings }
  | .status newStatus => { tenant with status := newStatus }
  | .plan newPlan => { tenant with plan := newPlan }

/-- `_get_or_404` and the write of one change. -/
def applyChange (tenants : Rows Uuid Tenant) (c : Uuid × Change) : Option (Rows Uuid Tenant) :=
  (tenants.row c.1).map fun tenant => tenants.put c.1 (c.2.apply tenant)

/-- A post-commit callback: the `DEL` of a tenant's domains, or the bump of its site
configuration. -/
inductive Invalidation where
  | domains (tenantId : Uuid)
  | siteConfig (tenantId : Uuid)

/-- `_invalidate_domains_after_commit`. -/
def domainInvalidations (directory : Directory) (tenantId : Uuid) : List Invalidation :=
  if directory.domains tenantId = [] then [] else [.domains tenantId]

/-- The callbacks a change registers. A status is not part of the site configuration. -/
def invalidations (directory : Directory) (c : Uuid × Change) : List Invalidation :=
  match c.2 with
  | .status _ => domainInvalidations directory c.1
  | .details _ _ | .plan _ => domainInvalidations directory c.1 ++ [.siteConfig c.1]

/-! ### Requests -/

/-- What the two caches hold. -/
inductive Payload where
  | context (tenant : TenantContext)
  | siteConfig (config : SiteConfig)

/-- Where a request stands. A context is stamped with the commits before its database read, and
a site configuration with those of the context it was rendered from. -/
inductive Progress where
  | asking
  | querying
  | keeping (tenant : Stamped TenantContext)
  /-- `resolve` returned. -/
  | resolved (tenant : Option (Stamped TenantContext))
  | versioned (tenant : Stamped TenantContext) (version : Nat)
  | rendering (tenant : Stamped TenantContext) (version : Option Nat)
  | storing (tenant : Stamped TenantContext) (version : Nat) (config : SiteConfig)
  | served (tenant : Stamped TenantContext) (config : Stamped SiteConfig)

/-- The context the request runs under. -/
def Progress.tenant : Progress → Option (Stamped TenantContext)
  | .asking | .querying | .resolved none => none
  | .keeping tenant | .resolved (some tenant) | .versioned tenant _ | .rendering tenant _
  | .storing tenant _ _ | .served tenant _ => some tenant

/-- A request for a host. -/
structure Request where
  host : String
  /-- It is a `GET /site/config`. -/
  siteConfig : Bool
  /-- The commits that changed the host's tenant and whose `DEL` had finished when the request
  started. -/
  after : List Nat
  /-- Those whose bump had finished. -/
  configAfter : List Nat
  progress : Progress

/-- A committed transaction and the callbacks it has still to run. -/
structure Writer where
  committedAt : Nat
  todo : List Invalidation

/-- The committed tenants after `commits` transactions, Redis, requests and writers. `dropped`
and `bumped` list the commits whose `DEL` and whose bump finished. -/
structure State where
  tenants : Rows Uuid Tenant
  commits : Nat
  redis : Store String (Cached Payload)
  requests : Rows Nat Request
  writers : Rows Nat Writer
  dropped : Uuid → List Nat
  bumped : Group → List Nat

/-- `ok` says whether the Redis command of the step succeeded. -/
inductive Label where
  | wait (seconds : Nat)
  | commit (n : Nat) (changes : List (Uuid × Change))
  | invalidate (n : Nat) (ok : Bool)
  | start (n : Nat) (host : String) (siteConfig : Bool)
  | ask (n : Nat) (ok : Bool)
  | query (n : Nat)
  | keep (n : Nat) (ok : Bool)
  | version (n : Nat) (ok : Bool)
  | look (n : Nat) (ok : Bool)
  | render (n : Nat) (usage : UsageSnapshot)
  | store (n : Nat) (ok : Bool)

/-- Request `n` moves on. -/
def State.move (s : State) (n : Nat) (request : Request) (progress : Progress) : State :=
  { s with requests := s.requests.put n { request with progress } }

/-- `redis.delete(*keys)`. -/
def dropDomains (redis : Store String (Cached Payload)) (domains : List String) :
    Store String (Cached Payload) :=
  domains.foldl (fun redis domain => redis.del (domainCacheKey domain)) redis

/-- The site configuration under a version. -/
def cachedConfig (redis : Store String (Cached Payload)) (tenantId : Uuid) (version : Nat) :
    Option (Stamped SiteConfig) :=
  match lookup redis (valueKey (siteConfigGroup tenantId) "_" version) with
  | some ⟨.siteConfig config, loadedAt⟩ => some ⟨config, loadedAt⟩
  | _ => none

section Machine

variable (directory : Directory) (domainTtl configTtl : Nat)

/-- `get_by_domain`. -/
def State.getByDomain (s : State) (domain : String) : Option Tenant :=
  (directory.owner domain).bind s.tenants.row

/-- The `GET` of the domain's key. -/
def State.ask (s : State) (n : Nat) (ok : Bool) (request : Request) : Option State :=
  match request.progress with
  | .asking =>
    if ok = false then some (s.move n request .querying)
    else match lookup s.redis (domainCacheKey request.host) with
      | none => some (s.move n request .querying)
      | some ⟨.context tenant, loadedAt⟩ =>
        some (s.move n request (.resolved (some ⟨tenant, loadedAt⟩)))
      -- A payload of the other kind is no tenant context: building one from it raises.
      | some ⟨.siteConfig _, _⟩ => none
  | _ => none

/-- The database lookup on a miss. -/
def State.query (s : State) (n : Nat) (request : Request) : Option State :=
  match request.progress with
  | .querying =>
    match s.getByDomain directory request.host with
    | none => some (s.move n request (.resolved none))
    | some tenant => some (s.move n request (.keeping ⟨tenant.toContext, s.commits⟩))
  | _ => none

/-- The `SET` of the context; `resolve` returns it either way. -/
def State.keep (s : State) (n : Nat) (ok : Bool) (request : Request) : Option State :=
  match request.progress with
  | .keeping tenant =>
    some { s.move n request (.resolved (some tenant)) with
      redis := if ok then
          remember s.redis (domainCacheKey request.host)
            ⟨.context tenant.value, tenant.loadedAt⟩ domainTtl
        else s.redis }
  | _ => none

/-- A site-config request reads the version; a failure also stands for `cache_enabled` off. -/
def State.version (s : State) (n : Nat) (ok : Bool) (request : Request) : Option State :=
  match request.progress with
  | .resolved (some tenant) =>
    -- The middleware answers 402 for a suspended tenant.
    if request.siteConfig = false ∨ tenant.value.status = "suspended" then none
    else some (s.move n request
      (if ok then .versioned tenant (currentVersion s.redis (siteConfigGroup tenant.value.id))
      else .rendering tenant none))
  | _ => none

/-- The configuration is looked up under the version; a failing cache counts as a miss. -/
def State.look (s : State) (n : Nat) (ok : Bool) (request : Request) : Option State :=
  match request.progress with
  | .versioned tenant version =>
    if ok = false then some (s.move n request (.rendering tenant none))
    else match cachedConfig s.redis tenant.value.id version with
      | some config => some (s.move n request (.served tenant config))
      | none => some (s.move n request (.rendering tenant (some version)))
  | _ => none

/-- The loader: it reads the usage, and renders the context the request came with. -/
def State.render (s : State) (n : Nat) (usage : UsageSnapshot) (request : Request) :
    Option State :=
  match request.progress with
  | .rendering tenant none =>
    some (s.move n request (.served tenant ⟨siteConfig tenant.value usage, tenant.loadedAt⟩))
  | .rendering tenant (some version) =>
    some (s.move n request (.storing tenant version (siteConfig tenant.value usage)))
  | _ => none

/-- What was rendered is stored and served. -/
def State.store (s : State) (n : Nat) (ok : Bool) (request : Request) : Option State :=
  match request.progress with
  | .storing tenant version config =>
    some { s.move n request (.served tenant ⟨config, tenant.loadedAt⟩) with
      redis := if ok then
          remember s.redis (valueKey (siteConfigGroup tenant.value.id) "_" version)
            ⟨.siteConfig config, tenant.loadedAt⟩ configTtl
        else s.redis }
  | _ => none

/-- A transaction commits and leaves its callbacks. -/
def State.commit (s : State) (n : Nat) (changes : List (Uuid × Change)) : Option State :=
  (changes.foldlM applyChange s.tenants).map fun tenants =>
    { s with
      tenants
      commits := s.commits + 1
      writers := s.writers.put n ⟨s.commits + 1, changes.flatMap (invalidations directory)⟩ }

/-- The next callback of a committed transaction runs. -/
def State.invalidate (s : State) (n : Nat) (ok : Bool) (writer : Writer) : Option State :=
  match writer.todo with
  | .domains tenantId :: todo =>
    some { s with
      redis := if ok then dropDomains s.redis (directory.domains tenantId) else s.redis
      writers := s.writers.put n { writer with todo }
      dropped := Function.update s.dropped tenantId
        (s.dropped tenantId ++ [writer.committedAt]) }
  | .siteConfig tenantId :: todo =>
    some { s with
      redis := if ok then bumpVersion s.redis (siteConfigGroup tenantId) else s.redis
      writers := s.writers.put n { writer with todo }
      bumped := Function.update s.bumped (siteConfigGroup tenantId)
        (s.bumped (siteConfigGroup tenantId) ++ [writer.committedAt]) }
  | [] => none

/-- A new request, and what had been invalidated when it started. -/
def State.start (s : State) (n : Nat) (host : String) (siteConfig : Bool) : State :=
  { s with
    requests := s.requests.put n
      { host
        siteConfig
        after := (directory.owner host).elim [] s.dropped
        configAfter := (directory.owner host).elim [] fun t => s.bumped (siteConfigGroup t)
        progress := .asking } }

/-- One command, one read, one commit, or time passing. The times to live are
`tenant_cache_ttl_seconds` and `cache_site_config_ttl_seconds`. -/
def step (s : State) : Label → Option State
  | .wait seconds => some { s with redis := s.redis.wait seconds }
  | .commit n changes => if n ∈ s.writers.keys then none else s.commit directory n changes
  | .invalidate n ok => (s.writers.row n).bind (s.invalidate directory n ok)
  | .start n host siteConfig =>
    if n ∈ s.requests.keys then none else some (s.start directory n host siteConfig)
  | .ask n ok => (s.requests.row n).bind (s.ask n ok)
  | .query n => (s.requests.row n).bind (s.query directory n)
  | .keep n ok => (s.requests.row n).bind (s.keep domainTtl n ok)
  | .version n ok => (s.requests.row n).bind (s.version n ok)
  | .look n ok => (s.requests.row n).bind (s.look n ok)
  | .render n usage => (s.requests.row n).bind (s.render n usage)
  | .store n ok => (s.requests.row n).bind (s.store configTtl n ok)

/-- Requests and changes, from any committed tenants and an empty Redis on. -/
def resolution : Machine State Label where
  init s := (∀ tenantId tenant, s.tenants.row tenantId = some tenant → tenant.id = tenantId) ∧
    s.commits = 0 ∧ s.redis = .empty ∧ s.requests = .empty ∧ s.writers = .empty ∧
    (s.dropped = fun _ => []) ∧ s.bumped = fun _ => []
  step := step directory domainTtl configTtl

end Machine

end Resolution

end Tenants

end RealEstate
