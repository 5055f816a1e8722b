import RealEstate.Core.Exceptions
import RealEstate.Tenants.Plans

/-!
# Usage counters and quotas (`modules/tenants/usage.py`)

- `TenantUsage.adjust`: the upsert every reservation and release ends in, clamped at zero.
- `reserveListing`, `reserveAgent`, `reserveStorage`: the quota check of a reservation and
  the counters after it.
- `releaseListings`, `releaseAgents`, `releaseStorage`.
-/

namespace RealEstate

namespace Tenants

open RealEstate.Core

/-- A row of `tenant_usage`, without its email counter. -/
structure TenantUsage where
  listingsCount : Int := 0
  agentsCount : Int := 0
  storageBytes : Int := 0
  deriving DecidableEq

/-- `adjust`: `greatest(counter + delta, 0)` in every column. -/
def TenantUsage.adjust (usage delta : TenantUsage) : TenantUsage where
  listingsCount := max (usage.listingsCount + delta.listingsCount) 0
  agentsCount := max (usage.agentsCount + delta.agentsCount) 0
  storageBytes := max (usage.storageBytes + delta.storageBytes) 0

/-- The two counters that count rows. -/
inductive Counter where
  | listings
  | agents
  deriving DecidableEq, Repr

/-- The limit of a plan. -/
def Counter.limit : Counter → PlanLimits → Option Nat
  | .listings => PlanLimits.maxListings
  | .agents => PlanLimits.maxAgents

/-- The detail of the `QuotaExceededError`. -/
def Counter.exceeded : Counter → String
  | .listings => "Your plan's listing limit has been reached."
  | .agents => "Your plan's agent limit has been reached."

/-- The column of a counter. -/
def TenantUsage.count (usage : TenantUsage) : Counter → Int
  | .listings => usage.listingsCount
  | .agents => usage.agentsCount

/-- A change of one counter. -/
def Counter.delta : Counter → Int → TenantUsage
  | .listings, n => { listingsCount := n }
  | .agents, n => { agentsCount := n }

/-- The check and the increment that `reserve_listing` and `reserve_agent` share, on the locked
row. -/
def TenantUsage.reserve (usage : TenantUsage) (counter : Counter) (plan : String) :
    Except AppError TenantUsage :=
  if (counter.limit (planLimits plan)).any fun limit => limit ≤ usage.count counter then
    .error ⟨.quotaExceeded, counter.exceeded⟩
  else .ok (usage.adjust (counter.delta 1))

/-- `reserve_listing`. -/
def reserveListing (usage : TenantUsage) (plan : String) : Except AppError TenantUsage :=
  usage.reserve .listings plan

/-- `reserve_agent`. -/
def reserveAgent (usage : TenantUsage) (plan : String) : Except AppError TenantUsage :=
  usage.reserve .agents plan

/-- `reserve_storage`. -/
def reserveStorage (usage : TenantUsage) (plan : String) (sizeBytes : Int) :
    Except AppError TenantUsage :=
  if (storageBytesLimit plan).any fun limit => limit < usage.storageBytes + sizeBytes then
    .error ⟨.quotaExceeded, "Your plan's storage limit has been reached."⟩
  else .ok (usage.adjust { storageBytes := sizeBytes })

/-- `release_listings`. -/
def releaseListings (usage : TenantUsage) (count : Int) : TenantUsage :=
  usage.adjust (Counter.listings.delta (-count))

/-- `release_agents`. -/
def releaseAgents (usage : TenantUsage) (count : Int) : TenantUsage :=
  usage.adjust (Counter.agents.delta (-count))

/-- `release_storage`. -/
def releaseStorage (usage : TenantUsage) (sizeBytes : Int) : TenantUsage :=
  usage.adjust { storageBytes := -sizeBytes }

/-- What a change of one counter does to both. -/
theorem TenantUsage.count_adjust (usage : TenantUsage) (counter other : Counter) (n : Int) :
    (usage.adjust (counter.delta n)).count other =
      max (usage.count other + if other = counter then n else 0) 0 := by
  cases counter <;> cases other <;> rfl

/-- A reservation adds one, and the counter is within the plan's limit afterwards. -/
theorem TenantUsage.reserve_ok {usage reserved : TenantUsage} {counter : Counter} {plan : String}
    (h : usage.reserve counter plan = .ok reserved) :
    reserved = usage.adjust (counter.delta 1) ∧
      ∀ limit ∈ counter.limit (planLimits plan), reserved.count counter ≤ limit := by
  unfold TenantUsage.reserve at h
  split at h
  · cases h
  · next hroom =>
    cases h
    refine ⟨rfl, fun limit hlimit => ?_⟩
    rw [Option.mem_def.mp hlimit] at hroom
    have hlt : usage.count counter < limit := by simpa using hroom
    rw [TenantUsage.count_adjust, if_pos rfl]
    omega

/-- A reservation of storage that passed its check. -/
theorem reserveStorage_ok {usage reserved : TenantUsage} {plan : String} {sizeBytes : Int}
    (h : reserveStorage usage plan sizeBytes = .ok reserved) :
    reserved = usage.adjust { storageBytes := sizeBytes } := by
  unfold reserveStorage at h
  split at h
  · cases h
  · cases h
    rfl

end Tenants

end RealEstate
