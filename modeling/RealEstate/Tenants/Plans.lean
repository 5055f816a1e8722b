import Mathlib.Data.List.Basic

/-!
# Plans and their quotas (`modules/tenants/plans.py`)

`planLimits` looks a plan up and falls back to the trial tier; a quota is `none` when it
is unlimited.
-/

namespace RealEstate

namespace Tenants

/-- The quotas of a plan. -/
structure PlanLimits where
  key : String
  name : String
  maxListings : Option Nat
  maxAgents : Option Nat
  storageGb : Option Nat
  monthlyEmails : Option Nat
  deriving DecidableEq, Repr

/-- The trial. -/
def trialPlan : PlanLimits where
  key := "trial"
  name := "Trial"
  maxListings := some 25
  maxAgents := some 3
  storageGb := some 1
  monthlyEmails := some 500

/-- The first paid plan. -/
def starterPlan : PlanLimits where
  key := "starter"
  name := "Starter"
  maxListings := some 100
  maxAgents := some 10
  storageGb := some 10
  monthlyEmails := some 5000

/-- The second. -/
def growthPlan : PlanLimits where
  key := "growth"
  name := "Growth"
  maxListings := some 1000
  maxAgents := some 50
  storageGb := some 100
  monthlyEmails := some 50000

/-- Without limits. -/
def enterprisePlan : PlanLimits where
  key := "enterprise"
  name := "Enterprise"
  maxListings := none
  maxAgents := none
  storageGb := none
  monthlyEmails := none

/-- `PLANS`. -/
def plans : List PlanLimits := [trialPlan, starterPlan, growthPlan, enterprisePlan]

/-- `plan_limits`; an unknown plan has the trial's. -/
def planLimits (plan : String) : PlanLimits :=
  (plans.find? (·.key = plan)).getD trialPlan

/-- `storage_bytes_limit`. -/
def storageBytesLimit (plan : String) : Option Nat :=
  (planLimits plan).storageGb.map (· * 1024 * 1024 * 1024)

/-- Whatever the plan's name, its limits are in the table. -/
theorem planLimits_mem (plan : String) : planLimits plan ∈ plans := by
  unfold planLimits
  cases h : plans.find? (·.key = plan) with
  | none => exact List.mem_cons_self
  | some limits => exact List.mem_of_find?_eq_some h

end Tenants

end RealEstate
