import RealEstate.Systems.Machine
import RealEstate.Tenants.Lifecycle

/-!
# Offboarding is safe

Platform requests, billing events and sweeps, one after the other.

- `Safe`: no tenant in service carries a deletion schedule, and no purged tenant
  had been in service since it was offboarded.
- `Keeps`: what every operation except offboarding does to a row.
- `safe_of_clear`: `Safe` in every run whose admin activations find no schedule;
  `safe_step_iff` says that the condition is exact.
- `activated_and_purged`: an activation that leaves the schedule in place.
-/

namespace RealEstate

namespace Tenants

open RealEstate.Core Systems

/-- The tenant is in service. -/
def Tenant.inService (tenant : Tenant) : Bool :=
  tenant.status = .active ∨ tenant.status = .trial

/-- A purge, and whether the tenant had been in service since it was last offboarded. -/
structure Purge where
  tenantId : Uuid
  served : Bool

/-- The platform, the tenants in service at some moment since they were last offboarded, and
the purges. -/
structure State where
  platform : Platform
  served : List Uuid
  purged : List Purge

/-- Time, a request of the platform's administrators, a webhook, or a sweep. -/
inductive Label where
  | wait (seconds : Nat)
  | create (id : Uuid) (name slug : String) (blob : JsonObject)
  | setPlan (tenantId : Uuid) (plan : String)
  /-- The platform routes `suspend` and `activate`. -/
  | suspend (tenantId : Uuid)
  | activate (tenantId : Uuid)
  | offboard (tenantId : Uuid)
  | cancelOffboard (tenantId : Uuid)
  | webhook (event : BillingEvent)
  | dunningSweep
  | expireTrials
  | purge

/-- The tenants in service. -/
def Platform.inService (p : Platform) : List Uuid := p.tenants.select Tenant.inService

/-- The end of a request; an error changes nothing. -/
def State.settle (s : State) : Except AppError Platform → State
  | .error _ => s
  | .ok platform => { s with platform, served := platform.inService ++ s.served }

/-- A tenant is scheduled for deletion. -/
def State.offboard (settings : LifecycleSettings) (s : State) (tenantId : Uuid) : State :=
  match s.platform.startOffboard settings tenantId with
  | .error _ => s
  | .ok platform =>
    { s with
      platform
      served := platform.inService ++ s.served.filter (· ≠ tenantId) }

/-- The tenants due are deleted; whether each was still served is noted. -/
def State.purge (s : State) : State where
  platform := s.platform.purgeScheduledTenants
  served := s.served
  purged := s.platform.deletionsDue.map (fun id => ⟨id, decide (id ∈ s.served)⟩) ++ s.purged

section Machine

variable (parseUuid : String → Option Uuid) (settings : LifecycleSettings)

/-- The life of tenants. -/
def step (s : State) : Label → Option State
  | .wait seconds =>
    some { s with platform := { s.platform with now := s.platform.now + seconds } }
  | .create id name slug blob =>
    if id ∈ s.platform.tenants.keys then none
    else some (s.settle (s.platform.create settings id name slug blob))
  | .setPlan tenantId plan => some (s.settle (s.platform.setPlan tenantId plan))
  | .suspend tenantId => some (s.settle (s.platform.setStatus tenantId .suspended))
  | .activate tenantId => some (s.settle (s.platform.setStatus tenantId .active))
  | .offboard tenantId => some (s.offboard settings tenantId)
  | .cancelOffboard tenantId => some (s.settle (s.platform.cancelOffboard tenantId))
  | .webhook event => some (s.settle (s.platform.handleWebhook parseUuid settings event))
  | .dunningSweep => some (s.settle s.platform.suspendGraceExpired)
  | .expireTrials => some (s.settle s.platform.expireTrials)
  | .purge => some s.purge

/-- The platform from its first tenant on. -/
def lifecycle : Machine State Label where
  init s := s = ⟨⟨0, .empty, .empty, []⟩, [], []⟩
  step := step parseUuid settings

end Machine

/-- No tenant in service is scheduled for deletion, and no purged tenant had been brought
back into service. -/
structure Safe (s : State) : Prop where
  unscheduled : ∀ id tenant, s.platform.tenants.row id = some tenant → tenant.inService = true →
    tenant.deletionScheduledAt = none
  purged : ∀ purge ∈ s.purged, purge.served = false

/-- The step is not an admin activation of a tenant scheduled for deletion. -/
def Clear (s : State) : Label → Prop
  | .activate tenantId =>
    (s.platform.tenants.row tenantId).all (·.deletionScheduledAt.isNone) = true
  | _ => True

/-- Whether a step is clear is read off the tenants. -/
instance (s : State) (l : Label) : Decidable (Clear s l) := by
  unfold Clear
  split <;> infer_instance

/-! ### What an operation does to a row -/

/-- Every scheduled row was scheduled before, and is as it was or suspended. -/
def Keeps (p p' : Platform) : Prop :=
  ∀ id tenant', p'.tenants.row id = some tenant' → tenant'.deletionScheduledAt ≠ none →
    ∃ tenant, p.tenants.row id = some tenant ∧
      tenant'.deletionScheduledAt = tenant.deletionScheduledAt ∧
        (tenant'.status = tenant.status ∨ tenant'.status = .suspended)

/-- Scheduled tenants are suspended. -/
def Suspended (p : Platform) : Prop :=
  ∀ id tenant, p.tenants.row id = some tenant → tenant.deletionScheduledAt ≠ none →
    tenant.status = .suspended

theorem Keeps.of_tenants {p p' : Platform} (h : p'.tenants = p.tenants) : Keeps p p' := by
  intro id tenant' hrow _
  rw [h] at hrow
  exact ⟨tenant', hrow, rfl, .inl rfl⟩

theorem Keeps.trans {p q r : Platform} (h : Keeps p q) (h' : Keeps q r) : Keeps p r := by
  intro id tenant'' hrow hscheduled
  obtain ⟨tenant', hrow', hsame', hstatus'⟩ := h' id tenant'' hrow hscheduled
  obtain ⟨tenant, hrow, hsame, hstatus⟩ := h id tenant' hrow' (hsame' ▸ hscheduled)
  refine ⟨tenant, hrow, hsame'.trans hsame, ?_⟩
  rcases hstatus' with hstatus' | hstatus'
  · rw [hstatus']
    exact hstatus
  · exact .inr hstatus'

theorem Keeps.suspended {p p' : Platform} (h : Keeps p p') (hp : Suspended p) : Suspended p' := by
  intro id tenant' hrow hscheduled
  obtain ⟨tenant, hrow', hsame, hstatus | hstatus⟩ := h id tenant' hrow hscheduled
  · rw [hstatus]
    exact hp id tenant hrow' (hsame ▸ hscheduled)
  · exact hstatus

/-- One row is stored: it carries no schedule, or the one it had. -/
theorem Keeps.put {p : Platform} {tenantId : Uuid} {tenant' : Tenant}
    (h : tenant'.deletionScheduledAt = none ∨ ∃ tenant, p.tenants.row tenantId = some tenant ∧
      tenant'.deletionScheduledAt = tenant.deletionScheduledAt ∧
        (tenant'.status = tenant.status ∨ tenant'.status = .suspended)) :
    Keeps p { p with tenants := p.tenants.put tenantId tenant' } := by
  intro id t hrow hscheduled
  rcases Rows.row_put hrow with ⟨rfl, rfl⟩ | ⟨-, hrow⟩
  · rcases h with h | h
    · exact absurd h hscheduled
    · exact h
  · exact ⟨t, hrow, rfl, .inl rfl⟩

theorem keeps_updateTenant {p p' : Platform} {tenantId : Uuid} {f : Tenant → Tenant}
    (h : p.updateTenant tenantId f = .ok p')
    (hf : ∀ tenant, p.tenants.row tenantId = some tenant →
      (f tenant).deletionScheduledAt = none ∨
        ((f tenant).deletionScheduledAt = tenant.deletionScheduledAt ∧
          ((f tenant).status = tenant.status ∨ (f tenant).status = .suspended))) :
    Keeps p p' := by
  unfold Platform.updateTenant at h
  split at h
  · cases h
  · next tenant hrow =>
    cases h
    refine Keeps.put ?_
    rcases hf tenant hrow with hf | hf
    · exact .inl hf
    · exact .inr ⟨tenant, hrow, hf⟩

theorem keeps_suspend {p p' : Platform} {tenantId : Uuid}
    (h : p.setStatus tenantId .suspended = .ok p') : Keeps p p' :=
  keeps_updateTenant h fun _ _ => .inr ⟨rfl, .inr rfl⟩

/-- An activation, of a tenant without a schedule. -/
theorem keeps_activate {p p' : Platform} {tenantId : Uuid}
    (h : p.setStatus tenantId .active = .ok p')
    (hclear : ∀ tenant, p.tenants.row tenantId = some tenant →
      tenant.deletionScheduledAt = none) : Keeps p p' :=
  keeps_updateTenant h fun tenant hrow => .inl (hclear tenant hrow)

theorem keeps_setPlan {p p' : Platform} {tenantId : Uuid} {plan : String}
    (h : p.setPlan tenantId plan = .ok p') : Keeps p p' := by
  unfold Platform.setPlan at h
  split at h
  · cases h
  · exact keeps_updateTenant h fun _ _ => .inr ⟨rfl, .inl rfl⟩

theorem keeps_create {settings : LifecycleSettings} {p p' : Platform} {id : Uuid}
    {name slug : String} {blob : JsonObject} (h : p.create settings id name slug blob = .ok p') :
    Keeps p p' := by
  unfold Platform.create at h
  split at h
  · cases h
  · cases h
    exact Keeps.put (.inl rfl)

theorem keeps_cancelOffboard {p p' : Platform} {tenantId : Uuid}
    (h : p.cancelOffboard tenantId = .ok p') : Keeps p p' := by
  unfold Platform.cancelOffboard at h
  split at h
  · cases h
  · split at h
    · cases h
    · exact keeps_updateTenant h fun _ _ => .inl rfl

/-- A reactivation leaves those scheduled alone. -/
theorem keeps_reactivateTenant (p : Platform) (tenantId : Uuid) :
    Keeps p (p.reactivateTenant tenantId) := by
  unfold Platform.reactivateTenant
  split
  · exact .of_tenants rfl
  · exact Keeps.put (.inl rfl)

section Billing

variable {parseUuid : String → Option Uuid} {settings : LifecycleSettings} {p p' : Platform}
  {event : BillingEvent}

/-- Finding a subscription changes no tenant. -/
theorem resolveSubscription_tenants :
    (p.resolveSubscription parseUuid event).1.tenants = p.tenants := by
  unfold Platform.resolveSubscription
  split
  · rfl
  · split
    · rfl
    · split <;> rfl

theorem keeps_applyPlan {tenantId : Uuid} {sub sub' : TenantSubscription} {plan : Option String}
    (h : p.applyPlan tenantId sub plan = .ok (p', sub')) : Keeps p p' := by
  unfold Platform.applyPlan at h
  split at h
  · cases h
    exact .of_tenants rfl
  · split at h
    · cases hplan : p.setPlan tenantId _ with
      | error e => rw [hplan] at h; cases h
      | ok q =>
        rw [hplan] at h
        cases h
        exact keeps_setPlan hplan
    · cases h
      exact .of_tenants rfl

/-- Billing either clears the schedule with the activation, or leaves the schedule alone. -/
theorem keeps_applyEvent (h : p.applyEvent parseUuid settings event = .ok p') : Keeps p p' := by
  unfold Platform.applyEvent at h
  have hresolved : (p.resolveSubscription parseUuid event).1.tenants = p.tenants :=
    resolveSubscription_tenants
  split at h
  · next q hq =>
    rw [hq] at hresolved
    cases h
    exact .of_tenants hresolved
  · next q tenantId hq =>
    rw [hq] at hresolved
    have hkeeps : Keeps p q := .of_tenants hresolved
    split at h
    · cases h
      exact hkeeps
    · next sub _ =>
      -- Activations and renewals clear the schedule in the end, whatever the plan does.
      have hactivated : ∀ {sub sub' : TenantSubscription} {r : Platform},
          q.applyPlan tenantId sub event.plan = .ok (r, sub') →
          Keeps p ({ r with subscriptions := r.subscriptions.put tenantId sub' }.reactivateTenant
            tenantId) := by
        intro sub sub' r hplan
        refine (hkeeps.trans (keeps_applyPlan hplan)).trans ?_
        exact (Keeps.of_tenants rfl).trans (keeps_reactivateTenant _ _)
      split at h
      · obtain ⟨⟨r, sub'⟩, hplan, rfl⟩ := map_eq_ok h
        exact hactivated hplan
      · obtain ⟨⟨r, sub'⟩, hplan, rfl⟩ := map_eq_ok h
        exact hactivated hplan
      · cases h
        exact hkeeps.trans (.of_tenants rfl)
      · refine hkeeps.trans (Keeps.trans ?_ (keeps_suspend h))
        exact .of_tenants rfl

theorem keeps_handleWebhook (h : p.handleWebhook parseUuid settings event = .ok p') :
    Keeps p p' := by
  unfold Platform.handleWebhook at h
  split at h
  · cases h
    exact .of_tenants rfl
  · refine Keeps.trans ?_ (keeps_applyEvent h)
    exact .of_tenants rfl

end Billing

/-! ### The sweeps -/

theorem Keeps.refl (p : Platform) : Keeps p p := .of_tenants rfl

/-- What has no schedule gets none. -/
theorem Keeps.unscheduled {p p' : Platform} (h : Keeps p p') {id : Uuid} {tenant' : Tenant}
    (hp : ∀ tenant, p.tenants.row id = some tenant → tenant.deletionScheduledAt = none)
    (hrow : p'.tenants.row id = some tenant') : tenant'.deletionScheduledAt = none := by
  by_contra hscheduled
  obtain ⟨tenant, hrow', hsame, -⟩ := h id tenant' hrow hscheduled
  exact hscheduled (hsame.trans (hp tenant hrow'))

theorem keeps_suspendPastDue {p p' : Platform} {tenantId : Uuid}
    (h : p.suspendPastDue tenantId = .ok p') : Keeps p p' := by
  obtain ⟨q, hq, hrest⟩ := bind_eq_ok h
  refine (keeps_suspend hq).trans ?_
  split at hrest
  · cases hrest
    exact .refl _
  · cases hrest
    exact .of_tenants rfl

/-- The loop of `run_dunning_sweep`, by induction on the tenants due. -/
theorem keeps_dunning {due : List Uuid} {p p' : Platform}
    (h : due.foldlM Platform.suspendPastDue p = .ok p') : Keeps p p' := by
  induction due generalizing p with
  | nil =>
    cases h
    exact .refl _
  | cons tenantId due ih =>
    rw [List.foldlM_cons] at h
    obtain ⟨q, hq, hrest⟩ := bind_eq_ok h
    exact (keeps_suspendPastDue hq).trans (ih hrest)

theorem keeps_suspendGraceExpired {p p' : Platform} (h : p.suspendGraceExpired = .ok p') :
    Keeps p p' :=
  keeps_dunning h

theorem keeps_expireTrial {p p' : Platform} {tenantId : Uuid}
    (h : p.expireTrial tenantId = .ok p')
    (hclear : ∀ tenant, p.tenants.row tenantId = some tenant →
      tenant.deletionScheduledAt = none) : Keeps p p' := by
  unfold Platform.expireTrial at h
  split at h
  · exact keeps_activate h hclear
  · exact keeps_suspend h

/-- The loop of `expire_trials`: no tenant due has a schedule, and none is given one. -/
theorem keeps_trials {due : List Uuid} {p p' : Platform}
    (h : due.foldlM Platform.expireTrial p = .ok p')
    (hclear : ∀ id ∈ due, ∀ tenant, p.tenants.row id = some tenant →
      tenant.deletionScheduledAt = none) : Keeps p p' := by
  induction due generalizing p with
  | nil =>
    cases h
    exact .refl _
  | cons tenantId due ih =>
    rw [List.foldlM_cons] at h
    obtain ⟨q, hq, hrest⟩ := bind_eq_ok h
    have hkeeps : Keeps p q := keeps_expireTrial hq (hclear tenantId List.mem_cons_self)
    refine hkeeps.trans (ih hrest ?_)
    intro id hid tenant hrow
    exact hkeeps.unscheduled (hclear id (List.mem_cons_of_mem _ hid)) hrow

/-- A scheduled tenant is suspended, hence not in its trial. -/
theorem keeps_expireTrials {p p' : Platform} (hp : Suspended p) (h : p.expireTrials = .ok p') :
    Keeps p p' := by
  refine keeps_trials h ?_
  intro id hid tenant hrow
  obtain ⟨due, hdue, hcond⟩ := Rows.mem_select.mp hid
  rw [hrow] at hdue
  cases hdue
  simp only [decide_eq_true_eq] at hcond
  -- The sweep selects by status, and a schedule comes with another one.
  by_contra hscheduled
  have hsuspended := hp id tenant hrow hscheduled
  rw [hcond.1] at hsuspended
  cases hsuspended

theorem keeps_deleteTenant (p : Platform) (tenantId : Uuid) :
    Keeps p (p.deleteTenant tenantId) := by
  intro id tenant hrow _
  obtain ⟨-, hrow⟩ := Rows.row_delete hrow
  exact ⟨tenant, hrow, rfl, .inl rfl⟩

/-- The loop of `purge_scheduled_tenants`. -/
theorem keeps_deleteTenants (due : List Uuid) (p : Platform) :
    Keeps p (due.foldl Platform.deleteTenant p) := by
  induction due generalizing p with
  | nil => exact .refl p
  | cons tenantId due ih => exact (keeps_deleteTenant p tenantId).trans (ih _)

/-! ### Every run -/

/-- Scheduled tenants are suspended and were not in service since they were offboarded; no
purged one was. -/
structure Inv (s : State) : Prop where
  suspended : Suspended s.platform
  scheduled : ∀ id tenant, s.platform.tenants.row id = some tenant →
    tenant.deletionScheduledAt ≠ none → id ∉ s.served
  purged : ∀ purge ∈ s.purged, purge.served = false

/-- The invariant contains that nobody is deleted while served. -/
theorem Inv.safe {s : State} (h : Inv s) : Safe s where
  unscheduled id tenant hrow hservice := by
    by_contra hscheduled
    have hsuspended := h.suspended id tenant hrow hscheduled
    simp [Tenant.inService, hsuspended] at hservice
  purged := h.purged

/-- A suspended tenant is not in service. -/
theorem not_mem_inService {p : Platform} (hp : Suspended p) {id : Uuid} {tenant : Tenant}
    (hrow : p.tenants.row id = some tenant) (hscheduled : tenant.deletionScheduledAt ≠ none) :
    id ∉ p.inService := by
  intro hmem
  obtain ⟨tenant', hrow', hservice⟩ := Rows.mem_select.mp hmem
  rw [hrow] at hrow'
  cases hrow'
  simp [Tenant.inService, hp id tenant hrow hscheduled] at hservice

/-- Any request that only keeps schedules. -/
theorem Inv.settle {s : State} (h : Inv s) {result : Except AppError Platform}
    (hkeeps : ∀ p', result = .ok p' → Keeps s.platform p') : Inv (s.settle result) := by
  cases result with
  | error => exact h
  | ok p' =>
    have hk := hkeeps p' rfl
    have hsuspended : Suspended p' := hk.suspended h.suspended
    refine ⟨hsuspended, ?_, h.purged⟩
    intro id tenant' hrow hscheduled hmem
    rcases List.mem_append.mp hmem with hmem | hmem
    · exact not_mem_inService hsuspended hrow hscheduled hmem
    · obtain ⟨tenant, hrow', hsame, -⟩ := hk id tenant' hrow hscheduled
      exact h.scheduled id tenant hrow' (hsame ▸ hscheduled) hmem

/-- `start_offboard` schedules and suspends one tenant. -/
theorem startOffboard_row {settings : LifecycleSettings} {p p' : Platform} {tenantId id : Uuid}
    {tenant' : Tenant} (h : p.startOffboard settings tenantId = .ok p')
    (hrow : p'.tenants.row id = some tenant') :
    (id = tenantId ∧ tenant'.status = .suspended) ∨
      (id ≠ tenantId ∧ p.tenants.row id = some tenant') := by
  unfold Platform.startOffboard Platform.updateTenant at h
  split at h
  · cases h
  · cases h
    rcases Rows.row_put hrow with ⟨rfl, rfl⟩ | hother
    · exact .inl ⟨rfl, rfl⟩
    · exact .inr hother

/-- Scheduling a deletion keeps it. -/
theorem Inv.offboard {settings : LifecycleSettings} {s : State} (h : Inv s) (tenantId : Uuid) :
    Inv (s.offboard settings tenantId) := by
  unfold State.offboard
  split
  · exact h
  · next p' hp' =>
    have hsuspended : Suspended p' := by
      intro id tenant' hrow hscheduled
      rcases startOffboard_row hp' hrow with ⟨-, hstatus⟩ | ⟨-, hrow⟩
      · exact hstatus
      · exact h.suspended id tenant' hrow hscheduled
    refine ⟨hsuspended, ?_, h.purged⟩
    intro id tenant' hrow hscheduled hmem
    rcases List.mem_append.mp hmem with hmem | hmem
    · exact not_mem_inService hsuspended hrow hscheduled hmem
    · rw [List.mem_filter] at hmem
      rcases startOffboard_row hp' hrow with ⟨rfl, -⟩ | ⟨-, hrow⟩
      · -- From now on the tenant counts as not served again.
        simp at hmem
      · exact h.scheduled id tenant' hrow hscheduled hmem.1

/-- The purge takes scheduled tenants only. -/
theorem Inv.purge {s : State} (h : Inv s) : Inv s.purge where
  suspended := (keeps_deleteTenants _ _).suspended h.suspended
  scheduled id tenant' hrow hscheduled := by
    obtain ⟨tenant, hrow', hsame, -⟩ := keeps_deleteTenants _ _ id tenant' hrow hscheduled
    exact h.scheduled id tenant hrow' (hsame ▸ hscheduled)
  purged purge hpurge := by
    rcases List.mem_append.mp hpurge with hnew | hold
    · obtain ⟨id, hdue, rfl⟩ := List.mem_map.mp hnew
      obtain ⟨tenant, hrow, hcond⟩ := Rows.mem_select.mp hdue
      have hscheduled : tenant.deletionScheduledAt ≠ none := by
        intro hnone
        simp [hnone] at hcond
      have hserved := h.scheduled id tenant hrow hscheduled
      exact decide_eq_false hserved
    · exact h.purged purge hold

section Runs

variable {parseUuid : String → Option Uuid} {settings : LifecycleSettings}

/-- The condition on an admin activation, as a fact about the row. -/
theorem clear_activate {s : State} {tenantId : Uuid} :
    Clear s (.activate tenantId) ↔ ∀ tenant, s.platform.tenants.row tenantId = some tenant →
      tenant.deletionScheduledAt = none := by
  simp [Clear, Option.all_eq_true]

/-- So does every clear step. -/
theorem Inv.step {s t : State} {l : Label} (h : Inv s) (hclear : Clear s l)
    (hst : step parseUuid settings s l = some t) : Inv t := by
  cases l with
  | wait seconds =>
    cases hst
    exact ⟨h.suspended, h.scheduled, h.purged⟩
  | create id name slug blob =>
    simp only [Tenants.step, Option.ite_none_left_eq_some] at hst
    obtain ⟨-, hst⟩ := hst
    cases hst
    exact h.settle fun _ hp' => keeps_create hp'
  | setPlan tenantId plan =>
    cases hst
    exact h.settle fun _ hp' => keeps_setPlan hp'
  | suspend tenantId =>
    cases hst
    exact h.settle fun _ hp' => keeps_suspend hp'
  | activate tenantId =>
    cases hst
    -- The guard: no tenant that is on its way out is activated.
    exact h.settle fun _ hp' => keeps_activate hp' (clear_activate.mp hclear)
  | offboard tenantId =>
    cases hst
    exact h.offboard tenantId
  | cancelOffboard tenantId =>
    cases hst
    exact h.settle fun _ hp' => keeps_cancelOffboard hp'
  | webhook event =>
    cases hst
    exact h.settle fun _ hp' => keeps_handleWebhook hp'
  | dunningSweep =>
    cases hst
    exact h.settle fun _ hp' => keeps_suspendGraceExpired hp'
  | expireTrials =>
    cases hst
    exact h.settle fun _ hp' => keeps_expireTrials h.suspended hp'
  | purge =>
    cases hst
    exact h.purge

/-- And every run of them. -/
theorem inductive_inv : (lifecycle parseUuid settings).Inductive Clear Inv where
  init s hs := by
    subst hs
    refine ⟨?_, ?_, ?_⟩
    · intro id tenant hrow
      cases hrow
    · intro id tenant hrow
      cases hrow
    · intro purge hpurge
      cases hpurge
  step _ _ _ h hclear hst := h.step hclear hst

/-- As long as no admin activates a tenant scheduled for deletion, no tenant in service is
scheduled for deletion and no purged tenant had been brought back into service. -/
theorem safe_of_clear {s : State} (h : (lifecycle parseUuid settings).ReachVia Clear s) :
    Safe s :=
  (inductive_inv.always h).safe

/-- The first activation of a tenant scheduled for deletion leaves a tenant in service with its
schedule. -/
theorem safe_step_iff {s t : State} {l : Label}
    (h : (lifecycle parseUuid settings).ReachVia Clear s)
    (hst : step parseUuid settings s l = some t) : Safe t ↔ Clear s l := by
  constructor
  · intro hsafe
    by_contra hclear
    cases l with
    | activate tenantId =>
      rw [clear_activate] at hclear
      push Not at hclear
      obtain ⟨tenant, hrow, hscheduled⟩ := hclear
      cases hst
      -- `activate` overwrites the status and leaves the schedule where it is.
      have hput : (s.settle (s.platform.setStatus tenantId .active)).platform.tenants.row
          tenantId = some { tenant with status := .active } := by
        simp [Platform.setStatus, Platform.updateTenant, hrow, State.settle]
      have hnone := hsafe.unscheduled tenantId _ hput rfl
      exact hscheduled hnone
    | _ => exact hclear trivial
  · intro hclear
    exact ((inductive_inv.always h).step hclear hst).safe

end Runs

/-- Two tenants are offboarded and one changes its mind: the purge takes the other. -/
theorem safe_of_clear_purge : ∃ s, (lifecycle (fun _ => none) {}).ReachVia Clear s ∧
    s.purged.map (·.tenantId) = [2] ∧ Safe s := by
  obtain ⟨s, hs, hp⟩ := Machine.exists_reachVia_of_run
    (M := lifecycle (fun _ => none) {}) (G := Clear) (s := ⟨⟨0, .empty, .empty, []⟩, [], []⟩)
    [.create 1 "Acme" "acme" [], .create 2 "Nova" "nova" [], .offboard 1, .offboard 2,
      .cancelOffboard 1, .activate 1, .wait 2592000, .purge]
    (fun s => s.purged.map (·.tenantId) = [2]) rfl (by decide)
  exact ⟨s, hs, of_decide_eq_true hp, safe_of_clear hs⟩

/-- **A live tenant is purged.** An admin activates an offboarded tenant; the schedule stays,
and thirty days later the sweep deletes the tenant. -/
theorem activated_and_purged :
    ∃ s, (lifecycle (fun _ => none) {}).Reachable s ∧ ¬Safe s := by
  obtain ⟨s, hs, hp⟩ := Machine.exists_reachable_of_run
    (M := lifecycle (fun _ => none) {}) (s := ⟨⟨0, .empty, .empty, []⟩, [], []⟩)
    [.create 1 "Acme" "acme" [], .offboard 1, .activate 1, .wait 2592000, .purge]
    (fun s => s.purged.any (·.served)) rfl (by decide)
  refine ⟨s, hs, fun hsafe => ?_⟩
  obtain ⟨purge, hpurge, hserved⟩ := List.any_eq_true.mp hp
  rw [hsafe.purged purge hpurge] at hserved
  cases hserved

end Tenants

end RealEstate
