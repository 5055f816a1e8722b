import RealEstate.Systems.Machine
import RealEstate.Tenants.Lifecycle

/-!
# Dunning

Billing events and dunning sweeps, one after the other. The grace window of a subscription is
opened by the handler of `payment.failed` and closed by the sweep.

- `Resolved`, `Billed`: what `_resolve_subscription` and `_apply` do to the rows.
- `suspendPastDue_all`: what the loop of `suspend_grace_expired` does.
- `KeepsDeadline`: the guard: a payment that fails again does not move the deadline.
- `suspended_after_sweep`: then a sweep leaves no tenant in service whose subscription has been
  past due for the grace period.
- `deadline_moved`: a second failure that does move it.
-/

namespace RealEstate

namespace Tenants

namespace Dunning

open RealEstate.Core Systems

/-! ### The rows an event changes -/

section Billing

variable {parseUuid : String → Option Uuid} {settings : LifecycleSettings} {p q p' : Platform}
  {event : BillingEvent} {tenantId : Uuid}

/-- `_resolve_subscription` found `sub`, or made it for a tenant that exists. -/
structure Resolved (p q : Platform) (tenantId : Uuid) (sub : TenantSubscription) : Prop where
  now : q.now = p.now
  tenants : q.tenants = p.tenants
  row : q.subscriptions.row tenantId = some sub
  found : ∀ old, p.subscriptions.row tenantId = some old →
    sub.status = old.status ∧ sub.graceUntil = old.graceUntil
  made : p.subscriptions.row tenantId = none →
    sub.status = .incomplete ∧ (p.tenants.row tenantId).isSome
  rest : ∀ other, other ≠ tenantId → q.subscriptions.row other = p.subscriptions.row other

/-- A subscription that is stored where there was one with its status, or none. -/
theorem Resolved.of_put {sub : TenantSubscription} {subscriptions : Rows Uuid TenantSubscription}
    (hput : subscriptions = p.subscriptions.put tenantId sub)
    (hfound : ∀ old, p.subscriptions.row tenantId = some old →
      sub.status = old.status ∧ sub.graceUntil = old.graceUntil)
    (hmade : p.subscriptions.row tenantId = none →
      sub.status = .incomplete ∧ (p.tenants.row tenantId).isSome) :
    Resolved p { p with subscriptions } tenantId sub where
  now := rfl
  tenants := rfl
  row := by rw [hput, Rows.row_put_self]
  found := hfound
  made := hmade
  rest other hother := by rw [hput, Rows.row_put_of_ne _ _ hother]

/-- A subscription is found by its own id, or by the tenant its customer names. -/
theorem resolveSubscription_ok
    (h : p.resolveSubscription parseUuid event = (q, some tenantId)) :
    ∃ sub, Resolved p q tenantId sub := by
  unfold Platform.resolveSubscription at h
  split at h
  · next found hfound =>
    cases h
    unfold Platform.subscriptionByProviderId at hfound
    split at hfound
    · cases hfound
    · cases hfound
    · -- The provider's own id names the subscription, whatever the tenant in the event.
      obtain ⟨sub, hrow, -⟩ := Rows.mem_select.mp (List.mem_of_mem_head? hfound)
      refine ⟨sub, rfl, rfl, hrow, fun old hold => ?_, fun hnone => ?_, fun _ _ => rfl⟩
      · obtain rfl := Option.some.inj (hrow.symm.trans hold)
        exact ⟨rfl, rfl⟩
      · rw [hrow] at hnone
        cases hnone
  · split at h
    · cases h
    · next target htarget =>
      split at h
      · cases h
      · next tenant htenant =>
        cases h
        cases hold : p.subscriptions.row tenantId with
        | none =>
          refine ⟨_, Resolved.of_put rfl (fun old hrow => ?_) fun _ => ⟨rfl, ?_⟩⟩
          · rw [hold] at hrow
            cases hrow
          · rw [htenant]
            rfl
        | some existing =>
          refine ⟨_, Resolved.of_put rfl (fun old hrow => ?_) fun hnone => ?_⟩
          · obtain rfl := Option.some.inj (hold.symm.trans hrow)
            exact ⟨rfl, rfl⟩
          · rw [hold] at hnone
            cases hnone

/-- `_apply` found or made `sub` and left `sub'` in its place. -/
structure Billed (settings : LifecycleSettings) (event : BillingEvent) (p p' : Platform)
    (tenantId : Uuid) (sub sub' : TenantSubscription) : Prop where
  now : p'.now = p.now
  found : ∀ old, p.subscriptions.row tenantId = some old →
    sub.status = old.status ∧ sub.graceUntil = old.graceUntil
  made : p.subscriptions.row tenantId = none →
    sub.status = .incomplete ∧ (p.tenants.row tenantId).isSome
  row : p'.subscriptions.row tenantId = some sub'
  tenant : (p.tenants.row tenantId).isSome → (p'.tenants.row tenantId).isSome
  restSubscriptions : ∀ other, other ≠ tenantId →
    p'.subscriptions.row other = p.subscriptions.row other
  restTenants : ∀ other, other ≠ tenantId → p'.tenants.row other = p.tenants.row other
  failed : event.type = .paymentFailed → sub'.status = .pastDue ∧
    sub'.graceUntil = some (p.now + days settings.billingGraceDays) ∧ p'.tenants = p.tenants
  other : event.type ≠ .paymentFailed → sub'.status ≠ .pastDue

theorem updateTenant_ok {f : Tenant → Tenant} (h : p.updateTenant tenantId f = .ok p') :
    p'.now = p.now ∧ p'.subscriptions = p.subscriptions ∧ ∃ tenant,
      p.tenants.row tenantId = some tenant ∧ p'.tenants = p.tenants.put tenantId (f tenant) := by
  unfold Platform.updateTenant at h
  split at h
  · cases h
  · next tenant hrow =>
    cases h
    exact ⟨rfl, rfl, tenant, hrow, rfl⟩

/-- One tenant's row is rewritten at most. -/
structure OneTenant (tenantId : Uuid) (p p' : Platform) : Prop where
  now : p'.now = p.now
  subscriptions : p'.subscriptions = p.subscriptions
  tenant : (p.tenants.row tenantId).isSome → (p'.tenants.row tenantId).isSome
  rest : ∀ other, other ≠ tenantId → p'.tenants.row other = p.tenants.row other

theorem OneTenant.refl (tenantId : Uuid) (p : Platform) : OneTenant tenantId p p :=
  ⟨rfl, rfl, id, fun _ _ => rfl⟩

theorem OneTenant.put {tenant : Tenant} :
    OneTenant tenantId p { p with tenants := p.tenants.put tenantId tenant } where
  now := rfl
  subscriptions := rfl
  tenant _ := by rw [Rows.row_put_self]; rfl
  rest _ hother := Rows.row_put_of_ne _ _ hother

theorem OneTenant.of_update {f : Tenant → Tenant} (h : p.updateTenant tenantId f = .ok p') :
    OneTenant tenantId p p' := by
  obtain ⟨hnow, hsubscriptions, tenant, -, htenants⟩ := updateTenant_ok h
  refine ⟨hnow, hsubscriptions, fun _ => ?_, fun other hother => ?_⟩
  · rw [htenants, Rows.row_put_self]
    rfl
  · rw [htenants, Rows.row_put_of_ne _ _ hother]

/-- A plan touches one tenant and no status. -/
theorem applyPlan_ok {sub sub' : TenantSubscription} {plan : Option String}
    (h : p.applyPlan tenantId sub plan = .ok (p', sub')) :
    OneTenant tenantId p p' ∧ sub'.status = sub.status := by
  unfold Platform.applyPlan at h
  split at h
  · cases h
    exact ⟨.refl .., rfl⟩
  · split at h
    · obtain ⟨planned, hplan, heq⟩ := map_eq_ok h
      cases heq
      unfold Platform.setPlan at hplan
      split at hplan
      · cases hplan
      · exact ⟨.of_update hplan, rfl⟩
    · cases h
      exact ⟨.refl .., rfl⟩

theorem reactivateTenant_one (p : Platform) (tenantId : Uuid) :
    OneTenant tenantId p (p.reactivateTenant tenantId) := by
  unfold Platform.reactivateTenant
  split
  · exact .refl ..
  · exact .put

/-- An event that is not a failed payment. -/
theorem Billed.of_other {sub sub' : TenantSubscription} {r : Platform}
    (hresolved : Resolved p q tenantId sub) (htype : event.type ≠ .paymentFailed)
    (hone : OneTenant tenantId q r) (hone' : OneTenant tenantId
      { r with subscriptions := r.subscriptions.put tenantId sub' } p')
    (hstatus : sub'.status ≠ .pastDue) : Billed settings event p p' tenantId sub sub' where
  now := hone'.now.trans (hone.now.trans hresolved.now)
  found := hresolved.found
  made := hresolved.made
  row := by rw [hone'.subscriptions, Rows.row_put_self]
  tenant htenant := hone'.tenant (hone.tenant (hresolved.tenants ▸ htenant))
  restSubscriptions other hother := by
    rw [hone'.subscriptions, Rows.row_put_of_ne _ _ hother, hone.subscriptions,
      hresolved.rest other hother]
  restTenants other hother := by
    rw [hone'.rest other hother, hone.rest other hother, hresolved.tenants]
  failed hfailed := absurd hfailed htype
  other _ := hstatus

/-- A failed payment opens the grace window. -/
theorem Billed.of_failed {sub : TenantSubscription} (hresolved : Resolved p q tenantId sub)
    (htype : event.type = .paymentFailed) :
    Billed settings event p
      { q with
        subscriptions := q.subscriptions.put tenantId
          { sub with
            status := .pastDue
            graceUntil := some (q.now + days settings.billingGraceDays) } }
      tenantId sub
      { sub with
        status := .pastDue
        graceUntil := some (q.now + days settings.billingGraceDays) } where
  now := hresolved.now
  found := hresolved.found
  made := hresolved.made
  row := Rows.row_put_self ..
  tenant htenant := hresolved.tenants ▸ htenant
  restSubscriptions other hother :=
    (Rows.row_put_of_ne _ _ hother).trans (hresolved.rest other hother)
  restTenants other _ := by rw [hresolved.tenants]
  failed _ := ⟨rfl, by rw [hresolved.now], hresolved.tenants⟩
  other hother := absurd htype hother

/-- An event changes nothing, or bills one tenant. -/
theorem applyEvent_ok (h : p.applyEvent parseUuid settings event = .ok p') :
    p' = p ∨ ∃ tenantId sub sub', (p.resolveSubscription parseUuid event).2 = some tenantId ∧
      Billed settings event p p' tenantId sub sub' := by
  unfold Platform.applyEvent at h
  split at h
  · next q hq =>
    cases h
    refine .inl ?_
    unfold Platform.resolveSubscription at hq
    split at hq
    · cases hq
    · split at hq
      · cases hq
        rfl
      · split at hq
        · cases hq
          rfl
        · cases hq
  · next q tenantId hq =>
    obtain ⟨sub, hresolved⟩ := resolveSubscription_ok hq
    rw [hresolved.row] at h
    dsimp only at h
    -- Activations and renewals differ in nothing but the type.
    have hactivated : ∀ {result : Platform × TenantSubscription},
        event.type ≠ .paymentFailed →
        q.applyPlan tenantId { sub with
          status := .active
          graceUntil := none
          currentPeriodEnd := event.currentPeriodEnd <|> sub.currentPeriodEnd } event.plan =
            .ok result →
        Billed settings event p
          ({ result.1 with
            subscriptions := result.1.subscriptions.put tenantId result.2 }.reactivateTenant
              tenantId) tenantId sub result.2 := by
      rintro ⟨r, sub'⟩ htype hplan
      obtain ⟨hone, hstatus⟩ := applyPlan_ok hplan
      refine .of_other hresolved htype hone (reactivateTenant_one _ _) ?_
      rw [hstatus]
      exact nofun
    refine .inr ⟨tenantId, ?_⟩
    rw [hq]
    split at h
    · next htype =>
      obtain ⟨result, hplan, rfl⟩ := map_eq_ok h
      exact ⟨sub, result.2, rfl, hactivated (by rw [htype]; exact nofun) hplan⟩
    · next htype =>
      obtain ⟨result, hplan, rfl⟩ := map_eq_ok h
      exact ⟨sub, result.2, rfl, hactivated (by rw [htype]; exact nofun) hplan⟩
    · next htype =>
      cases h
      exact ⟨sub, _, rfl, .of_failed hresolved htype⟩
    · next htype =>
      refine ⟨sub, _, rfl, .of_other hresolved (by rw [htype]; exact nofun) (.refl ..)
        (.of_update h) ?_⟩
      exact nofun

end Billing

/-! ### The sweep -/

/-- The row of a tenant that was suspended, and its subscription's with the window closed. -/
def suspend (tenant : Tenant) : Tenant := { tenant with status := .suspended }

/-- The grace window is over. -/
def closeWindow (sub : TenantSubscription) : TenantSubscription := { sub with graceUntil := none }

theorem suspend_suspend (tenant : Tenant) : suspend (suspend tenant) = suspend tenant := rfl

theorem closeWindow_closeWindow (sub : TenantSubscription) :
    closeWindow (closeWindow sub) = closeWindow sub := rfl

/-- `p'` is `p` with the tenants `ids` suspended and their windows closed. -/
structure Swept (ids : List Uuid) (p p' : Platform) : Prop where
  now : p'.now = p.now
  tenants : ∀ id, p'.tenants.row id =
    if id ∈ ids then (p.tenants.row id).map suspend else p.tenants.row id
  subscriptions : ∀ id, p'.subscriptions.row id =
    if id ∈ ids then (p.subscriptions.row id).map closeWindow else p.subscriptions.row id

/-- The sweep suspends one tenant and closes its window. -/
theorem suspendPastDue_one {p : Platform} {tenantId : Uuid}
    (h : (p.tenants.row tenantId).isSome) :
    ∃ p', p.suspendPastDue tenantId = .ok p' ∧ Swept [tenantId] p p' := by
  obtain ⟨tenant, htenant⟩ := Option.isSome_iff_exists.mp h
  -- The tenant is there, so suspending it cannot fail.
  have hstatus : p.setStatus tenantId .suspended =
      .ok { p with tenants := p.tenants.put tenantId (suspend tenant) } := by
    unfold Platform.setStatus Platform.updateTenant
    rw [htenant]
    rfl
  have htenants : ∀ id, (p.tenants.put tenantId (suspend tenant)).row id =
      if id ∈ [tenantId] then (p.tenants.row id).map suspend else p.tenants.row id := by
    intro id
    by_cases hid : id = tenantId
    · rw [hid, Rows.row_put_self, if_pos List.mem_cons_self, htenant]
      rfl
    · rw [Rows.row_put_of_ne _ _ hid, if_neg (List.mem_singleton.not.mpr hid)]
  cases hsub : p.subscriptions.row tenantId with
  | none =>
    have hbody : p.suspendPastDue tenantId =
        .ok { p with tenants := p.tenants.put tenantId (suspend tenant) } := by
      simp only [Platform.suspendPastDue, hstatus, bind, Except.bind, hsub]
      rfl
    refine ⟨_, hbody, rfl, htenants, fun id => ?_⟩
    by_cases hid : id = tenantId
    · rw [hid, if_pos List.mem_cons_self, hsub]
      rfl
    · rw [if_neg (List.mem_singleton.not.mpr hid)]
  | some sub =>
    have hbody : p.suspendPastDue tenantId =
        .ok { p with
          tenants := p.tenants.put tenantId (suspend tenant)
          subscriptions := p.subscriptions.put tenantId (closeWindow sub) } := by
      simp only [Platform.suspendPastDue, hstatus, bind, Except.bind, hsub]
      rfl
    refine ⟨_, hbody, rfl, htenants, fun id => ?_⟩
    by_cases hid : id = tenantId
    · rw [hid, if_pos List.mem_cons_self, hsub]
      exact Rows.row_put_self ..
    · rw [if_neg (List.mem_singleton.not.mpr hid)]
      exact Rows.row_put_of_ne _ _ hid

/-- What is done to a row twice might as well be done once. -/
theorem map_cons {V : Type} {f : V → V} (hf : ∀ v, f (f v) = f v) (id tenantId : Uuid)
    (ids : List Uuid) (row : Option V) :
    (if id ∈ ids then (if id ∈ [tenantId] then row.map f else row).map f
      else if id ∈ [tenantId] then row.map f else row) =
    if id ∈ tenantId :: ids then row.map f else row := by
  have htwice : (row.map f).map f = row.map f := by
    cases row with
    | none => rfl
    | some v => exact congrArg some (hf v)
  by_cases hid : id = tenantId
  · subst hid
    rw [if_pos List.mem_cons_self, if_pos List.mem_cons_self, htwice, ite_self]
  · have hmem : id ∈ tenantId :: ids ↔ id ∈ ids := List.mem_cons.trans (or_iff_right hid)
    rw [if_neg (List.mem_singleton.not.mpr hid)]
    simp only [hmem]

/-- The loop of `suspend_grace_expired`, by induction on the tenants due. -/
theorem suspendPastDue_all {ids : List Uuid} {p : Platform}
    (h : ∀ id ∈ ids, (p.tenants.row id).isSome) :
    ∃ p', ids.foldlM Platform.suspendPastDue p = .ok p' ∧ Swept ids p p' := by
  induction ids generalizing p with
  | nil =>
    refine ⟨p, rfl, rfl, fun id => ?_, fun id => ?_⟩
    · rw [if_neg List.not_mem_nil]
    · rw [if_neg List.not_mem_nil]
  | cons tenantId ids ih =>
    obtain ⟨q, hq, hone⟩ := suspendPastDue_one (h tenantId List.mem_cons_self)
    have hexists : ∀ id ∈ ids, (q.tenants.row id).isSome := by
      intro id hid
      rw [hone.tenants]
      split
      · rw [Option.isSome_map]
        exact h id (List.mem_cons_of_mem _ hid)
      · exact h id (List.mem_cons_of_mem _ hid)
    obtain ⟨p', hp', hrest⟩ := ih hexists
    refine ⟨p', ?_, hrest.now.trans hone.now, fun id => ?_, fun id => ?_⟩
    · rw [List.foldlM_cons, hq]
      exact hp'
    · rw [hrest.tenants, hone.tenants]
      -- Suspending twice is suspending once, so a tenant may be on the list again.
      exact map_cons suspend_suspend ..
    · rw [hrest.subscriptions, hone.subscriptions]
      exact map_cons closeWindow_closeWindow ..

/-! ### Sequences of events and sweeps -/

/-- The subscription is past due. -/
def pastDue (p : Platform) (tenantId : Uuid) : Bool :=
  (p.subscriptions.row tenantId).any (·.status = .pastDue)

/-- The platform, and since when each subscription has been past due. -/
structure State where
  platform : Platform
  /-- Since when a subscription has been past due without interruption. -/
  pastDueSince : Uuid → Option DateTime

/-- Time, a webhook, or the dunning sweep. -/
inductive Label where
  | wait (seconds : Nat)
  | webhook (event : BillingEvent)
  | dunningSweep

/-- The end of a request or a sweep; an error changes nothing. -/
def State.settle (s : State) : Except AppError Platform → State
  | .error _ => s
  | .ok platform =>
    { platform
      pastDueSince := fun tenantId =>
        if pastDue platform tenantId then some ((s.pastDueSince tenantId).getD platform.now)
        else none }

section Machine

variable (parseUuid : String → Option Uuid) (settings : LifecycleSettings)

/-- Billing over time. -/
def step (s : State) : Label → Option State
  | .wait seconds =>
    some { s with platform := { s.platform with now := s.platform.now + seconds } }
  | .webhook event => some (s.settle (s.platform.handleWebhook parseUuid settings event))
  | .dunningSweep => some (s.settle s.platform.suspendGraceExpired)

/-- Billing, from any tenants without subscriptions on. -/
def dunning : Machine State Label where
  init s := s.platform.subscriptions = .empty ∧ s.pastDueSince = fun _ => none
  step := step parseUuid settings

/-- A failed payment of a tenant in service whose subscription is past due already leaves the
deadline where it is. -/
def KeepsDeadline (s : State) : Label → Prop
  | .webhook event =>
    event.type = .paymentFailed → (event.provider, event.eventId) ∉ s.platform.events →
      ∀ tenantId ∈ (s.platform.resolveSubscription parseUuid event).2,
      ∀ sub ∈ s.platform.subscriptions.row tenantId, sub.status = .pastDue →
      ∀ tenant ∈ s.platform.tenants.row tenantId, tenant.status ≠ .suspended →
        settings.billingGraceDays ≤ 0 ∨
          sub.graceUntil = some (s.platform.now + days settings.billingGraceDays)
  | _ => True

/-- Whether a webhook keeps the deadline is read off the subscription. -/
instance (s : State) : ∀ l, Decidable (KeepsDeadline parseUuid settings s l)
  | .webhook event => inferInstanceAs (Decidable (_ = _ → _ ∉ _ → ∀ tenantId ∈
      (s.platform.resolveSubscription parseUuid event).2,
      ∀ sub ∈ s.platform.subscriptions.row tenantId, sub.status = .pastDue →
      ∀ tenant ∈ s.platform.tenants.row tenantId, tenant.status ≠ .suspended → _ ∨ _))
  | .wait _ | .dunningSweep => inferInstanceAs (Decidable True)

end Machine

/-- Subscriptions belong to tenants, and a tenant in service whose subscription is past due has
its window open until the grace period is over, or until a moment that has passed. -/
structure Inv (settings : LifecycleSettings) (s : State) : Prop where
  tenant : ∀ {tenantId}, (s.platform.subscriptions.row tenantId).isSome →
    (s.platform.tenants.row tenantId).isSome
  since : ∀ tenantId, (s.pastDueSince tenantId).isSome ↔ pastDue s.platform tenantId = true
  window : ∀ {tenantId sub tenant since}, s.platform.subscriptions.row tenantId = some sub →
    s.platform.tenants.row tenantId = some tenant → tenant.status ≠ .suspended →
    s.pastDueSince tenantId = some since →
    ∃ graceUntil, sub.graceUntil = some graceUntil ∧
      (graceUntil ≤ since + days settings.billingGraceDays ∨ graceUntil ≤ s.platform.now)

section Steps

variable {parseUuid : String → Option Uuid} {settings : LifecycleSettings} {s : State}
  {p : Platform}

theorem pastDue_iff {tenantId : Uuid} :
    pastDue p tenantId = true ↔
      ∃ sub, p.subscriptions.row tenantId = some sub ∧ sub.status = .pastDue := by
  unfold pastDue
  simp only [Option.any_eq_true, decide_eq_true_eq]

/-- Since when is recorded for those past due, and for no others. -/
theorem settle_since (s : State) (p : Platform) (tenantId : Uuid) :
    ((s.settle (.ok p)).pastDueSince tenantId).isSome ↔ pastDue p tenantId = true := by
  show (if _ then _ else _ : Option DateTime).isSome ↔ _
  split
  · next hdue => exact iff_of_true rfl hdue
  · next hdue => exact iff_of_false Bool.false_ne_true hdue

/-- What was past due and still is, is so since the same moment. -/
theorem Inv.since_settle (h : Inv settings s) {tenantId : Uuid} {since : DateTime}
    (hsince : (s.settle (.ok p)).pastDueSince tenantId = some since) :
    pastDue p tenantId = true ∧
      ((pastDue s.platform tenantId = true ∧ s.pastDueSince tenantId = some since) ∨
        (¬ pastDue s.platform tenantId = true ∧ since = p.now)) := by
  have hsince : (if pastDue p tenantId then some ((s.pastDueSince tenantId).getD p.now)
      else none) = some since := hsince
  obtain ⟨hdue, hsince⟩ := Option.ite_none_right_eq_some.mp hsince
  refine ⟨hdue, ?_⟩
  cases hold : s.pastDueSince tenantId with
  | none =>
    rw [hold] at hsince
    refine .inr ⟨fun hwas => ?_, (Option.some.inj hsince).symm⟩
    have hsome := (h.since tenantId).mpr hwas
    rw [hold] at hsome
    cases hsome
  | some t =>
    rw [hold] at hsince
    exact .inl ⟨(h.since tenantId).mp (by rw [hold]; rfl), hsince⟩

/-- A row the event leaves alone. -/
theorem Inv.window_rest (h : Inv settings s) {tenantId : Uuid} {sub : TenantSubscription}
    {tenant : Tenant} {since : DateTime} (hnow : p.now = s.platform.now)
    (hsubscription : p.subscriptions.row tenantId = s.platform.subscriptions.row tenantId)
    (htenants : p.tenants.row tenantId = s.platform.tenants.row tenantId)
    (hsub : p.subscriptions.row tenantId = some sub)
    (htenant : p.tenants.row tenantId = some tenant) (hstatus : tenant.status ≠ .suspended)
    (hsince : (s.settle (.ok p)).pastDueSince tenantId = some since) :
    ∃ graceUntil, sub.graceUntil = some graceUntil ∧
      (graceUntil ≤ since + days settings.billingGraceDays ∨ graceUntil ≤ p.now) := by
  rw [hnow]
  rcases (h.since_settle hsince).2 with ⟨-, hsince⟩ | ⟨hnot, -⟩
  · exact h.window (hsubscription ▸ hsub) (htenants ▸ htenant) hstatus hsince
  · refine absurd ?_ hnot
    obtain ⟨sub', hrow, hpastDue⟩ := pastDue_iff.mp (h.since_settle hsince).1
    exact pastDue_iff.mpr ⟨sub', hsubscription ▸ hrow, hpastDue⟩

/-- Nothing that concerns the windows happened. -/
theorem Inv.settle_same (h : Inv settings s) (hnow : p.now = s.platform.now)
    (hsubscriptions : p.subscriptions = s.platform.subscriptions)
    (htenants : p.tenants = s.platform.tenants) : Inv settings (s.settle (.ok p)) where
  tenant {tenantId} hsome := by
    show (p.tenants.row tenantId).isSome
    rw [htenants]
    exact h.tenant (hsubscriptions ▸ hsome)
  since := settle_since s p
  window {tenantId sub tenant since} hsub htenant hstatus hsince := by
    have hsubscription : p.subscriptions.row tenantId =
        s.platform.subscriptions.row tenantId := by rw [hsubscriptions]
    have htenants : p.tenants.row tenantId = s.platform.tenants.row tenantId := by rw [htenants]
    exact h.window_rest hnow hsubscription htenants hsub htenant hstatus hsince

theorem add_days_le {n : Int} (h : n ≤ 0) (now : DateTime) : now + days n ≤ now := by
  have hseconds : ∀ a b : Int, b ≤ 0 → a + b * 86400 ≤ a := by
    intro a b hb
    omega
  exact hseconds now n h

/-- A failed payment: the window it opens is the first, or no later than the one it replaces. -/
theorem Inv.window_failed (h : Inv settings s) {event : BillingEvent} {tenantId : Uuid}
    {sub sub' : TenantSubscription} {tenant : Tenant} {since : DateTime}
    (hbilled : Billed settings event s.platform p tenantId sub sub')
    (hkeeps : ∀ old, s.platform.subscriptions.row tenantId = some old → old.status = .pastDue →
      ∀ tenant, s.platform.tenants.row tenantId = some tenant → tenant.status ≠ .suspended →
        settings.billingGraceDays ≤ 0 ∨
          old.graceUntil = some (s.platform.now + days settings.billingGraceDays))
    (hfailed : event.type = .paymentFailed)
    (htenant : p.tenants.row tenantId = some tenant) (hstatus : tenant.status ≠ .suspended)
    (hsince : (s.settle (.ok p)).pastDueSince tenantId = some since) :
    ∃ graceUntil, sub'.graceUntil = some graceUntil ∧
      (graceUntil ≤ since + days settings.billingGraceDays ∨ graceUntil ≤ p.now) := by
  obtain ⟨-, hgrace, htenants⟩ := hbilled.failed hfailed
  rw [htenants] at htenant
  refine ⟨_, hgrace, ?_⟩
  have hnow := hbilled.now
  rcases (h.since_settle hsince).2 with ⟨hwas, hsince⟩ | ⟨-, hsince⟩
  · -- Past due already: a new window must be over at once, or be the one it replaces.
    obtain ⟨old, hold, hpastDue⟩ := pastDue_iff.mp hwas
    rcases hkeeps old hold hpastDue tenant htenant hstatus with hnone | hsame
    · rw [hnow]
      exact .inr (add_days_le hnone _)
    · obtain ⟨graceUntil, hwindow, hle⟩ := h.window hold htenant hstatus hsince
      obtain rfl := Option.some.inj (hsame.symm.trans hwindow)
      rw [hnow]
      exact hle
  · -- Past due from now on, like the window.
    rw [hsince, hnow]
    exact .inl (Int.le_refl _)

/-- A payment fails, succeeds or is cancelled: the window follows. -/
theorem Inv.settle_billed (h : Inv settings s) {event : BillingEvent} {tenantId : Uuid}
    {sub sub' : TenantSubscription}
    (hbilled : Billed settings event s.platform p tenantId sub sub')
    (hkeeps : event.type = .paymentFailed → ∀ old,
      s.platform.subscriptions.row tenantId = some old → old.status = .pastDue →
      ∀ tenant, s.platform.tenants.row tenantId = some tenant → tenant.status ≠ .suspended →
        settings.billingGraceDays ≤ 0 ∨
          old.graceUntil = some (s.platform.now + days settings.billingGraceDays)) :
    Inv settings (s.settle (.ok p)) where
  tenant {other} hsome := by
    by_cases hother : other = tenantId
    · subst hother
      refine hbilled.tenant ?_
      cases hold : s.platform.subscriptions.row other with
      | none => exact (hbilled.made hold).2
      | some old =>
        refine h.tenant ?_
        rw [hold]
        rfl
    · have hsome : (p.subscriptions.row other).isSome := hsome
      rw [hbilled.restSubscriptions other hother] at hsome
      show (p.tenants.row other).isSome
      rw [hbilled.restTenants other hother]
      exact h.tenant hsome
  since := settle_since s p
  window {other sub'' tenant since} hsub htenant hstatus hsince := by
    by_cases hother : other = tenantId
    · subst hother
      obtain rfl := Option.some.inj (hbilled.row.symm.trans hsub)
      by_cases hfailed : event.type = .paymentFailed
      · exact h.window_failed hbilled (hkeeps hfailed) hfailed htenant hstatus hsince
      · -- Any other event leaves the subscription in good standing or canceled.
        obtain ⟨left, hrow, hpastDue⟩ := pastDue_iff.mp (h.since_settle hsince).1
        obtain rfl := Option.some.inj (hbilled.row.symm.trans hrow)
        exact absurd hpastDue (hbilled.other hfailed)
    · exact h.window_rest hbilled.now (hbilled.restSubscriptions other hother)
        (hbilled.restTenants other hother) hsub htenant hstatus hsince

/-- The sweep always runs to its end, and leaves the rows it does not select alone. -/
theorem Inv.sweep (h : Inv settings s) :
    ∃ p, s.platform.suspendGraceExpired = .ok p ∧ Swept s.platform.graceExpired s.platform p := by
  refine suspendPastDue_all fun id hid => ?_
  obtain ⟨sub, hrow, -⟩ := Rows.mem_select.mp hid
  refine h.tenant ?_
  rw [hrow]
  rfl

/-- Who is not suspended was not swept. -/
theorem Swept.rest {ids : List Uuid} {p p' : Platform} (h : Swept ids p p') {tenantId : Uuid}
    {tenant : Tenant} (htenant : p'.tenants.row tenantId = some tenant)
    (hstatus : tenant.status ≠ .suspended) :
    tenantId ∉ ids ∧ p'.tenants.row tenantId = p.tenants.row tenantId ∧
      p'.subscriptions.row tenantId = p.subscriptions.row tenantId := by
  by_cases hmem : tenantId ∈ ids
  · rw [h.tenants, if_pos hmem] at htenant
    obtain ⟨old, -, rfl⟩ := Option.map_eq_some_iff.mp htenant
    exact absurd rfl hstatus
  · refine ⟨hmem, ?_, ?_⟩
    · rw [h.tenants, if_neg hmem]
    · rw [h.subscriptions, if_neg hmem]

theorem Inv.settle_swept (h : Inv settings s) {ids : List Uuid} (hswept : Swept ids s.platform p) :
    Inv settings (s.settle (.ok p)) where
  tenant {tenantId} hsome := by
    have hsome : (p.subscriptions.row tenantId).isSome := hsome
    have hrow : (s.platform.subscriptions.row tenantId).isSome := by
      rw [hswept.subscriptions] at hsome
      split at hsome
      · rw [Option.isSome_map] at hsome
        exact hsome
      · exact hsome
    show (p.tenants.row tenantId).isSome
    rw [hswept.tenants]
    split
    · rw [Option.isSome_map]
      exact h.tenant hrow
    · exact h.tenant hrow
  since := settle_since s p
  window {tenantId sub tenant since} hsub htenant hstatus hsince := by
    obtain ⟨-, htenants, hsubscriptions⟩ := hswept.rest htenant hstatus
    exact h.window_rest hswept.now hsubscriptions htenants hsub htenant hstatus hsince

/-- The deliveries recorded before do not matter to where an event goes. -/
theorem resolveSubscription_events (p : Platform) (events : List (String × String))
    (event : BillingEvent) :
    (({ p with events } : Platform).resolveSubscription parseUuid event).2 =
      (p.resolveSubscription parseUuid event).2 := by
  unfold Platform.resolveSubscription
  have hfound : ({ p with events } : Platform).subscriptionByProviderId event.provider
      event.subscriptionId = p.subscriptionByProviderId event.provider event.subscriptionId := rfl
  rw [hfound]
  cases p.subscriptionByProviderId event.provider event.subscriptionId with
  | some tenantId => rfl
  | none =>
    cases event.tenantId parseUuid with
    | none => rfl
    | some tenantId =>
      dsimp only
      cases p.tenants.row tenantId with
      | none => rfl
      | some tenant => rfl

theorem Inv.webhook (h : Inv settings s) {event : BillingEvent}
    (hkeeps : KeepsDeadline parseUuid settings s (.webhook event)) :
    Inv settings (s.settle (s.platform.handleWebhook parseUuid settings event)) := by
  cases hresult : s.platform.handleWebhook parseUuid settings event with
  | error e => exact h
  | ok p =>
    unfold Platform.handleWebhook at hresult
    split at hresult
    · cases hresult
      exact h.settle_same rfl rfl rfl
    · next hnew =>
      rcases applyEvent_ok hresult with rfl | ⟨tenantId, sub, sub', htarget, hbilled⟩
      · exact h.settle_same rfl rfl rfl
      · rw [resolveSubscription_events] at htarget
        have hbilled : Billed settings event s.platform p tenantId sub sub' :=
          ⟨hbilled.now, hbilled.found, hbilled.made, hbilled.row, hbilled.tenant,
            hbilled.restSubscriptions, hbilled.restTenants, hbilled.failed, hbilled.other⟩
        refine h.settle_billed hbilled fun hfailed old hold hpastDue tenant htenant hstatus => ?_
        exact hkeeps hfailed hnew tenantId htarget old hold hpastDue tenant htenant hstatus

/-- The invariant of all runs that keep the deadlines. -/
theorem dunning_inductive :
    (dunning parseUuid settings).Inductive (KeepsDeadline parseUuid settings)
      (Inv settings) where
  init s hs := by
    obtain ⟨hsubscriptions, hsince⟩ := hs
    constructor
    · intro tenantId hsome
      rw [hsubscriptions] at hsome
      cases hsome
    · intro tenantId
      rw [hsince, pastDue, hsubscriptions]
      exact iff_of_false Bool.false_ne_true Bool.false_ne_true
    · intro tenantId sub tenant since hsub _ _ _
      rw [hsubscriptions] at hsub
      cases hsub
  step s l s' h hG hst := by
    cases l with
    | wait seconds =>
      cases hst
      refine ⟨h.tenant, h.since, fun hsub htenant hstatus hsince => ?_⟩
      obtain ⟨graceUntil, hgrace, hle⟩ := h.window hsub htenant hstatus hsince
      exact ⟨graceUntil, hgrace, hle.imp_right fun hle =>
        Int.le_trans hle (Int.le_add_of_nonneg_right (Int.natCast_nonneg seconds))⟩
    | webhook event =>
      cases hst
      exact h.webhook hG
    | dunningSweep =>
      cases hst
      obtain ⟨p, hp, hswept⟩ := h.sweep
      rw [hp]
      exact h.settle_swept hswept

/-- **Dunning.** As long as no repeated failure moves a deadline, a sweep leaves no tenant in
service whose subscription has been past due without interruption for the grace period. -/
theorem suspended_after_sweep {s' : State}
    (h : (dunning parseUuid settings).ReachVia (KeepsDeadline parseUuid settings) s)
    (hsweep : (dunning parseUuid settings).step s .dunningSweep = some s')
    {tenantId : Uuid} {since : DateTime} (hsince : s'.pastDueSince tenantId = some since)
    (hgrace : since + days settings.billingGraceDays ≤ s'.platform.now) {tenant : Tenant}
    (htenant : s'.platform.tenants.row tenantId = some tenant) :
    tenant.status = .suspended := by
  have hinv := dunning_inductive.always h
  obtain ⟨p, hp, hswept⟩ := hinv.sweep
  cases hsweep
  rw [hp] at hsince hgrace htenant
  by_contra hstatus
  obtain ⟨hnot, htenants, hsubscriptions⟩ := hswept.rest htenant hstatus
  -- Then the sweep did not select the subscription, although its window was over.
  obtain ⟨sub, hsub, hpastDue⟩ := pastDue_iff.mp (hinv.since_settle hsince).1
  obtain ⟨graceUntil, hwindow, hle⟩ :=
    hinv.window_rest hswept.now hsubscriptions htenants hsub htenant hstatus hsince
  have hover : graceUntil ≤ s.platform.now := by
    rw [← hswept.now]
    exact hle.elim (fun hle => Int.le_trans hle hgrace) id
  refine hnot (Rows.mem_select.mpr ⟨sub, hsubscriptions ▸ hsub, ?_⟩)
  rw [hwindow]
  exact decide_eq_true ⟨hpastDue, decide_eq_true hover⟩

end Steps

/-! ### Two histories -/

/-- A tenant `7` in its trial. -/
def newcomer : State where
  platform := ⟨0, Rows.empty.put 7 { id := 7, name := "Atlas", slug := "atlas" }, .empty, []⟩
  pastDueSince _ := none

/-- A reader of ids that knows one. -/
def parseSeven (text : String) : Option Uuid := if text = "7" then some 7 else none

/-- The subscription begins. -/
def activation : BillingEvent :=
  { provider := "stub", eventId := "e1", type := .subscriptionActivated
    subscriptionId := some "sub_1", customerId := some "7", plan := some "growth" }

/-- A payment fails. -/
def failure (eventId : String) : BillingEvent :=
  { provider := "stub", eventId, type := .paymentFailed, subscriptionId := some "sub_1" }

/-- One failed payment, reported twice at once, and a sweep when the week is over. -/
theorem suspended_after_sweep_week : ∃ s s' tenant,
    (dunning parseSeven {}).ReachVia (KeepsDeadline parseSeven {}) s ∧
    (dunning parseSeven {}).step s .dunningSweep = some s' ∧
    s'.pastDueSince 7 = some 60 ∧ s'.platform.tenants.row 7 = some tenant ∧
    tenant.status = .suspended := by
  obtain ⟨s, hs, hp⟩ := Machine.exists_reachVia_of_run (M := dunning parseSeven {})
    (G := KeepsDeadline parseSeven {}) (s := newcomer)
    [.webhook activation, .wait 60, .webhook (failure "e2"), .webhook (failure "e3"),
      .webhook (failure "e2"), .wait 604800]
    (fun s => (step parseSeven {} s .dunningSweep).any fun s' =>
      s'.pastDueSince 7 = some 60 ∧ 60 + days 7 ≤ s'.platform.now ∧
        (s'.platform.tenants.row 7).isSome) ⟨rfl, rfl⟩ (by decide)
  obtain ⟨s', hsweep, hend⟩ := (Option.any_eq_true ..).mp hp
  obtain ⟨hsince, hgrace, hsome⟩ := of_decide_eq_true hend
  obtain ⟨tenant, htenant⟩ := Option.isSome_iff_exists.mp hsome
  exact ⟨s, s', tenant, hs, hsweep, hsince, htenant,
    suspended_after_sweep hs hsweep hsince hgrace htenant⟩

/-- A second failure on the sixth day: the sweep of the eighth leaves the tenant active. -/
theorem deadline_moved : ∃ s s' tenant, (dunning parseSeven {}).Reachable s ∧
    (dunning parseSeven {}).step s .dunningSweep = some s' ∧
    s'.pastDueSince 7 = some 0 ∧ 0 + days 7 ≤ s'.platform.now ∧
    s'.platform.tenants.row 7 = some tenant ∧ tenant.status = .active := by
  obtain ⟨s, hs, hp⟩ := Machine.exists_reachable_of_run (M := dunning parseSeven {})
    (s := newcomer)
    [.webhook activation, .webhook (failure "e2"), .wait 518400, .webhook (failure "e3"),
      .wait 172800]
    (fun s => (step parseSeven {} s .dunningSweep).any fun s' =>
      s'.pastDueSince 7 = some 0 ∧ 0 + days 7 ≤ s'.platform.now ∧
        (s'.platform.tenants.row 7).any (·.status = .active)) ⟨rfl, rfl⟩ (by decide)
  obtain ⟨s', hsweep, hend⟩ := (Option.any_eq_true ..).mp hp
  obtain ⟨hsince, hgrace, hactive⟩ := of_decide_eq_true hend
  obtain ⟨tenant, htenant, hstatus⟩ := (Option.any_eq_true ..).mp hactive
  exact ⟨s, s', tenant, hs, hsweep, hsince, hgrace, htenant, of_decide_eq_true hstatus⟩

end Dunning

end Tenants

end RealEstate
