import RealEstate.Listings.Lifecycle
import RealEstate.Systems.Machine
import RealEstate.Systems.Totals
import RealEstate.Tenants.Usage

/-!
# Quota counters and the rows they count

The requests that take a slot of a quota (`ListingService.create` and `duplicate`,
`AgentsService.create_profile`) and those that give one back (`soft_delete`,
`delete_profile`), statement by statement, with `UsageRepository` under them.

- `Creation.build`, `Deletion.remove`: the row a request inserts or leaves behind.
- `Phase`, `quotas`: the transactions; one that raised can only be rolled back.
- `Holds`: how far an open transaction has moved the counters and the rows.
- `quotas_exact`: every committed counter is the number of rows it counts, and no counter is
  raised above the plan's limit.
-/

namespace RealEstate

namespace Tenants

namespace Quotas

open RealEstate.Core Systems Listings Function

/-- A row of `listings` or of `agent_profiles`; their keys are distinct `uuid4`s. -/
inductive Counted where
  | listing (tenantId : Uuid) (row : Listing)
  | agentProfile (tenantId userId : Uuid)

/-- The row takes up a slot of the tenant's quota: a deleted listing does not. -/
def Counted.counts (counter : Counter) (tenantId : Uuid) : Counted → Bool
  | .listing owner row => counter = .listings ∧ owner = tenantId ∧ row.deletedAt.isNone
  | .agentProfile owner _ => counter = .agents ∧ owner = tenantId

/-- One for a row that counts, zero for any other. -/
def Counted.weight (counter : Counter) (tenantId : Uuid) (row : Counted) : Int :=
  if row.counts counter tenantId then 1 else 0

/-- One slot of a tenant's quota, as both counters of every tenant see it. -/
def slot (counter : Counter) (tenantId : Uuid) (c : Counter) (tid : Uuid) : Int :=
  if c = counter ∧ tenantId = tid then 1 else 0

/-! ### Requests -/

/-- A request that takes a slot. -/
inductive Creation where
  | listing (new : NewListing)
  | duplicate (sourceId : Uuid) (referenceCode : String)
  | profile (userId : Uuid)

/-- What a creation uses up. -/
def Creation.counter : Creation → Counter
  | .listing _ | .duplicate _ _ => .listings
  | .profile _ => .agents

/-- `_get_scoped_or_404` of a listing. -/
def listingOr404 (tenantId : Uuid) : Option Counted → Except AppError Listing
  | some (.listing owner row) =>
    if owner = tenantId ∧ row.deletedAt.isNone then .ok row else .error listingNotFound
  | _ => .error listingNotFound

/-- No such profile. -/
def profileNotFound : AppError := ⟨.notFound, "Agent profile not found."⟩

/-- The `WHERE` of `get_by_user`. -/
def Counted.isProfileOf (tenantId userId : Uuid) : Counted → Bool
  | .listing _ _ => false
  | .agentProfile owner user => owner = tenantId ∧ user = userId

/-- The row to insert, from the reads that come before the reservation. -/
def Creation.build (rows : Table Uuid Counted Nat) (t : Nat) (tenantId : Uuid) :
    Creation → Except AppError Counted
  | .listing new =>
    .ok (.listing tenantId
      { content := new.content, referenceCode := new.referenceCode, expiresAt := new.expiresAt })
  | .duplicate sourceId referenceCode =>
    (listingOr404 tenantId (rows.visible t sourceId)).map fun source =>
      .listing tenantId { content := source.content, referenceCode }
  | .profile userId =>
    if rows.scan t (Counted.isProfileOf tenantId userId) = [] then
      .ok (.agentProfile tenantId userId)
    else .error ⟨.conflict, "This user already has an agent profile."⟩

/-- A creation whose row is built and whose slot is not reserved yet. -/
structure Reservation where
  tenant : TenantContext
  counter : Counter
  key : Uuid
  row : Counted

/-- A request that gives a slot back. -/
structure Deletion where
  tenantId : Uuid
  counter : Counter
  key : Uuid
  now : DateTime

/-- What `soft_delete` and `delete_profile` make of the row they locked. -/
def Deletion.remove (d : Deletion) (row : Option Counted) : Except AppError (Option Counted) :=
  match d.counter with
  | .listings => do
    let listing ← listingOr404 d.tenantId row
    let deleted ← listing.softDelete d.now
    return some (.listing d.tenantId deleted.1)
  | .agents =>
    match row with
    | some (.agentProfile owner _) =>
      if owner = d.tenantId then .ok none else .error profileNotFound
    | _ => .error profileNotFound

/-! ### Transactions -/

/-- Where a request's transaction stands. -/
inductive Phase where
  /-- Before `get_for_update`'s insert. -/
  | reserving (r : Reservation)
  /-- Before its `SELECT … FOR UPDATE`. -/
  | locking (r : Reservation)
  /-- With the counters it read. -/
  | checking (r : Reservation) (usage : TenantUsage)
  /-- Before the insert of the row. -/
  | inserting (r : Reservation)
  /-- Before the `SELECT … FOR UPDATE` of the row. -/
  | deleting (d : Deletion)
  | removing (d : Deletion) (left : Option Counted)
  | releasing (d : Deletion)
  | done

/-- The counted rows, the usage rows, the requests at work, and the increments so far. -/
structure State where
  rows : Table Uuid Counted Nat
  usage : Table Uuid TenantUsage Nat
  txns : Nat → Option Phase
  /-- Every increment so far: the counter, the plan of the request's tenant context, and the
  counter's value after it. -/
  increments : List (Counter × String × Int)

namespace State

/-- Nothing yet. -/
def start : State := ⟨.empty, .empty, fun _ => none, []⟩

/-- Transaction `t` goes on with its tables as they are. -/
def goes (s : State) (t : Nat) (phase : Phase) : State :=
  { s with txns := update s.txns t (some phase) }

/-- The next statement of transaction `t`. -/
def advance (s : State) (t : Nat) : Phase → Option State
  | .reserving r =>
    (s.usage.insertIgnore t r.tenant.id {}).map fun result =>
      { s with usage := result.1 }.goes t (.locking r)
  | .locking r =>
    (s.usage.acquire t r.tenant.id).bind fun usage =>
      (usage.visible t r.tenant.id).map fun row =>
        { s with usage }.goes t (.checking r row)
  | .checking r row =>
    -- The limit is checked on the row read, the increment is made on the row it meets.
    (row.reserve r.counter r.tenant.plan).toOption.bind fun _ =>
      (s.usage.upsert t r.tenant.id fun row =>
        (row.getD {}).adjust (r.counter.delta 1)).map fun usage =>
          { s with
            usage
            increments := (r.counter, r.tenant.plan,
              ((usage.visible t r.tenant.id).getD {}).count r.counter) :: s.increments
            }.goes t (.inserting r)
  | .inserting r =>
    (s.rows.insert t r.key r.row).map fun rows => { s with rows }.goes t .done
  | .deleting d =>
    (s.rows.acquire t d.key).bind fun rows =>
      (d.remove (rows.visible t d.key)).toOption.map fun left =>
        { s with rows }.goes t (.removing d left)
  | .removing d left =>
    (s.rows.write t d.key left).map fun rows => { s with rows }.goes t (.releasing d)
  | .releasing d =>
    (s.usage.upsert t d.tenantId fun row =>
      (row.getD {}).adjust (d.counter.delta (-1))).map fun usage =>
        { s with usage }.goes t .done
  | .done => none

end State

/-- A step of a request. -/
inductive Label where
  | create (t : Nat) (tenant : TenantContext) (key : Uuid) (creation : Creation)
  | delete (t : Nat) (d : Deletion)
  | advance (t : Nat)
  | commit (t : Nat)
  | rollback (t : Nat)
  /-- A listing moves on; the statuses decide which listings may be deleted. -/
  | transition (t : Nat) (key : Uuid) (now : DateTime) (toStatus : ListingStatus)
      (canPublish : Bool)

/-- The listing of a row, moved to a new status. -/
def Counted.transition (now : DateTime) (toStatus : ListingStatus) (canPublish : Bool) :
    Counted → Option Counted
  | .listing owner row =>
    (row.transition now toStatus canPublish).toOption.map fun moved => .listing owner moved.1
  | .agentProfile _ _ => none

/-- The requests of all tenants. -/
def State.step (s : State) : Label → Option State
  | .create t tenant key creation =>
    if (s.txns t).isNone then
      (creation.build s.rows t tenant.id).toOption.map fun row =>
        s.goes t (.reserving ⟨tenant, creation.counter, key, row⟩)
    else none
  | .delete t d => if (s.txns t).isNone then some (s.goes t (.deleting d)) else none
  | .advance t => (s.txns t).bind (s.advance t)
  | .commit t =>
    match s.txns t with
    | some .done =>
      some { s with
        rows := s.rows.commit t
        usage := s.usage.commit t
        txns := update s.txns t none }
    | _ => none
  | .rollback t =>
    some { s with
      rows := s.rows.rollback t
      usage := s.usage.rollback t
      txns := update s.txns t none }
  | .transition t key now toStatus canPublish =>
    if (s.txns t).isNone then
      -- A listing's transition, in one transaction of its own.
      ((s.rows.visible t key).bind (Counted.transition now toStatus canPublish)).bind fun moved =>
        (s.rows.write t key (some moved)).map fun rows => { s with rows := rows.commit t }
    else none

/-- The requests on a tenant's slots and the transactions that run them. -/
def quotas : Machine State Label where
  init s := s = .start
  step := State.step

/-! ### Counters and rows -/

section Tables

variable (rows : Table Uuid Counted Nat) (usage : Table Uuid TenantUsage Nat) (t : Nat)

/-- The committed counters are the totals of the committed rows. -/
def Exact : Prop :=
  ∀ c tid, (usage.rows tid).elim 0 (·.count c) =
    total rows.keys rows.rows (Counted.weight c tid)

/-- Transaction `t` has moved the counters by `counted` and the rows by `drifted`. -/
def Holds (counted drifted : Counter → Uuid → Int) : Prop :=
  ∀ c tid, usage.gain t tid (·.count c) = counted c tid ∧
    rows.drift t (Counted.weight c tid) = drifted c tid

/-- Transaction `t` has written nothing. -/
def Clean : Prop :=
  (∀ k, rows.dirty t k = none) ∧ ∀ tid, usage.dirty t tid = none

/-- The row to insert takes up the slot that is reserved for it. -/
def Reservation.Fresh (r : Reservation) : Prop :=
  ∀ c tid, r.row.weight c tid = slot r.counter r.tenant.id c tid

/-- What an open transaction has moved, and the lock its next statement counts on. -/
def Phase.Sound : Phase → Prop
  | .reserving r | .locking r => Holds rows usage t (fun _ _ => 0) (fun _ _ => 0) ∧ r.Fresh
  | .checking r row =>
    Holds rows usage t (fun _ _ => 0) (fun _ _ => 0) ∧ r.Fresh ∧
      usage.lock r.tenant.id = some t ∧ usage.visible t r.tenant.id = some row
  | .inserting r => Holds rows usage t (slot r.counter r.tenant.id) (fun _ _ => 0) ∧ r.Fresh
  | .deleting _ => Holds rows usage t (fun _ _ => 0) (fun _ _ => 0)
  | .removing d left =>
    Holds rows usage t (fun _ _ => 0) (fun _ _ => 0) ∧ rows.lock d.key = some t ∧
      ∀ c tid, (rows.visible t d.key).elim 0 (Counted.weight c tid) =
        slot d.counter d.tenantId c tid + left.elim 0 (Counted.weight c tid)
  | .releasing d =>
    Holds rows usage t (fun _ _ => 0) fun c tid => -slot d.counter d.tenantId c tid
  | .done => ∃ moved, Holds rows usage t moved moved

end Tables

/-- A transaction between requests has written nothing. -/
def State.Sound (s : State) (t : Nat) : Prop :=
  (s.txns t).elim (Clean s.rows s.usage t) (Phase.Sound s.rows s.usage t)

/-- The counters are exact, every request accounts for what it has done, no limit is passed. -/
structure Inv (s : State) : Prop where
  exact : Exact s.rows s.usage
  sound : ∀ t, s.Sound t
  within : ∀ e ∈ s.increments, ∀ limit ∈ e.1.limit (planLimits e.2.1), e.2.2 ≤ limit

/-- A row counts once or not at all. -/
theorem weight_nonneg (c : Counter) (tid : Uuid) (row : Counted) : 0 ≤ row.weight c tid := by
  unfold Counted.weight
  split <;> omega

/-- A listing counts until it is deleted. -/
theorem weight_listing (owner : Uuid) (row : Listing) (c : Counter) (tid : Uuid) :
    (Counted.listing owner row).weight c tid =
      if row.deletedAt = none then slot .listings owner c tid else 0 := by
  by_cases hlive : row.deletedAt = none <;> simp [Counted.weight, Counted.counts, slot, hlive]

theorem weight_agentProfile (owner userId : Uuid) (c : Counter) (tid : Uuid) :
    (Counted.agentProfile owner userId).weight c tid = slot .agents owner c tid := by
  simp [Counted.weight, Counted.counts, slot]

section Frames

variable {rows rows' : Table Uuid Counted Nat} {usage usage' : Table Uuid TenantUsage Nat}
  {t : Nat} {counted drifted : Counter → Uuid → Int}

/-- A clean request has counted nothing. -/
theorem Clean.holds (h : Clean rows usage t) :
    Holds rows usage t (fun _ _ => 0) fun _ _ => 0 :=
  fun _ tid => ⟨Table.gain_of_clean (h.2 tid), Table.drift_of_clean h.1⟩

/-- What others do leaves a request its accounts. -/
theorem Holds.frame (h : Holds rows usage t counted drifted)
    (hrows : Table.SameFor t rows rows') (hkeys : ∀ k ∈ rows.keys, k ∈ rows'.keys)
    (husage : Table.SameFor t usage usage') : Holds rows' usage' t counted drifted :=
  fun c tid => ⟨(husage.gain tid _).trans (h c tid).1, (hrows.drift hkeys _).trans (h c tid).2⟩

/-- What an open transaction counts on is out of the others' reach. -/
theorem Phase.Sound.frame {phase : Phase} (h : phase.Sound rows usage t)
    (hrows : Table.SameFor t rows rows') (hkeys : ∀ k ∈ rows.keys, k ∈ rows'.keys)
    (husage : Table.SameFor t usage usage') : phase.Sound rows' usage' t := by
  cases phase with
  | reserving r | locking r | inserting r => exact ⟨h.1.frame hrows hkeys husage, h.2⟩
  | deleting d | releasing d => exact Holds.frame h hrows hkeys husage
  | checking r row =>
    obtain ⟨hholds, hfresh, hlock, hvisible⟩ := h
    exact ⟨hholds.frame hrows hkeys husage, hfresh, (husage.lock _).mpr hlock,
      (husage.visible hlock).trans hvisible⟩
  | removing d left =>
    obtain ⟨hholds, hlock, hweight⟩ := h
    refine ⟨hholds.frame hrows hkeys husage, (hrows.lock _).mpr hlock, fun c tid => ?_⟩
    rw [hrows.visible hlock]
    exact hweight c tid
  | done =>
    obtain ⟨moved, hholds⟩ := h
    exact ⟨moved, hholds.frame hrows hkeys husage⟩

/-- The counter a transaction sees, against the rows it sees. -/
theorem Holds.count_visible (h : Holds rows usage t counted drifted) (hexact : Exact rows usage)
    (c : Counter) (tid : Uuid) :
    (usage.visible t tid).elim 0 (·.count c) + drifted c tid =
      total rows.keys (rows.visible t) (Counted.weight c tid) + counted c tid := by
  have hgain := (h c tid).1
  have hdrift := (h c tid).2
  have hcommitted := hexact c tid
  have htotal := Table.total_visible rows t (Counted.weight c tid)
  unfold Table.gain at hgain
  omega

/-- `adjust`, when its clamp changes nothing. -/
theorem Holds.adjust {counter : Counter} {n : Int} {tenantId : Uuid}
    (h : Holds rows usage t counted drifted)
    (hwrote : Table.Wrote t tenantId
      (some (((usage.visible t tenantId).getD {}).adjust (counter.delta n))) usage usage')
    (hfits : ∀ c, 0 ≤ (usage.visible t tenantId).elim 0 (·.count c) +
      if c = counter then n else 0) :
    Holds rows usage' t (fun c tid => counted c tid + n * slot counter tenantId c tid)
      drifted := by
  intro c tid
  refine ⟨?_, (h c tid).2⟩
  by_cases htid : tid = tenantId
  · subst htid
    have hgain := hwrote.gain_self fun usage => usage.count c
    -- A missing row counts as zeros, as `get_or_create_usage` makes it.
    have hcount : ((usage.visible t tid).getD {}).count c =
        (usage.visible t tid).elim 0 (·.count c) := by
      cases usage.visible t tid with
      | none => cases c <;> rfl
      | some row => rfl
    have hfits := hfits c
    rw [(h c tid).1, Option.elim_some, TenantUsage.count_adjust, hcount] at hgain
    rw [hgain]
    unfold slot
    by_cases hc : c = counter
    · simp only [hc, true_and, if_true] at hfits ⊢
      omega
    · simp only [hc, false_and, if_false] at hfits ⊢
      omega
  · have hslot : slot counter tenantId c tid = 0 := if_neg fun hc => htid hc.2.symm
    rw [hwrote.gain_rest htid, (h c tid).1]
    simp only [hslot, mul_zero, add_zero]

end Frames

/-! ### Steps -/

/-- What holds of a request at work. -/
theorem State.sound_iff_phase {s : State} {t : Nat} {phase : Phase}
    (hphase : s.txns t = some phase) : s.Sound t ↔ phase.Sound s.rows s.usage t := by
  unfold State.Sound
  rw [hphase]
  exact Iff.rfl

/-- What holds of an idle one. -/
theorem State.sound_iff_clean {s : State} {t : Nat} (hidle : s.txns t = none) :
    s.Sound t ↔ Clean s.rows s.usage t := by
  unfold State.Sound
  rw [hidle]
  exact Iff.rfl

/-- A request at work is sound. -/
theorem Inv.phase {s : State} {t : Nat} {phase : Phase} (h : Inv s)
    (hphase : s.txns t = some phase) : phase.Sound s.rows s.usage t :=
  (State.sound_iff_phase hphase).mp (h.sound t)

theorem Inv.clean {s : State} {t : Nat} (h : Inv s) (hidle : s.txns t = none) :
    Clean s.rows s.usage t :=
  (State.sound_iff_clean hidle).mp (h.sound t)

/-- In a step of transaction `t`, the others keep what they hold. -/
theorem Inv.of_step {s s' : State} {t : Nat} (h : Inv s)
    (hrows : ∀ u, u ≠ t → Table.SameFor u s.rows s'.rows)
    (hkeys : ∀ k ∈ s.rows.keys, k ∈ s'.rows.keys)
    (husage : ∀ u, u ≠ t → Table.SameFor u s.usage s'.usage)
    (htxns : ∀ u, u ≠ t → s'.txns u = s.txns u)
    (hexact : Exact s'.rows s'.usage) (hown : s'.Sound t)
    (hwithin : ∀ e ∈ s'.increments, ∀ limit ∈ e.1.limit (planLimits e.2.1), e.2.2 ≤ limit) :
    Inv s' := by
  refine ⟨hexact, fun u => ?_, hwithin⟩
  by_cases hu : u = t
  · exact hu ▸ hown
  · cases hphase : s.txns u with
    | none =>
      have hclean := h.clean hphase
      exact (State.sound_iff_clean ((htxns u hu).trans hphase)).mpr
        ⟨fun k => ((hrows u hu).dirty k).trans (hclean.1 k),
          fun tid => ((husage u hu).dirty tid).trans (hclean.2 tid)⟩
    | some phase =>
      exact (State.sound_iff_phase ((htxns u hu).trans hphase)).mpr
        ((h.phase hphase).frame (hrows u hu) hkeys (husage u hu))

/-- A statement on the counters. -/
theorem Inv.usageStep {s : State} {t : Nat} {usage : Table Uuid TenantUsage Nat} {phase : Phase}
    {increments : List (Counter × String × Int)} (h : Inv s)
    (hother : ∀ u, u ≠ t → Table.SameFor u s.usage usage) (hrows : usage.rows = s.usage.rows)
    (hown : phase.Sound s.rows usage t)
    (hwithin : ∀ e ∈ increments, ∀ limit ∈ e.1.limit (planLimits e.2.1), e.2.2 ≤ limit) :
    Inv ⟨s.rows, usage, update s.txns t (some phase), increments⟩ := by
  refine h.of_step (fun u _ => .refl u _) (fun _ hk => hk) hother (fun u hu => ?_)
    (fun c tid => ?_) ?_ hwithin
  · exact update_of_ne hu ..
  · rw [hrows]
    exact h.exact c tid
  · exact (State.sound_iff_phase (update_self ..)).mpr hown

/-- A statement on the rows. -/
theorem Inv.rowsStep {s : State} {t : Nat} {rows : Table Uuid Counted Nat} {phase : Phase}
    (h : Inv s) (hother : ∀ u, u ≠ t → Table.SameFor u s.rows rows)
    (hkeys : ∀ k ∈ s.rows.keys, k ∈ rows.keys) (hrows : rows.rows = s.rows.rows)
    (hown : phase.Sound rows s.usage t) :
    Inv ⟨rows, s.usage, update s.txns t (some phase), s.increments⟩ := by
  refine h.of_step hother hkeys (fun u _ => .refl u _) (fun u hu => ?_) (fun c tid => ?_) ?_
    h.within
  · exact update_of_ne hu ..
  · rw [hrows, total_of_subset hkeys s.rows.rows_keys]
    exact h.exact c tid
  · exact (State.sound_iff_phase (update_self ..)).mpr hown

/-- A statement that leaves both tables as they are. -/
theorem Inv.goes {s : State} {t : Nat} {phase : Phase} (h : Inv s)
    (hown : phase.Sound s.rows s.usage t) : Inv (s.goes t phase) :=
  h.usageStep (fun u _ => .refl u _) rfl hown h.within

/-! ### Reservations -/

section Reservations

variable {s : State} {t : Nat} {r : Reservation}

/-- The usage row is made if there is none. -/
theorem Inv.reserving {usage : Table Uuid TenantUsage Nat} {inserted : Bool} (h : Inv s)
    (hphase : s.txns t = some (.reserving r))
    (hstep : s.usage.insertIgnore t r.tenant.id {} = some (usage, inserted)) :
    Inv ({ s with usage }.goes t (.locking r)) := by
  obtain ⟨hholds, hfresh⟩ := h.phase hphase
  rcases Table.insertIgnore_cases hstep with ⟨-, rfl, -⟩ | ⟨-, hnone, hwrote⟩
  · exact h.goes ⟨hholds, hfresh⟩
  · -- A new row of zeros counts as much as no row.
    have hzeros : Table.Wrote t r.tenant.id
        (some (((s.usage.visible t r.tenant.id).getD {}).adjust (Counter.listings.delta 0)))
        s.usage usage := by
      rw [hnone]
      exact hwrote
    have hfits : ∀ c, 0 ≤ (s.usage.visible t r.tenant.id).elim 0 (·.count c) +
        if c = Counter.listings then (0 : Int) else 0 := by
      intro c
      rw [hnone]
      split <;> exact le_refl _
    have hheld := hholds.adjust hzeros hfits
    simp only [zero_mul, add_zero] at hheld
    exact h.usageStep hwrote.other hwrote.rows ⟨hheld, hfresh⟩ h.within

theorem Inv.locking {usage : Table Uuid TenantUsage Nat} {row : TenantUsage} (h : Inv s)
    (hphase : s.txns t = some (.locking r))
    (hstep : s.usage.acquire t r.tenant.id = some usage)
    (hrow : usage.visible t r.tenant.id = some row) :
    Inv ({ s with usage }.goes t (.checking r row)) := by
  obtain ⟨hholds, hfresh⟩ := h.phase hphase
  obtain ⟨hfree, rfl⟩ := Table.acquire_eq_some.mp hstep
  exact h.usageStep (fun u hu => Table.acquired_sameFor hu hfree) rfl
    ⟨hholds, hfresh, update_self .., hrow⟩ h.within

/-- What a transaction that has moved no row sees of the counters is never negative. -/
theorem Inv.count_nonneg (h : Inv s) {counted : Counter → Uuid → Int}
    (hholds : Holds s.rows s.usage t counted fun _ _ => 0) (c : Counter) (tid : Uuid) :
    0 ≤ (s.usage.visible t tid).elim 0 (·.count c) - counted c tid := by
  have hcount := hholds.count_visible h.exact c tid
  have htotal : 0 ≤ total s.rows.keys (s.rows.visible t) (Counted.weight c tid) :=
    total_nonneg fun _ row _ => weight_nonneg c tid row
  omega

/-- There is room, and the counter goes up. -/
theorem Inv.checking {usage : Table Uuid TenantUsage Nat} {row reserved : TenantUsage}
    (h : Inv s) (hphase : s.txns t = some (.checking r row))
    (hroom : row.reserve r.counter r.tenant.plan = .ok reserved)
    (hstep : (s.usage.upsert t r.tenant.id fun row =>
      (row.getD {}).adjust (r.counter.delta 1)) = some usage) :
    Inv ({ s with
      usage
      increments := (r.counter, r.tenant.plan,
        ((usage.visible t r.tenant.id).getD {}).count r.counter) :: s.increments
      }.goes t (.inserting r)) := by
  obtain ⟨hholds, hfresh, -, hrow⟩ := h.phase hphase
  have hwrote := Table.wrote_of_upsert hstep
  -- What is counted cannot be negative, so that the clamp does not apply.
  have hfits : ∀ c, 0 ≤ (s.usage.visible t r.tenant.id).elim 0 (·.count c) +
      if c = r.counter then (1 : Int) else 0 := by
    intro c
    have hnonneg := h.count_nonneg hholds c r.tenant.id
    split <;> omega
  have hheld := hholds.adjust hwrote hfits
  simp only [one_mul, zero_add] at hheld
  refine h.usageStep hwrote.other hwrote.rows ⟨hheld, hfresh⟩ ?_
  intro e he limit hlimit
  rcases List.mem_cons.mp he with rfl | he
  · -- The row is locked: the increment meets the row that was checked.
    obtain ⟨rfl, hle⟩ := TenantUsage.reserve_ok hroom
    rw [hwrote.visible_self, hrow]
    exact hle limit hlimit
  · exact h.within e he limit hlimit

theorem Inv.inserting {rows : Table Uuid Counted Nat} (h : Inv s)
    (hphase : s.txns t = some (.inserting r))
    (hstep : s.rows.insert t r.key r.row = some rows) :
    Inv ({ s with rows }.goes t .done) := by
  obtain ⟨hholds, hfresh⟩ := h.phase hphase
  have hwrote := Table.wrote_of_insert hstep
  obtain ⟨hnew, -⟩ := Table.insert_eq_some.mp hstep
  refine h.rowsStep hwrote.other hwrote.subset_keys hwrote.rows
    ⟨slot r.counter r.tenant.id, fun c tid => ⟨(hholds c tid).1, ?_⟩⟩
  rw [hwrote.drift, (hholds c tid).2, Table.visible_of_not_mem hnew]
  have hslot := hfresh c tid
  simp only [Option.elim_some, Option.elim_none]
  omega

end Reservations

/-! ### Releases -/

section Releases

variable {s : State} {t : Nat} {d : Deletion}

/-- A listing that is found is not deleted. -/
theorem listingOr404_ok {tenantId : Uuid} {row : Option Counted} {listing : Listing}
    (h : listingOr404 tenantId row = .ok listing) :
    row = some (.listing tenantId listing) ∧ listing.deletedAt = none := by
  unfold listingOr404 at h
  split at h
  · split at h
    · next hfound =>
      cases h
      exact ⟨by rw [hfound.1], Option.isNone_iff_eq_none.mp hfound.2⟩
    · cases h
  · cases h

/-- The row a request removes took up one slot, and no longer does. -/
theorem Deletion.remove_ok {row left : Option Counted} (h : d.remove row = .ok left)
    (c : Counter) (tid : Uuid) :
    row.elim 0 (Counted.weight c tid) =
      slot d.counter d.tenantId c tid + left.elim 0 (Counted.weight c tid) := by
  unfold Deletion.remove at h
  -- A listing stays as a tombstone, a profile is gone.
  cases hcounter : d.counter with
  | listings =>
    rw [hcounter] at h
    obtain ⟨listing, hlisting, h⟩ := bind_eq_ok h
    obtain ⟨deleted, hdeleted, h⟩ := bind_eq_ok h
    cases h
    obtain ⟨rfl, hlive⟩ := listingOr404_ok hlisting
    unfold Listing.softDelete at hdeleted
    simp only [hlive, Option.isSome_none, Bool.false_eq_true, if_false] at hdeleted
    split at hdeleted
    · cases hdeleted
    · cases hdeleted
      rw [Option.elim_some, Option.elim_some, weight_listing, weight_listing, if_pos hlive,
        if_neg (Option.some_ne_none _)]
      omega
  | agents =>
    rw [hcounter] at h
    dsimp only at h
    split at h
    · split at h
      · next howner =>
        cases h
        rw [Option.elim_some, Option.elim_none, weight_agentProfile, howner]
        omega
      · cases h
    · cases h

/-- A row is locked to be deleted. -/
theorem Inv.deleting {rows : Table Uuid Counted Nat} {left : Option Counted} (h : Inv s)
    (hphase : s.txns t = some (.deleting d)) (hstep : s.rows.acquire t d.key = some rows)
    (hremove : d.remove (rows.visible t d.key) = .ok left) :
    Inv ({ s with rows }.goes t (.removing d left)) := by
  have hholds := h.phase hphase
  obtain ⟨hfree, rfl⟩ := Table.acquire_eq_some.mp hstep
  exact h.rowsStep (fun u hu => Table.acquired_sameFor hu hfree) (fun _ hk => hk) rfl
    ⟨hholds, update_self .., fun c tid => Deletion.remove_ok hremove c tid⟩

theorem Inv.removing {rows : Table Uuid Counted Nat} {left : Option Counted} (h : Inv s)
    (hphase : s.txns t = some (.removing d left))
    (hstep : s.rows.write t d.key left = some rows) :
    Inv ({ s with rows }.goes t (.releasing d)) := by
  obtain ⟨hholds, -, hweight⟩ := h.phase hphase
  have hwrote := Table.wrote_of_write hstep
  refine h.rowsStep hwrote.other hwrote.subset_keys hwrote.rows
    fun c tid => ⟨(hholds c tid).1, ?_⟩
  have hstill : s.rows.drift t (Counted.weight c tid) = 0 := (hholds c tid).2
  rw [hwrote.drift, hstill, hweight c tid]
  show _ = -slot d.counter d.tenantId c tid
  omega

theorem Inv.releasing {usage : Table Uuid TenantUsage Nat} (h : Inv s)
    (hphase : s.txns t = some (.releasing d))
    (hstep : (s.usage.upsert t d.tenantId fun row =>
      (row.getD {}).adjust (d.counter.delta (-1))) = some usage) :
    Inv ({ s with usage }.goes t .done) := by
  have hholds := h.phase hphase
  have hwrote := Table.wrote_of_upsert hstep
  have hfits : ∀ c, 0 ≤ (s.usage.visible t d.tenantId).elim 0 (·.count c) +
      if c = d.counter then (-1 : Int) else 0 := by
    -- The removed row is still counted.
    intro c
    have hcount := hholds.count_visible h.exact c d.tenantId
    have htotal : 0 ≤ total s.rows.keys (s.rows.visible t) (Counted.weight c d.tenantId) :=
      total_nonneg fun _ row _ => weight_nonneg c d.tenantId row
    unfold slot at hcount
    by_cases hc : c = d.counter
    · simp only [hc, and_self, if_true] at hcount htotal ⊢
      omega
    · simp only [hc, false_and, if_false] at hcount ⊢
      omega
  refine h.usageStep hwrote.other hwrote.rows
    ⟨fun c tid => -slot d.counter d.tenantId c tid, ?_⟩ h.within
  have hheld := hholds.adjust hwrote hfits
  simp only [zero_add, neg_mul, one_mul] at hheld
  exact hheld

end Releases

/-! ### The system -/

/-- What is created counts for its own counter. -/
theorem Creation.build_ok {rows : Table Uuid Counted Nat} {t : Nat} {tenantId : Uuid}
    {creation : Creation} {row : Counted} (h : creation.build rows t tenantId = .ok row)
    (c : Counter) (tid : Uuid) : row.weight c tid = slot creation.counter tenantId c tid := by
  cases creation with
  | listing new =>
    cases h
    exact weight_listing ..
  | duplicate sourceId referenceCode =>
    obtain ⟨source, -, rfl⟩ := map_eq_ok h
    exact weight_listing ..
  | profile userId =>
    dsimp only [Creation.build] at h
    split at h
    · cases h
      exact weight_agentProfile ..
    · cases h

/-- A move between statuses leaves the row's slot as it is. -/
theorem Counted.transition_weight {now : DateTime} {toStatus : ListingStatus}
    {canPublish : Bool} {row moved : Counted}
    (h : row.transition now toStatus canPublish = some moved) (c : Counter) (tid : Uuid) :
    moved.weight c tid = row.weight c tid := by
  cases row with
  | agentProfile owner userId => cases h
  | listing owner row =>
    obtain ⟨result, hresult, rfl⟩ := Option.map_eq_some_iff.mp h
    have hresult := toOption_eq_some hresult
    unfold Listing.transition at hresult
    split at hresult
    · cases hresult
    · split at hresult
      · cases hresult
      · split at hresult
        · cases hresult
        · cases hresult
          rw [weight_listing, weight_listing]

theorem Inv.start : Inv State.start where
  exact _ _ := (total_eq_zero fun _ => rfl).symm
  sound _ := ⟨fun _ => rfl, fun _ => rfl⟩
  within _ he := nomatch he

theorem Inv.advance {s s' : State} {t : Nat} {phase : Phase} (h : Inv s)
    (hphase : s.txns t = some phase) (hst : s.advance t phase = some s') : Inv s' := by
  cases phase with
  | reserving r =>
    obtain ⟨⟨usage, inserted⟩, hstep, rfl⟩ := Option.map_eq_some_iff.mp hst
    exact h.reserving hphase hstep
  | locking r =>
    obtain ⟨usage, hstep, hst⟩ := Option.bind_eq_some_iff.mp hst
    obtain ⟨row, hrow, rfl⟩ := Option.map_eq_some_iff.mp hst
    exact h.locking hphase hstep hrow
  | checking r row =>
    obtain ⟨reserved, hroom, hst⟩ := Option.bind_eq_some_iff.mp hst
    obtain ⟨usage, hstep, rfl⟩ := Option.map_eq_some_iff.mp hst
    exact h.checking hphase (toOption_eq_some hroom) hstep
  | inserting r =>
    obtain ⟨rows, hstep, rfl⟩ := Option.map_eq_some_iff.mp hst
    exact h.inserting hphase hstep
  | deleting d =>
    obtain ⟨rows, hstep, hst⟩ := Option.bind_eq_some_iff.mp hst
    obtain ⟨left, hremove, rfl⟩ := Option.map_eq_some_iff.mp hst
    exact h.deleting hphase hstep (toOption_eq_some hremove)
  | removing d left =>
    obtain ⟨rows, hstep, rfl⟩ := Option.map_eq_some_iff.mp hst
    exact h.removing hphase hstep
  | releasing d =>
    obtain ⟨usage, hstep, rfl⟩ := Option.map_eq_some_iff.mp hst
    exact h.releasing hphase hstep
  | done => cases hst

/-- What `t` moved in the counters it moved in the rows, so both can be published. -/
theorem Inv.commit {s : State} {t : Nat} (h : Inv s) (hphase : s.txns t = some .done) :
    Inv { s with
      rows := s.rows.commit t
      usage := s.usage.commit t
      txns := update s.txns t none } := by
  obtain ⟨moved, hholds⟩ := h.phase hphase
  refine h.of_step (fun u hu => Table.commit_sameFor hu) (fun _ hk => hk)
    (fun u hu => Table.commit_sameFor hu) (fun u hu => update_of_ne hu ..) (fun c tid => ?_) ?_
    h.within
  · have hcount := hholds.count_visible h.exact c tid
    show (s.usage.visible t tid).elim 0 (·.count c) =
      total s.rows.keys (s.rows.visible t) (Counted.weight c tid)
    omega
  · exact (State.sound_iff_clean (update_self ..)).mpr ⟨fun _ => if_pos rfl, fun _ => if_pos rfl⟩

/-- A request that fails leaves rows and counters. -/
theorem Inv.rollback {s : State} (h : Inv s) (t : Nat) :
    Inv { s with
      rows := s.rows.rollback t
      usage := s.usage.rollback t
      txns := update s.txns t none } :=
  h.of_step (fun _ hu => Table.rollback_sameFor hu) (fun _ hk => hk)
    (fun _ hu => Table.rollback_sameFor hu) (fun _ hu => update_of_ne hu ..) h.exact
    ((State.sound_iff_clean (update_self ..)).mpr ⟨fun _ => if_pos rfl, fun _ => if_pos rfl⟩)
    h.within

/-- A listing changes its status, which counts for nothing. -/
theorem Inv.transition {s : State} {t : Nat} {key : Uuid} {now : DateTime}
    {toStatus : ListingStatus} {canPublish : Bool} {row moved : Counted}
    {rows : Table Uuid Counted Nat} (h : Inv s) (hidle : s.txns t = none)
    (hrow : s.rows.visible t key = some row)
    (hmoved : row.transition now toStatus canPublish = some moved)
    (hstep : s.rows.write t key (some moved) = some rows) :
    Inv { s with rows := rows.commit t } := by
  have hclean := h.clean hidle
  have hwrote := Table.wrote_of_write hstep
  refine h.of_step
    (fun u hu => (hwrote.other u hu).trans (Table.commit_sameFor hu))
    hwrote.subset_keys (fun u _ => .refl u _) (fun _ _ => rfl) (fun c tid => ?_) ?_ h.within
  · have hdrift := hwrote.drift (Counted.weight c tid)
    rw [Table.drift_of_clean hclean.1, hrow, Option.elim_some, Option.elim_some,
      Counted.transition_weight hmoved] at hdrift
    have htotal := Table.total_visible rows t (Counted.weight c tid)
    rw [hwrote.rows, total_of_subset (f := s.rows.rows) hwrote.subset_keys s.rows.rows_keys]
      at htotal
    show (s.usage.rows tid).elim 0 (·.count c) =
      total rows.keys (rows.visible t) (Counted.weight c tid)
    rw [htotal, h.exact c tid]
    omega
  · exact (State.sound_iff_clean (s := { s with rows := rows.commit t }) hidle).mpr
      ⟨fun _ => if_pos rfl, hclean.2⟩

/-- The invariant of all runs. -/
theorem quotas_inductive : quotas.Inductive (fun _ _ => True) Inv where
  init s hs := hs ▸ Inv.start
  step s l s' h _ hst := by
    cases l with
    | create t tenant key creation =>
      obtain ⟨hidle, hst⟩ := Option.ite_none_right_eq_some.mp hst
      obtain ⟨row, hrow, rfl⟩ := Option.map_eq_some_iff.mp hst
      have hclean := h.clean (Option.isNone_iff_eq_none.mp hidle)
      exact h.goes ⟨hclean.holds, Creation.build_ok (toOption_eq_some hrow)⟩
    | delete t d =>
      obtain ⟨hidle, hst⟩ := Option.ite_none_right_eq_some.mp hst
      cases hst
      exact h.goes (h.clean (Option.isNone_iff_eq_none.mp hidle)).holds
    | advance t =>
      obtain ⟨phase, hphase, hst⟩ := Option.bind_eq_some_iff.mp hst
      exact h.advance hphase hst
    | commit t =>
      dsimp only [quotas, State.step] at hst
      split at hst
      · next hphase =>
        cases hst
        exact h.commit hphase
      · cases hst
    | rollback t =>
      cases hst
      exact h.rollback t
    | transition t key now toStatus canPublish =>
      obtain ⟨hidle, hst⟩ := Option.ite_none_right_eq_some.mp hst
      obtain ⟨moved, hmoved, hst⟩ := Option.bind_eq_some_iff.mp hst
      obtain ⟨row, hrow, hmoved⟩ := Option.bind_eq_some_iff.mp hmoved
      obtain ⟨rows, hstep, rfl⟩ := Option.map_eq_some_iff.mp hst
      exact h.transition (Option.isNone_iff_eq_none.mp hidle) hrow hmoved hstep

/-- A tenant's counter, zero while it has no row. -/
def State.recorded (s : State) (counter : Counter) (tenantId : Uuid) : Int :=
  (s.usage.rows tenantId).elim 0 (·.count counter)

/-- The committed rows that take up a slot of the quota. -/
def State.taken (s : State) (counter : Counter) (tenantId : Uuid) : Nat :=
  s.rows.keys.countP fun key => (s.rows.rows key).any (Counted.counts counter tenantId)

/-- **Quota counters are exact.** Whatever requests interleave and wherever they fail, the
counters are the numbers of the rows they count, and none was ever raised above the limit of
the plan in the request's tenant context. -/
theorem quotas_exact {s : State} (h : quotas.Reachable s) :
    (∀ counter tenantId, s.recorded counter tenantId = s.taken counter tenantId) ∧
      ∀ counter plan count, (counter, plan, count) ∈ s.increments →
        ∀ limit ∈ counter.limit (planLimits plan), count ≤ limit := by
  have hinv := quotas_inductive.always h
  refine ⟨fun counter tenantId => ?_, fun counter plan count he => hinv.within _ he⟩
  exact (hinv.exact counter tenantId).trans (total_eq_countP s.rows.keys_nodup _)

/-- Two listings are created at once, two requests delete the first, and a third creation is
rolled back between its reservation and its insert: one listing is left, and counted. -/
theorem quotas_exact_race : ∃ s, quotas.Reachable s ∧ s.taken .listings 1 = 1 ∧
    s.recorded .listings 1 = 1 ∧ (.listings, "trial", 2) ∈ s.increments ∧
    ∀ limit ∈ Counter.listings.limit (planLimits "trial"), (2 : Int) ≤ limit := by
  let tenant : TenantContext := ⟨1, "atlas", "Atlas", "active", [], "trial"⟩
  let deletion : Deletion := ⟨1, .listings, 10, 60⟩
  obtain ⟨s, hs, hp⟩ := Machine.exists_reachable_of_run (M := quotas) (s := .start)
    [.create 0 tenant 10 (.listing ⟨"ATL-2026-00001", .null, none⟩),
      .advance 0, .advance 0, .advance 0,
      .create 1 tenant 11 (.listing ⟨"ATL-2026-00002", .null, none⟩),
      .advance 0, .commit 0, .advance 1, .advance 1, .advance 1, .advance 1, .commit 1,
      .delete 0 deletion, .delete 1 deletion, .advance 0, .advance 0, .advance 0, .commit 0,
      .rollback 1,
      .create 0 tenant 12 (.duplicate 11 "ATL-2026-00003"), .advance 0, .advance 0, .advance 0,
      .rollback 0]
    (fun s => s.taken .listings 1 = 1 ∧ (.listings, "trial", 2) ∈ s.increments) rfl (by decide)
  obtain ⟨htaken, hmem⟩ := of_decide_eq_true hp
  obtain ⟨hexact, hwithin⟩ := quotas_exact hs
  refine ⟨s, hs, htaken, ?_, hmem, hwithin _ _ _ hmem⟩
  rw [hexact, htaken]
  rfl

end Quotas

end Tenants

end RealEstate
