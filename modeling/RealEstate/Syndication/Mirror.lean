import RealEstate.Syndication.Service
import RealEstate.Systems.Machine

/-!
# The portal mirrors the state row

Transitions, edits and deletions of one listing, manual re-pushes, and the sync
tasks they queue, executed in the order they were queued.

- `Mirror`: at most one live advert, every call names a live one, and the row's
  status says what is live.
- `Syncs`: a task that finds an advert's id on the row pushes only once that
  advert was withdrawn, updates or removes only while it was not, and pushes or
  updates only while the listing is still published. `mirror_of_syncs` proves
  `Mirror` of every run of such tasks, and `syncs_of_mirror` that one task that
  breaks `Syncs` breaks `Mirror`.
- `second_advert`: a manual re-push of a listing that is on the portal.
-/

namespace RealEstate

namespace Syndication

open RealEstate.Core Listings Systems

/-! ### The machine -/

/-- One listing, its sync state at one portal, and the portal. -/
structure State where
  now : DateTime
  listing : Listing
  row : Option PortalSyncState
  queue : List PortalAction
  portal : Portal

/-- A request on the listing, a step of the task, or time that passes. -/
inductive Label where
  | wait (seconds : Nat)
  | transition (toStatus : ListingStatus) (canPublish : Bool)
  | edit (content : Json) (remains : Bool)
  | softDelete
  | repush
  /-- The oldest queued task runs; an advert it creates gets the id `fresh`. -/
  | execute (fresh : RemoteId)

/-- A request that changed the listing: the task is queued after the commit. -/
def State.settle (s : State) : Except AppError (Listing × Option PortalAction) → State
  | .error _ => s
  | .ok (listing, action) => { s with listing, queue := s.queue ++ action.toList }

/-- `request_repush`. -/
def State.repush (s : State) : State :=
  match requestRepush s.listing s.row with
  | .error _ => s
  | .ok (row, action) => { s with row, queue := s.queue ++ [action] }

/-- The next task of the queue. -/
def State.execute (s : State) (fresh : RemoteId) : Option State :=
  match s.queue with
  | [] => none
  | action :: queue =>
    if fresh ∈ s.portal.issued then none
    else
      let (portal, row) := syncToPortal s.portal s.listing s.row s.now action fresh
      some { s with queue, portal, row := some row }

/-- One listing and one portal, from the listing's creation. -/
def syndication : Machine State Label where
  init s := ∃ content, s = ⟨0, { content }, none, [], ⟨[], [], []⟩⟩
  step s
    | .wait seconds => some { s with now := s.now + seconds }
    | .transition toStatus canPublish =>
      some (s.settle (s.listing.transition s.now toStatus canPublish))
    | .edit content remains => some (s.settle (s.listing.update content remains))
    | .softDelete => some (s.settle (s.listing.softDelete s.now))
    | .repush => some s.repush
    | .execute fresh => s.execute fresh

/-- The ids of the live adverts. -/
def Portal.liveIds (portal : Portal) : List RemoteId := portal.live.map Prod.fst

/-- At most one advert is live, every call named a live advert, and the row says what is
live. -/
structure Mirror (s : State) : Prop where
  one : s.portal.live.length ≤ 1
  calls : ∀ call ∈ s.portal.calls, call.live = true
  synced : ∀ row, s.row = some row → row.lastStatus = .synced →
    ∃ remoteId, row.remoteId = some remoteId ∧ s.portal.liveIds = [remoteId]
  removed : ∀ row, s.row = some row → row.lastStatus = .removed → s.portal.liveIds = []

/-- What a task may do to a row that carries an advert's id. -/
def TaskSyncs (listing : Listing) (state : PortalSyncState) (action : PortalAction) : Prop :=
  state.circuitOpen = false → state.remoteId.isSome → match action with
    | .push => listing.portalPayload.isSome ∧ state.lastStatus = .removed
    | .update => listing.portalPayload.isSome ∧ state.lastStatus ≠ .removed
    | .remove => state.lastStatus ≠ .removed

/-- By cases of the action. -/
instance (listing : Listing) (state : PortalSyncState) (action : PortalAction) :
    Decidable (TaskSyncs listing state action) := by
  unfold TaskSyncs
  cases action <;> infer_instance

/-- The step is not a task, or one that keeps to `TaskSyncs`. -/
def Syncs (s : State) : Label → Prop
  | .execute _ =>
    match s.queue with
    | [] => True
    | action :: _ => TaskSyncs s.listing (s.row.getD {}) action
  | _ => True

/-- By cases of the label. -/
instance (s : State) (l : Label) : Decidable (Syncs s l) := by
  unfold Syncs
  split
  · split <;> infer_instance
  · infer_instance

/-! ### The invariant -/

/-- The state row is the portal's: its id, if any, is the only one that can be live, and its
status says whether it is. -/
inductive Reflects : PortalSyncState → List RemoteId → Prop where
  | unpushed {row : PortalSyncState} (h : row.remoteId = none) (hs : row.lastStatus ≠ .synced) :
    Reflects row []
  | live {row : PortalSyncState} {remoteId : RemoteId} (h : row.remoteId = some remoteId)
    (hs : row.lastStatus = .synced) (hc : row.circuitOpen = false) : Reflects row [remoteId]
  | withdrawn {row : PortalSyncState} {remoteId : RemoteId} (h : row.remoteId = some remoteId)
    (hs : row.lastStatus = .removed) (hc : row.circuitOpen = false) : Reflects row []

/-- The row knows what is live at the portal. -/
structure Inv (s : State) : Prop where
  row : Reflects (s.row.getD {}) s.portal.liveIds
  calls : ∀ call ∈ s.portal.calls, call.live = true

theorem Inv.mirror {s : State} (hI : Inv s) : Mirror s := by
  have hrow := hI.row
  have hlength : s.portal.live.length = s.portal.liveIds.length := (List.length_map ..).symm
  refine ⟨?_, hI.calls, fun row hr hs => ?_, fun row hr hs => ?_⟩
  · rw [hlength]
    generalize s.portal.liveIds = ids at hrow ⊢
    cases hrow <;> simp
  · rw [hr, Option.getD_some] at hrow
    generalize s.portal.liveIds = ids at hrow ⊢
    cases hrow with
    | unpushed _ h => exact absurd hs h
    | live h _ => exact ⟨_, h, rfl⟩
    | withdrawn _ h => rw [hs] at h; cases h
  · rw [hr, Option.getD_some] at hrow
    generalize s.portal.liveIds = ids at hrow ⊢
    cases hrow with
    | unpushed | withdrawn => rfl
    | live _ h => rw [hs] at h; cases h

/-! ### What the portal's calls do -/

section Calls

variable (portal : Portal)

@[simp] theorem liveIds_called (action : PortalAction) (remoteId : RemoteId) :
    (portal.called action remoteId).liveIds = portal.liveIds := rfl

@[simp] theorem liveIds_push (payload : Json) (fresh : RemoteId) :
    (portal.push payload fresh).liveIds = fresh :: portal.liveIds := rfl

@[simp] theorem liveIds_update (payload : Json) (remoteId : RemoteId) :
    (portal.update payload remoteId).liveIds = portal.liveIds := by
  unfold Portal.update Portal.liveIds
  rw [List.map_map]
  refine List.map_congr_left fun ad _ => ?_
  show (if ad.1 = remoteId then (ad.1, payload) else ad).1 = ad.1
  split <;> rfl

@[simp] theorem liveIds_remove (remoteId : RemoteId) :
    (portal.remove remoteId).liveIds = portal.liveIds.filter (· ≠ remoteId) := by
  unfold Portal.remove Portal.liveIds
  rw [List.filter_map]
  rfl

@[simp] theorem calls_push (payload : Json) (fresh : RemoteId) :
    (portal.push payload fresh).calls = portal.calls := rfl

theorem calls_update (payload : Json) (remoteId : RemoteId) :
    (portal.update payload remoteId).calls =
      ⟨.update, remoteId, decide (remoteId ∈ portal.liveIds)⟩ :: portal.calls := rfl

theorem calls_remove (remoteId : RemoteId) : (portal.remove remoteId).calls =
    ⟨.remove, remoteId, decide (remoteId ∈ portal.liveIds)⟩ :: portal.calls := rfl

end Calls

/-! ### One task -/

section Tasks

variable {portal : Portal} {listing : Listing} {row : Option PortalSyncState}
  {action : PortalAction} (now : DateTime) (fresh : RemoteId)

/-- A failed attempt on a row that was never pushed. -/
theorem reflects_recordFailure {state : PortalSyncState} (h : state.remoteId = none)
    (error : PortalError) : Reflects (recordFailure state error) [] := by
  refine .unpushed h ?_
  unfold recordFailure
  dsimp only
  split <;> simp

/-- What a task that keeps to `TaskSyncs` leaves behind. -/
theorem syncToPortal_reflects (hrow : Reflects (row.getD {}) portal.liveIds)
    (hcalls : ∀ call ∈ portal.calls, call.live = true)
    (hguard : TaskSyncs listing (row.getD {}) action) :
    Reflects (syncToPortal portal listing row now action fresh).2
        (syncToPortal portal listing row now action fresh).1.liveIds ∧
      ∀ call ∈ (syncToPortal portal listing row now action fresh).1.calls, call.live = true := by
  unfold syncToPortal
  generalize row.getD {} = state at hrow hguard ⊢
  dsimp only
  split
  · exact ⟨hrow, hcalls⟩
  · next hopen =>
    rw [Bool.not_eq_true] at hopen
    generalize hids : portal.liveIds = ids at hrow
    cases hrow with
    | unpushed h hs =>
      -- nothing to withdraw, or a first push
      cases action with
      | remove =>
        simp only [effectiveAction, h]
        exact ⟨hids ▸ .unpushed rfl (by simp), hcalls⟩
      | push | update =>
        simp only [effectiveAction, h, invoke]
        cases hpayload : listing.portalPayload with
        | none => exact ⟨hids ▸ reflects_recordFailure h _, hcalls⟩
        | some payload =>
          dsimp only
          rw [liveIds_push, hids, calls_push]
          exact ⟨.live rfl rfl rfl, hcalls⟩
    | @live remoteId h hs =>
      have hguard := hguard hopen (by rw [h]; rfl)
      have hlive : decide (remoteId ∈ portal.liveIds) = true := by
        rw [hids]
        simp
      cases action with
      | push => exact absurd hguard.2 (by simp [hs])
      | update =>
        obtain ⟨payload, hpayload⟩ := Option.isSome_iff_exists.mp hguard.1
        simp only [effectiveAction, h, invoke, hpayload]
        rw [liveIds_update, hids, calls_update, hlive]
        refine ⟨.live rfl rfl rfl, fun call hcall => ?_⟩
        rcases List.mem_cons.mp hcall with rfl | hcall
        · rfl
        · exact hcalls call hcall
      | remove =>
        simp only [effectiveAction, h, invoke]
        rw [liveIds_remove, hids, calls_remove, hlive]
        constructor
        · rw [show [remoteId].filter (· ≠ remoteId) = [] by simp]
          exact .withdrawn h rfl rfl
        · intro call hcall
          rcases List.mem_cons.mp hcall with rfl | hcall
          · rfl
          · exact hcalls call hcall
    | @withdrawn remoteId h hs =>
      have hguard := hguard hopen (by rw [h]; rfl)
      cases action with
      | update => exact absurd hs hguard.2
      | remove => exact absurd hs hguard
      | push =>
        obtain ⟨payload, hpayload⟩ := Option.isSome_iff_exists.mp hguard.1
        simp only [effectiveAction, h, invoke, hpayload]
        rw [liveIds_push, hids, calls_push]
        exact ⟨.live rfl rfl rfl, hcalls⟩

/-- A task that breaks `TaskSyncs` sends a call to a dead advert, leaves two live, or leaves
a status that does not tell. -/
theorem syncToPortal_of_not_taskSyncs (hrow : Reflects (row.getD {}) portal.liveIds)
    (hguard : ¬TaskSyncs listing (row.getD {}) action) :
    (∃ call ∈ (syncToPortal portal listing row now action fresh).1.calls, call.live = false) ∨
      (syncToPortal portal listing row now action fresh).1.liveIds.length = 2 ∨
      ((syncToPortal portal listing row now action fresh).2.lastStatus = .synced ∧
        (syncToPortal portal listing row now action fresh).1.liveIds = []) := by
  unfold syncToPortal
  generalize row.getD {} = state at hrow hguard ⊢
  simp only [TaskSyncs, Classical.not_imp] at hguard
  obtain ⟨hopen, hsome, hguard⟩ := hguard
  dsimp only
  rw [if_neg (by simp [hopen])]
  generalize hids : portal.liveIds = ids at hrow
  cases hrow with
  | unpushed h => simp [h] at hsome
  | @live remoteId h hs =>
    have hwithdraw : (portal.remove remoteId).liveIds = [] := by
      rw [liveIds_remove, hids]
      simp
    cases action with
    | remove => exact absurd (by simp [hs]) hguard
    | push =>
      simp only [effectiveAction, h, invoke]
      cases hpayload : listing.portalPayload with
      | none => exact .inr (.inr ⟨rfl, hwithdraw⟩)
      | some payload =>
        refine .inr (.inl ?_)
        dsimp only
        rw [liveIds_push, hids]
        rfl
    | update =>
      simp only [effectiveAction, h, invoke]
      cases hpayload : listing.portalPayload with
      | none => exact .inr (.inr ⟨rfl, hwithdraw⟩)
      | some payload => exact absurd ⟨by rw [hpayload]; rfl, by simp [hs]⟩ hguard
  | @withdrawn remoteId h hs =>
    -- the advert is gone already
    have hdead : decide (remoteId ∈ portal.liveIds) = false := by
      rw [hids]
      rfl
    have hremove : ∃ call ∈ (portal.remove remoteId).calls, call.live = false := by
      rw [calls_remove, hdead]
      exact ⟨_, List.mem_cons_self, rfl⟩
    cases action with
    | remove =>
      simp only [effectiveAction, h, invoke]
      exact .inl hremove
    | push =>
      simp only [effectiveAction, h, invoke]
      cases hpayload : listing.portalPayload with
      | none => exact .inl hremove
      | some payload => exact absurd ⟨by rw [hpayload]; rfl, hs⟩ hguard
    | update =>
      simp only [effectiveAction, h, invoke]
      cases hpayload : listing.portalPayload with
      | none => exact .inl hremove
      | some payload =>
        refine .inl ?_
        dsimp only
        rw [calls_update, hdead]
        exact ⟨_, List.mem_cons_self, rfl⟩

end Tasks

/-! ### Runs -/

section Runs

variable {s t : State} {l : Label}

/-- Resetting the circuit leaves what is known of the portal. -/
theorem reflects_resetCircuit {row : Option PortalSyncState} {ids : List RemoteId}
    (h : Reflects (row.getD {}) ids) : Reflects ((resetCircuit row).getD {}) ids := by
  cases row with
  | none => exact h
  | some state =>
    show Reflects (if state.circuitOpen then _ else state) ids
    split
    · next hopen =>
      cases h with
      | unpushed h hs => exact .unpushed h hs
      | live h hs hc => exact .live h hs rfl
      | withdrawn h hs hc => exact .withdrawn h hs rfl
    · exact h

/-- A step that runs no task leaves the portal alone. -/
theorem Inv.settle (hI : Inv s) (result : Except AppError (Listing × Option PortalAction)) :
    Inv (s.settle result) := by
  cases result with
  | error => exact hI
  | ok => exact ⟨hI.row, hI.calls⟩

theorem execute_eq_some {fresh : RemoteId} (h : s.execute fresh = some t) :
    ∃ action queue, s.queue = action :: queue ∧
      t = { s with
        queue
        portal := (syncToPortal s.portal s.listing s.row s.now action fresh).1
        row := some (syncToPortal s.portal s.listing s.row s.now action fresh).2 } := by
  unfold State.execute at h
  split at h
  · cases h
  · next action queue hqueue =>
    split at h
    · cases h
    · exact ⟨action, queue, hqueue, (Option.some.inj h).symm⟩

/-- One step keeps the invariant. -/
theorem Inv.step (hI : Inv s) (hguard : Syncs s l) (h : syndication.step s l = some t) :
    Inv t := by
  cases l with
  | wait seconds =>
    obtain rfl := Option.some.inj h
    exact ⟨hI.row, hI.calls⟩
  | transition | edit | softDelete =>
    obtain rfl := Option.some.inj h
    exact hI.settle _
  | repush =>
    obtain rfl := Option.some.inj h
    unfold State.repush requestRepush
    by_cases hpayload : s.listing.portalPayload.isNone = true
    · rw [if_pos hpayload]
      exact hI
    · rw [if_neg hpayload]
      exact ⟨reflects_resetCircuit hI.row, hI.calls⟩
  | execute fresh =>
    obtain ⟨action, queue, hqueue, rfl⟩ := execute_eq_some h
    simp only [Syncs, hqueue] at hguard
    obtain ⟨hrow, hcalls⟩ := syncToPortal_reflects s.now fresh hI.row hI.calls hguard
    exact ⟨hrow, hcalls⟩

/-- In every state that such a run reaches. -/
theorem inv_of_syncs (h : syndication.ReachVia Syncs s) : Inv s := by
  refine Machine.Inductive.always ⟨?_, ?_⟩ h
  · rintro _ ⟨content, rfl⟩
    exact ⟨.unpushed rfl (by simp), nofun⟩
  · exact fun _ _ _ hI hguard hst => hI.step hguard hst

/-- **The portal mirrors the state row** in every run of tasks that keep to `Syncs`. -/
theorem mirror_of_syncs (h : syndication.ReachVia Syncs s) : Mirror s :=
  (inv_of_syncs h).mirror

/-- The condition is exact: after such a run, a step that breaks it breaks `Mirror`. -/
theorem mirror_step_iff (h : syndication.ReachVia Syncs s) (hst : syndication.step s l = some t) :
    Mirror t ↔ Syncs s l := by
  constructor
  · intro hmirror
    cases l with
    | execute fresh =>
      obtain ⟨action, queue, hqueue, rfl⟩ := execute_eq_some hst
      simp only [Syncs, hqueue]
      by_contra hguard
      rcases syncToPortal_of_not_taskSyncs s.now fresh (inv_of_syncs h).row hguard with
        ⟨call, hcall, hdead⟩ | htwo | ⟨hsynced, hnone⟩
      · rw [hmirror.calls call hcall] at hdead
        cases hdead
      · have hone := hmirror.one
        rw [← List.length_map (f := Prod.fst)] at hone
        exact absurd (htwo ▸ hone) (by decide)
      · obtain ⟨remoteId, -, hlive⟩ := hmirror.synced _ rfl hsynced
        rw [hnone] at hlive
        cases hlive
    | _ => trivial
  · exact fun hguard => mirror_of_syncs (.step h hguard hst)

end Runs

/-- A listing is published, edited, moved and reserved: one advert, updated once and withdrawn. -/
theorem mirror_of_syncs_reserved : ∃ s, syndication.ReachVia Syncs s ∧
    s.portal.issued = [1] ∧ s.portal.liveIds = [] ∧ Mirror s := by
  obtain ⟨s, hs, hp⟩ := Machine.exists_reachVia_of_run (M := syndication) (G := Syncs)
    (s := ⟨0, { content := .null }, none, [], ⟨[], [], []⟩⟩)
    [.transition .published true, .execute 1, .edit (.str "new") true, .execute 2,
      .edit (.str "elsewhere") false, .transition .reserved true, .execute 2]
    (fun s => s.portal.issued = [1] ∧ s.portal.liveIds = []) ⟨.null, rfl⟩ (by decide)
  have hstate := of_decide_eq_true hp
  exact ⟨s, hs, hstate.1, hstate.2, mirror_of_syncs hs⟩

/-- **A second advert.** A manual re-push of a listing that is on the portal creates another
advert, and the first one is never withdrawn. -/
theorem second_advert : ∃ s, syndication.Reachable s ∧ ¬Mirror s := by
  obtain ⟨s, hs, hp⟩ := Machine.exists_reachable_of_run (M := syndication)
    (s := ⟨0, { content := .null }, none, [], ⟨[], [], []⟩⟩)
    [.transition .published true, .execute 1, .repush, .execute 2]
    (fun s => s.portal.live.length = 2) ⟨.null, rfl⟩ (by decide)
  refine ⟨s, hs, fun hmirror => ?_⟩
  have hone := hmirror.one
  rw [of_decide_eq_true hp] at hone
  exact absurd hone (by decide)

end Syndication

end RealEstate
