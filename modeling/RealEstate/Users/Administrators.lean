import RealEstate.Systems.RowService
import RealEstate.Users.Service

/-!
# The administrators of an agency

`admin_update`, `soft_delete` and `soft_delete_self` of `modules/users/service.py`
as transactions over the `users` table. None of them locks the row it reads, and
the flush writes the columns that changed.

- `Op.plan`: the checks, and the columns to write.
- `HasAdmin`: the agency has an active administrator.
- `Spares`: a commit that takes an active administrator away leaves another one.
  `hasAdmin_step_iff`: nothing else takes the last one away. `hasAdmin_kept`: runs
  of such steps. `actor_ne_of_removed`: what the check on the actor is good for.
- `agency_locked_out`: two administrators demote each other.
-/

namespace RealEstate

namespace Users

namespace Administrators

open RealEstate.Core Systems RowService

/-- `ADMIN_ASSIGNABLE_ROLES`. -/
def adminAssignableRoles : List Role :=
  [.buyerRenter, .seller, .agent, .teamLead, .admin, .marketing]

/-- A patch: an absent field is `none`. A null role, status or locale raises, and is left
out. -/
structure UserAdminUpdate where
  role : Option Role := none
  status : Option UserStatus := none
  firstName : Option (Option String) := none
  lastName : Option (Option String) := none
  locale : Option String := none
  phone : Option (Option String) := none

/-- A request on the account of another user, or on the actor's own. -/
inductive Op where
  | adminUpdate (tenantId actorId : Uuid) (data : UserAdminUpdate)
  | softDelete (tenantId actorId : Uuid) (now : DateTime)
  | softDeleteSelf (tenantId : Uuid) (now : DateTime)

/-- The columns of an `UPDATE`. -/
structure Patch where
  role : Option Role := none
  status : Option UserStatus := none
  firstName : Option (Option String) := none
  lastName : Option (Option String) := none
  locale : Option String := none
  phone : Option (Option String) := none
  deletedAt : Option DateTime := none

/-- The user after it. -/
def Patch.apply (patch : Patch) (user : User) : User :=
  { user with
    role := patch.role.getD user.role
    status := patch.status.getD user.status
    firstName := patch.firstName.getD user.firstName
    lastName := patch.lastName.getD user.lastName
    locale := patch.locale.getD user.locale
    phone := patch.phone.getD user.phone
    deletedAt := patch.deletedAt <|> user.deletedAt }

/-- The flush writes an attribute only if its value changed. -/
def changed {α : Type} [DecidableEq α] (value : Option α) (old : α) : Option α :=
  value.filter (· ≠ old)

/-- Only what differs is written. -/
def UserAdminUpdate.patch (data : UserAdminUpdate) (user : User) : Patch where
  role := changed data.role user.role
  status := changed data.status user.status
  firstName := changed data.firstName user.firstName
  lastName := changed data.lastName user.lastName
  locale := changed data.locale user.locale
  phone := changed data.phone user.phone

/-- `_get_or_404` finds the row. -/
def found (tenantId : Uuid) (user : User) : Bool :=
  user.tenantId = some tenantId ∧ user.deletedAt = none

/-- What the request writes after reading the row of `userId`; `none` if it raises. -/
def Op.plan (userId : Uuid) (op : Op) (user : User) : Option Patch :=
  match op with
  | .adminUpdate tenantId actorId data =>
    if data.role.any (· ∉ adminAssignableRoles) then none
    else if !found tenantId user then none
    else if userId = actorId ∧ (data.role.isSome ∨ data.status.isSome) then none
    else some (data.patch user)
  | .softDelete tenantId actorId now =>
    if userId = actorId then none
    else if !found tenantId user then none
    else some { deletedAt := some now }
  | .softDeleteSelf tenantId now =>
    if !found tenantId user then none else some { deletedAt := some now }

/-- `create_account` inserts the row of a new user; the checks on its e-mail only refuse. -/
def newUser (id : Uuid) (tenantId : Option Uuid) (data : NewAccount) : Option User :=
  if tenantId.isNone ≠ data.role.platform then none
  else some
    { id, tenantId, email := data.email, passwordHash := data.passwordHash, role := data.role
      firstName := data.firstName, lastName := data.lastName, locale := data.locale
      phone := data.phone }

/-- The user service's writes: no `FOR UPDATE`, and no sweep. -/
def service : RowService Uuid User Patch Empty (Option Uuid × NewAccount) Op Empty where
  create id new := (newUser id new.1 new.2).map (·, [])
  locks _ := false
  plan userId op user := (op.plan userId user).map (·, [])
  apply := Patch.apply
  due sweep := nomatch sweep
  mark sweep := nomatch sweep

/-- The users and the requests at work on them. -/
abbrev Db := State Uuid User Patch Empty Op Empty

/-- A step of a request. -/
abbrev Step := Label Uuid (Option Uuid × NewAccount) Op Empty

/-- The row is an active administrator of the agency. -/
def isAdmin (tenantId : Uuid) (row : Option User) : Bool :=
  row.any fun user =>
    user.tenantId = some tenantId ∧ user.role = .admin ∧ user.status = .active ∧
      user.deletedAt = none

/-- The agency has an active administrator. -/
def HasAdmin (tenantId : Uuid) (s : Db) : Prop :=
  ∃ k ∈ s.table.keys, isAdmin tenantId (s.table.rows k) = true

/-- The rows are finitely many. -/
instance (tenantId : Uuid) (s : Db) : Decidable (HasAdmin tenantId s) :=
  inferInstanceAs (Decidable (∃ k ∈ s.table.keys, _))

/-- A commit that takes an active administrator away leaves another one. -/
def Spares (tenantId : Uuid) (s : Db) : Step → Prop
  | .commit t => ∀ k ∈ s.table.keys, isAdmin tenantId (s.table.rows k) = true →
      isAdmin tenantId (s.table.visible t k) = false →
        ∃ j ∈ s.table.keys, j ≠ k ∧ isAdmin tenantId (s.table.rows j) = true
  | _ => True

/-- Whether a commit spares the last administrator is read off the rows. -/
instance (tenantId : Uuid) (s : Db) (l : Step) : Decidable (Spares tenantId s l) := by
  cases l with
  | commit t => exact inferInstanceAs (Decidable (∀ k ∈ s.table.keys, _))
  | _ => exact inferInstanceAs (Decidable True)

section Steps

variable {tenantId : Uuid} {s s' s₀ : Db}

theorem hasAdmin_iff :
    HasAdmin tenantId s ↔ ∃ k, isAdmin tenantId (s.table.rows k) = true := by
  constructor
  · rintro ⟨k, -, hk⟩
    exact ⟨k, hk⟩
  · rintro ⟨k, hk⟩
    obtain ⟨user, hrow, -⟩ := (Option.any_eq_true _ _).1 hk
    exact ⟨k, s.table.rows_keys hrow, hk⟩

/-- A row another transaction sees differently has been written by it. -/
theorem dirty_of_removed {t : Nat} {k : Uuid}
    (hrow : isAdmin tenantId (s.table.rows k) = true)
    (hvisible : isAdmin tenantId (s.table.visible t k) = false) :
    s.table.dirty t k ≠ none := by
  intro hclean
  rw [Table.visible_of_clean hclean, hrow] at hvisible
  cases hvisible

/-- At a commit, the agency keeps an administrator just when the transaction does not take
the last one away. -/
theorem hasAdmin_commit_iff (h : service.machine.Reachable s) (hadmin : HasAdmin tenantId s)
    {t : Nat} {phase : Phase Uuid Patch Empty Op Empty} (ht : s.txns t = some phase) :
    (∃ k, isAdmin tenantId (s.table.visible t k) = true) ↔ Spares tenantId s (.commit t) := by
  have hone : ∀ j k, s.table.dirty t j ≠ none → s.table.dirty t k ≠ none → j = k := by
    intro j k hj hk
    exact (RowService.oneRow h).eq_of_dirty ht (fun sweep => nomatch sweep) hj hk
  constructor
  · rintro ⟨j, hj⟩ k - hrow hremoved
    have hne : j ≠ k := by
      rintro rfl
      rw [hj] at hremoved
      cases hremoved
    -- the transaction wrote the row it takes away, and so no other
    have hclean : s.table.dirty t j = none := by
      by_contra hdirty
      exact hne (hone j k hdirty (dirty_of_removed hrow hremoved))
    rw [Table.visible_of_clean hclean] at hj
    obtain ⟨user, huser, -⟩ := (Option.any_eq_true _ _).1 hj
    exact ⟨j, s.table.rows_keys huser, hne, hj⟩
  · intro hspares
    obtain ⟨k, hk, hrow⟩ := hadmin
    cases hvisible : isAdmin tenantId (s.table.visible t k) with
    | true => exact ⟨k, hvisible⟩
    | false =>
      obtain ⟨j, -, hne, hj⟩ := hspares k hk hrow hvisible
      have hclean : s.table.dirty t j = none := by
        by_contra hdirty
        exact hne (hone j k hdirty (dirty_of_removed hrow hvisible))
      refine ⟨j, ?_⟩
      rw [Table.visible_of_clean hclean]
      exact hj

/-- A step takes the agency's last administrator away exactly if it is a commit that does
not spare one. -/
theorem hasAdmin_step_iff {l : Step} (h : service.machine.Reachable s)
    (hadmin : HasAdmin tenantId s) (hst : service.step s l = some s') :
    HasAdmin tenantId s' ↔ Spares tenantId s l := by
  rw [hasAdmin_iff]
  by_cases hl : ∃ t, l = .commit t
  · obtain ⟨t, rfl⟩ := hl
    obtain ⟨phase, ht, hrows⟩ := rows_of_commit hst
    rw [hrows]
    exact hasAdmin_commit_iff h hadmin ht
  · rcases rows_of_step hst with hrows | ⟨t, phase, rfl, -, -⟩
    · rw [hrows]
      refine iff_of_true (hasAdmin_iff.1 hadmin) ?_
      cases l with
      | commit t => exact absurd ⟨t, rfl⟩ hl
      | _ => trivial
    · exact absurd ⟨t, rfl⟩ hl

/-- **The agency keeps an administrator** through every run in which each commit that takes
one away leaves another. -/
theorem hasAdmin_kept (h₀ : service.machine.Reachable s₀) (hadmin : HasAdmin tenantId s₀)
    (h : (service.machine.startingAt s₀).ReachVia (Spares tenantId) s) : HasAdmin tenantId s := by
  induction h with
  | init hs =>
    cases hs
    exact hadmin
  | step hr hspares hst ih => exact (hasAdmin_step_iff (h₀.of_startingAt hr) ih hst).2 hspares

end Steps

/-- The user whose request it is, on the admin routes. -/
def Op.actor : Op → Option Uuid
  | .adminUpdate _ actorId _ => some actorId
  | .softDelete _ actorId _ => some actorId
  | .softDeleteSelf _ _ => none

/-- A request on an admin route that takes an administrator away is not the
administrator's own: as long as the actor stays one, the agency has one. -/
theorem actor_ne_of_removed {tenantId userId actorId : Uuid} {op : Op} {user row : User}
    {patch : Patch} (hactor : op.actor = some actorId) (hplan : op.plan userId user = some patch)
    (hrow : isAdmin tenantId (some row) = true)
    (hremoved : isAdmin tenantId (some (patch.apply row)) = false) : actorId ≠ userId := by
  rintro rfl
  cases op with
  | softDelete _ _ now =>
    cases hactor
    simp [Op.plan] at hplan
  | softDeleteSelf _ now => cases hactor
  | adminUpdate _ _ data =>
    cases hactor
    simp only [Op.plan, true_and] at hplan
    split at hplan
    · cases hplan
    · split at hplan
      · cases hplan
      · split at hplan
        · cases hplan
        · next hfields =>
          -- neither role nor status is in the patch
          cases hplan
          simp only [not_or, Bool.not_eq_true, Option.isSome_eq_false_iff,
            Option.isNone_iff_eq_none] at hfields
          have hsame : isAdmin tenantId (some ((data.patch user).apply row)) =
              isAdmin tenantId (some row) := by
            simp [isAdmin, Patch.apply, UserAdminUpdate.patch, changed, hfields]
          rw [hsame, hrow] at hremoved
          cases hremoved

/-! ### Two administrators demote each other -/

/-- Nobody has signed up yet. -/
def noUsers : Db := ⟨.empty, [], fun _ => none⟩

/-- An administrator. -/
def newAdmin (email : String) : Option Uuid × NewAccount :=
  (some 7, { email, passwordHash := "h", role := .admin })

/-- An agency with two administrators, 1 and 2. -/
def twoAdmins : Db :=
  (service.machine.run noUsers
    [.create 0 1 (newAdmin "first@agency.test"), .commit 0,
      .create 0 2 (newAdmin "second@agency.test"), .commit 0]).get (by decide)

theorem reachable_twoAdmins : service.machine.Reachable twoAdmins :=
  (Machine.Reachable.init rfl).of_get_run (by decide)

/-- Two requests that read before either writes. -/
def demoteEachOther : List Step :=
  [.start 1 (.adminUpdate 7 1 { role := some .agent }) 2, .read 1,
    .start 2 (.adminUpdate 7 2 { role := some .agent }) 1, .read 2,
    .write 1, .write 2, .commit 1, .commit 2]

/-- **The agency is locked out**: each request finds its actor and its target as they were. -/
theorem agency_locked_out :
    service.machine.Reachable twoAdmins ∧ HasAdmin 7 twoAdmins ∧
      ∃ s, (service.machine.startingAt twoAdmins).Reachable s ∧ ¬ HasAdmin 7 s := by
  obtain ⟨s, hs, hp⟩ := Machine.exists_reachable_of_run
    (M := service.machine.startingAt twoAdmins) demoteEachOther
    (fun s => decide (¬ HasAdmin 7 s)) rfl (by decide)
  exact ⟨reachable_twoAdmins, by decide, s, hs, of_decide_eq_true hp⟩

/-- One of the two is demoted, and the other is left. -/
theorem hasAdmin_kept_demotion :
    ∃ s, (service.machine.startingAt twoAdmins).Reachable s ∧
      isAdmin 7 (s.table.rows 2) = false ∧ HasAdmin 7 s := by
  obtain ⟨s, hs, hp⟩ := Machine.exists_reachVia_of_run
    (M := service.machine.startingAt twoAdmins) (G := Spares 7)
    [.start 1 (.adminUpdate 7 1 { role := some .agent }) 2, .read 1, .write 1, .commit 1]
    (fun s => !isAdmin 7 (s.table.rows 2)) rfl (by decide)
  have hgone : isAdmin 7 (s.table.rows 2) = false := by simpa using hp
  exact ⟨s, hs.reachable, hgone, hasAdmin_kept reachable_twoAdmins (by decide) hs⟩

end Administrators

end Users

end RealEstate
