import RealEstate.Core.Base

/-!
# User accounts (`modules/users/models.py`, `core/permissions.py`)

One table for the users of every agency and for platform staff, whose
`tenantId` is `none`. Soft-deleted rows stay in the table and no repository
read returns them.
-/

namespace RealEstate

namespace Users

open RealEstate.Core

/-- `Role`. -/
inductive Role where
  | buyerRenter
  | seller
  | agent
  | teamLead
  | admin
  | marketing
  | platformAdmin
  | platformSupport
  deriving DecidableEq, Repr

/-- `SELF_REGISTER_ROLES`: the roles a visitor may register as. -/
def Role.selfRegister (role : Role) : Bool :=
  role = .buyerRenter ∨ role = .seller

/-- `UserStatus`. -/
inductive UserStatus where
  | active
  | disabled
  deriving DecidableEq, Repr

/-- One row of `users`. `passwordHash` and the two TOTP secrets are opaque. -/
structure User where
  id : Uuid
  tenantId : Option Uuid
  email : String
  passwordHash : String
  role : Role
  status : UserStatus := .active
  firstName : Option String := none
  lastName : Option String := none
  locale : String := "fr"
  phone : Option String := none
  mfaSecret : Option String := none
  mfaPendingSecret : Option String := none
  mfaEnabled : Bool := false
  mfaEnrolledAt : Option DateTime := none
  emailVerifiedAt : Option DateTime := none
  lastLoginAt : Option DateTime := none
  deletedAt : Option DateTime := none
  deriving DecidableEq

/-- `UserIdentity`: what other modules get to know about a user. -/
structure UserIdentity where
  id : Uuid
  tenantId : Option Uuid
  email : String
  role : Role
  locale : String
  emailVerifiedAt : Option DateTime
  firstName : Option String
  lastName : Option String
  mfaEnabled : Bool
  deriving DecidableEq

/-- `_to_identity`. -/
def User.toIdentity (user : User) : UserIdentity where
  id := user.id
  tenantId := user.tenantId
  email := user.email
  role := user.role
  locale := user.locale
  emailVerifiedAt := user.emailVerifiedAt
  firstName := user.firstName
  lastName := user.lastName
  mfaEnabled := user.mfaEnabled

/-! ### Reads (`modules/users/repository.py`, `UserService`) -/

/-- `UserRepository.get`. -/
def get (users : List User) (tenantId : Option Uuid) (userId : Uuid) : Option User :=
  users.find? fun u => u.tenantId = tenantId ∧ u.id = userId ∧ u.deletedAt = none

/-- `UserRepository.get_by_email`. -/
def getByEmail (users : List User) (tenantId : Option Uuid) (email : String) : Option User :=
  users.find? fun u => u.tenantId = tenantId ∧ u.email = email ∧ u.deletedAt = none

/-- The identity of a row that may be missing or disabled. -/
def activeIdentity (user : Option User) : Option UserIdentity :=
  user.bind fun u => if u.status = .active then some u.toIdentity else none

/-- `UserService.get_identity_if_active`. -/
def getIdentityIfActive (users : List User) (tenantId : Option Uuid) (userId : Uuid) :
    Option UserIdentity :=
  activeIdentity (get users tenantId userId)

/-- `UserService.get_identity_by_email`. -/
def getIdentityByEmail (users : List User) (tenantId : Option Uuid) (email : String) :
    Option UserIdentity :=
  activeIdentity (getByEmail users tenantId email)

/-- An active user of the tenant. -/
theorem getIdentityIfActive_eq_some {users : List User} {tenantId : Option Uuid}
    {userId : Uuid} {identity : UserIdentity}
    (h : getIdentityIfActive users tenantId userId = some identity) :
    ∃ user ∈ users, user.tenantId = tenantId ∧ user.id = userId ∧ user.status = .active ∧
      user.toIdentity = identity := by
  rw [getIdentityIfActive, activeIdentity, Option.bind_eq_some_iff] at h
  obtain ⟨user, huser, hactive⟩ := h
  have hpred := List.find?_some huser
  simp only [decide_eq_true_eq] at hpred
  split at hactive
  · next hst =>
    exact ⟨user, List.mem_of_find?_eq_some huser, hpred.1, hpred.2.1, hst,
      Option.some.inj hactive⟩
  · cases hactive

end Users

end RealEstate
