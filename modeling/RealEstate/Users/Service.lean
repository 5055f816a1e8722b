import Mathlib.Data.List.Nodup
import RealEstate.Core.Exceptions
import RealEstate.Users.Models

/-!
# The identity store (`modules/users/service.py`)

Every account change goes through this service, on rows found by the repository
reads of `Users.Models`. A function takes the table and returns it changed.

- Password hashes and TOTP codes are checked by third-party code (`Verifiers`);
  a new password arrives hashed.
- `liveFactor`: whether an account has a live second factor. `liveFactor_of_mem`
  reads it off any row of the account, since ids are unique.
-/

namespace RealEstate

namespace Users

open RealEstate.Core

/-- `verify_password` and `verify_totp`. -/
structure Verifiers where
  verifyPassword : (password passwordHash : String) → Bool
  verifyTotp : (secret code : String) → DateTime → Bool

/-- A string Python counts as true. -/
def truthy (s : Option String) : Bool := s.any (· ≠ "")

/-- Platform staff have no tenant. -/
def Role.platform (role : Role) : Bool :=
  role = .platformAdmin ∨ role = .platformSupport

/-- `UPDATE users … WHERE id = userId`. -/
def updateUser (users : List User) (userId : Uuid) (f : User → User) : List User :=
  users.map fun u => if u.id = userId then f u else u

/-! ### Accounts -/

/-- The arguments of `create_account`. -/
structure NewAccount where
  email : String
  passwordHash : String
  role : Role
  firstName : Option String := none
  lastName : Option String := none
  locale : String := "fr"
  phone : Option String := none

/-- The address is taken. -/
def emailConflict : AppError := ⟨.conflict, "An account with this email already exists."⟩

/-- `UserService.create_account`. The last check is the unique constraint, which counts
soft-deleted rows too. -/
def createAccount (users : List User) (id : Uuid) (tenantId : Option Uuid) (data : NewAccount) :
    Except AppError (List User × User) :=
  if tenantId.isNone ≠ data.role.platform then
    .error ⟨.conflict, "The role does not match the account scope."⟩
  else if (getByEmail users tenantId data.email).isSome then .error emailConflict
  else if users.any fun u => u.tenantId = tenantId ∧ u.email = data.email then
    .error emailConflict
  else
    let user : User :=
      { id, tenantId, email := data.email, passwordHash := data.passwordHash, role := data.role
        firstName := data.firstName, lastName := data.lastName, locale := data.locale
        phone := data.phone }
    .ok (user :: users, user)

/-- `UserService.verify_credentials`. -/
def verifyCredentials (v : Verifiers) (users : List User) (now : DateTime)
    (tenantId : Option Uuid) (email password : String) : Option (List User × UserIdentity) :=
  (getByEmail users tenantId email).bind fun user =>
    if v.verifyPassword password user.passwordHash ∧ user.status = .active then
      some (updateUser users user.id fun u => { u with lastLoginAt := some now },
        user.toIdentity)
    else none

/-- `UserService.email_taken`. -/
def emailTaken (users : List User) (tenantId : Option Uuid) (email : String) : Bool :=
  (getByEmail users tenantId email).isSome

/-- `UserService.mark_email_verified`. -/
def markEmailVerified (users : List User) (now : DateTime) (tenantId : Option Uuid)
    (userId : Uuid) : List User :=
  match get users tenantId userId with
  | none => users
  | some user =>
    updateUser users user.id fun u =>
      { u with emailVerifiedAt := some (u.emailVerifiedAt.getD now) }

/-! ### The second factor -/

/-- `UserService.verify_mfa_code`. -/
def verifyMfaCode (v : Verifiers) (users : List User) (now : DateTime) (tenantId : Option Uuid)
    (userId : Uuid) (code : String) : Bool :=
  match get users tenantId userId with
  | none => false
  | some user =>
    if !user.mfaEnabled || !truthy user.mfaSecret then false
    else v.verifyTotp (user.mfaSecret.getD "") code now

/-- `UserService.check_password`. -/
def checkPassword (v : Verifiers) (users : List User) (tenantId : Option Uuid) (userId : Uuid)
    (password : String) : Bool :=
  match get users tenantId userId with
  | none => false
  | some user => v.verifyPassword password user.passwordHash

/-- `confirm_mfa_enrolment` promotes the pending secret. -/
def User.promoteFactor (user : User) (now : DateTime) : User :=
  { user with
    mfaSecret := user.mfaPendingSecret
    mfaPendingSecret := none
    mfaEnabled := true
    mfaEnrolledAt := some now }

/-- `disable_mfa` clears the factor. -/
def User.clearFactor (user : User) : User :=
  { user with
    mfaEnabled := false
    mfaEnrolledAt := none
    mfaSecret := none
    mfaPendingSecret := none }

/-- `anonymize_account` scrubs a row. -/
def User.anonymize (user : User) (passwordHash : String) : User :=
  { user with
    email := s!"deleted+{user.id}@anonymized.invalid"
    firstName := none
    lastName := none
    phone := none
    passwordHash := passwordHash
    status := .disabled }

/-! ### Account changes -/

/-- The operations that change an existing account, whoever asks for them. `adminUpdate`
and `updateProfile` carry the fields present in the patch. -/
inductive AccountChange where
  | beginMfaEnrolment (secret : String)
  | confirmMfaEnrolment (code : String)
  | disableMfa (password : String)
  | setPassword (passwordHash : String)
  | verifyEmail
  | updateProfile (firstName lastName phone : Option (Option String)) (locale : Option String)
  | adminUpdate (actorId : Uuid) (role : Option Role) (status : Option UserStatus)
  | softDelete (actorId : Option Uuid)
  | anonymizeAccount (passwordHash : String)

/-- No such user. -/
def userNotFound : AppError := ⟨.notFound, "User not found."⟩

/-- `_get_or_404`, then an update of the row found. -/
def updateOr404 (users : List User) (tenantId : Option Uuid) (userId : Uuid)
    (f : User → User) : Except AppError (List User) :=
  match get users tenantId userId with
  | none => .error userNotFound
  | some user => .ok (updateUser users user.id f)

/-- The change, with the checks its service function (and, for the second factor, the
auth service on top of it) makes first. -/
def AccountChange.apply (v : Verifiers) (users : List User) (now : DateTime)
    (tenantId : Option Uuid) (userId : Uuid) : AccountChange → Except AppError (List User)
  | .beginMfaEnrolment secret =>
    updateOr404 users tenantId userId fun u => { u with mfaPendingSecret := some secret }
  | .confirmMfaEnrolment code =>
    match get users tenantId userId with
    | none => .error userNotFound
    | some user =>
      if !truthy user.mfaPendingSecret then
        .error ⟨.conflict, "Start MFA enrolment before confirming it."⟩
      else if !v.verifyTotp (user.mfaPendingSecret.getD "") code now then
        .error ⟨.unauthorized, "That code is not valid. Please try again."⟩
      else .ok (updateUser users user.id (·.promoteFactor now))
  | .disableMfa password =>
    if !checkPassword v users tenantId userId password then
      .error ⟨.unauthorized, "The password is incorrect."⟩
    else updateOr404 users tenantId userId User.clearFactor
  | .setPassword passwordHash =>
    if (getIdentityIfActive users tenantId userId).isNone then
      .error ⟨.unauthorized, "The reset token is invalid or has expired."⟩
    else updateOr404 users tenantId userId fun u => { u with passwordHash := passwordHash }
  | .verifyEmail =>
    if (get users tenantId userId).isNone then
      .error ⟨.unauthorized, "The verification token is invalid or has expired."⟩
    else .ok (markEmailVerified users now tenantId userId)
  | .updateProfile firstName lastName phone locale =>
    updateOr404 users tenantId userId fun u =>
      { u with
        firstName := firstName.getD u.firstName
        lastName := lastName.getD u.lastName
        phone := phone.getD u.phone
        locale := locale.getD u.locale }
  | .adminUpdate actorId role status =>
    match get users tenantId userId with
    | none => .error userNotFound
    | some user =>
      if userId = actorId ∧ (role.isSome ∨ status.isSome) then
        .error ⟨.conflict, "You cannot change your own role or status."⟩
      else
        .ok (updateUser users user.id fun u =>
          { u with role := role.getD u.role, status := status.getD u.status })
  | .softDelete actorId =>
    if some userId = actorId then .error ⟨.conflict, "You cannot delete your own account."⟩
    else updateOr404 users tenantId userId fun u => { u with deletedAt := some now }
  | .anonymizeAccount passwordHash =>
    match users.find? fun u => u.tenantId = tenantId ∧ u.id = userId with
    | none => .ok users
    | some user =>
      -- An account that was anonymised stays as it is.
      if user.email.startsWith "deleted+" then .ok users
      else .ok (updateUser users user.id (·.anonymize passwordHash))

/-! ### Ids stay unique -/

/-- `users.id` is the primary key. -/
def UniqueIds (users : List User) : Prop := (users.map (·.id)).Nodup

/-- The row a query by a unique column finds. -/
theorem find?_of_nodup_map {A B : Type} {rows : List A} {key : A → B}
    (h : (rows.map key).Nodup) {row : A} (hrow : row ∈ rows) {p : A → Bool}
    (hp : p row = true) (hkey : ∀ r, p r = true → key r = key row) :
    rows.find? p = some row := by
  cases hfind : rows.find? p with
  | none => exact absurd hp (List.find?_eq_none.mp hfind row hrow)
  | some r =>
    have hsame : key r = key row := hkey r (List.find?_some hfind)
    rw [List.inj_on_of_nodup_map h (List.mem_of_find?_eq_some hfind) hrow hsame]

/-- An update keeps the ids. -/
theorem map_id_updateUser (users : List User) (userId : Uuid) {f : User → User}
    (hf : ∀ u, (f u).id = u.id) : (updateUser users userId f).map (·.id) = users.map (·.id) := by
  unfold updateUser
  rw [List.map_map]
  refine List.map_congr_left fun u _ => ?_
  show (if u.id = userId then f u else u).id = u.id
  split
  · exact hf u
  · rfl

/-- An update that keeps the columns `get` looks at is seen through it. -/
theorem get_updateUser {users : List User} (account : Uuid) {f : User → User}
    (hf : ∀ u, (f u).tenantId = u.tenantId ∧ (f u).id = u.id ∧ (f u).deletedAt = u.deletedAt)
    (tenantId : Option Uuid) (userId : Uuid) :
    get (updateUser users account f) tenantId userId =
      (get users tenantId userId).map fun u => if u.id = account then f u else u := by
  have hsame : ∀ u : User,
      (decide ((if u.id = account then f u else u).tenantId = tenantId ∧
        (if u.id = account then f u else u).id = userId ∧
        (if u.id = account then f u else u).deletedAt = none)) =
      decide (u.tenantId = tenantId ∧ u.id = userId ∧ u.deletedAt = none) := by
    intro u
    obtain ⟨htenant, hid, hdeleted⟩ := hf u
    by_cases hu : u.id = account
    · simp only [if_pos hu, htenant, hid, hdeleted]
    · simp only [if_neg hu]
  unfold get updateUser
  rw [List.find?_map]
  congr 2
  funext u
  exact hsame u

/-- So ids stay unique. -/
theorem UniqueIds.updateUser {users : List User} (h : UniqueIds users) (userId : Uuid)
    {f : User → User} (hf : ∀ u, (f u).id = u.id) :
    UniqueIds (updateUser users userId f) := by
  unfold UniqueIds
  rw [map_id_updateUser users userId hf]
  exact h

/-- Also when the user must exist. -/
theorem UniqueIds.updateOr404 {users users' : List User} {tenantId : Option Uuid} {userId : Uuid}
    {f : User → User} (h : UniqueIds users)
    (hupd : updateOr404 users tenantId userId f = .ok users') (hf : ∀ u, (f u).id = u.id) :
    UniqueIds users' := by
  unfold Users.updateOr404 at hupd
  split at hupd
  · cases hupd
  · cases hupd
    exact h.updateUser _ hf

/-- And when an address is verified. -/
theorem UniqueIds.markEmailVerified {users : List User} (h : UniqueIds users) (now : DateTime)
    (tenantId : Option Uuid) (userId : Uuid) :
    UniqueIds (markEmailVerified users now tenantId userId) := by
  unfold Users.markEmailVerified
  split
  · exact h
  · exact h.updateUser _ fun _ => rfl

/-- No account change touches an id. -/
theorem UniqueIds.apply {v : Verifiers} {users users' : List User} {now : DateTime}
    {tenantId : Option Uuid} {userId : Uuid} {change : AccountChange} (h : UniqueIds users)
    (happly : change.apply v users now tenantId userId = .ok users') : UniqueIds users' := by
  cases change with
  | beginMfaEnrolment secret => exact h.updateOr404 happly fun _ => rfl
  | updateProfile firstName lastName phone locale => exact h.updateOr404 happly fun _ => rfl
  | confirmMfaEnrolment code =>
    simp only [AccountChange.apply] at happly
    split at happly
    · cases happly
    · split at happly
      · cases happly
      · split at happly
        · cases happly
        · cases happly
          exact h.updateUser _ fun _ => rfl
  | disableMfa password =>
    simp only [AccountChange.apply] at happly
    split at happly
    · cases happly
    · exact h.updateOr404 happly fun _ => rfl
  | setPassword passwordHash =>
    simp only [AccountChange.apply] at happly
    split at happly
    · cases happly
    · exact h.updateOr404 happly fun _ => rfl
  | verifyEmail =>
    simp only [AccountChange.apply] at happly
    split at happly
    · cases happly
    · cases happly
      exact h.markEmailVerified now tenantId userId
  | adminUpdate actorId role status =>
    simp only [AccountChange.apply] at happly
    split at happly
    · cases happly
    · split at happly
      · cases happly
      · cases happly
        exact h.updateUser _ fun _ => rfl
  | softDelete actorId =>
    simp only [AccountChange.apply] at happly
    split at happly
    · cases happly
    · exact h.updateOr404 happly fun _ => rfl
  | anonymizeAccount passwordHash =>
    simp only [AccountChange.apply] at happly
    split at happly
    · cases happly
      exact h
    · split at happly
      · cases happly
        exact h
      · cases happly
        exact h.updateUser _ fun _ => rfl

/-- What a successful `create_account` did. -/
theorem createAccount_eq_ok {users users' : List User} {id : Uuid} {tenantId : Option Uuid}
    {data : NewAccount} {user : User}
    (h : createAccount users id tenantId data = .ok (users', user)) :
    users' = user :: users ∧ user.id = id ∧ user.mfaEnabled = false := by
  unfold createAccount at h
  split at h
  · cases h
  · split at h
    · cases h
    · split at h
      · cases h
      · cases h
        exact ⟨rfl, rfl, rfl⟩

/-! ### The live second factor of an account -/

/-- The account has a live second factor. -/
def liveFactor (users : List User) (userId : Uuid) : Bool :=
  users.any fun u => u.id = userId && u.mfaEnabled

/-- Whether a user has a second factor is read off the row. -/
theorem liveFactor_of_mem {users : List User} (h : UniqueIds users) {user : User}
    (hu : user ∈ users) : liveFactor users user.id = user.mfaEnabled := by
  rw [Bool.eq_iff_iff, liveFactor, List.any_eq_true]
  constructor
  · -- Whoever has the id is this row.
    rintro ⟨u, humem, hu'⟩
    simp only [Bool.and_eq_true, decide_eq_true_eq] at hu'
    have heq : u = user := List.inj_on_of_nodup_map h humem hu hu'.1
    exact heq ▸ hu'.2
  · intro henabled
    exact ⟨user, hu, by simp [henabled]⟩

/-- An update of other columns does not change who has a live factor. -/
theorem liveFactor_updateUser (users : List User) (userId : Uuid) {f : User → User}
    (hid : ∀ u, (f u).id = u.id) (hmfa : ∀ u, (f u).mfaEnabled = u.mfaEnabled) (j : Uuid) :
    liveFactor (updateUser users userId f) j = liveFactor users j := by
  unfold liveFactor updateUser
  rw [List.any_map]
  congr 1
  funext u
  show ((decide ((if u.id = userId then f u else u).id = j) &&
    (if u.id = userId then f u else u).mfaEnabled)) = _
  split
  · rw [hid, hmfa]
  · rfl

/-- Verifying an address changes no factor. -/
theorem liveFactor_markEmailVerified (users : List User) (now : DateTime)
    (tenantId : Option Uuid) (userId j : Uuid) :
    liveFactor (markEmailVerified users now tenantId userId) j = liveFactor users j := by
  unfold markEmailVerified
  split
  · rfl
  · exact liveFactor_updateUser _ _ (by intro u; rfl) (by intro u; rfl) j

/-- A new account starts without a factor. -/
theorem liveFactor_createAccount {users users' : List User} {id : Uuid}
    {tenantId : Option Uuid} {data : NewAccount} {user : User} (hfresh : id ∉ users.map (·.id))
    (h : createAccount users id tenantId data = .ok (users', user)) :
    liveFactor users' user.id = false := by
  obtain ⟨rfl, rfl, hmfa⟩ := createAccount_eq_ok h
  rw [Bool.eq_false_iff]
  intro hlive
  obtain ⟨u, hu, hlive⟩ := List.any_eq_true.mp hlive
  simp only [Bool.and_eq_true, decide_eq_true_eq] at hlive
  rcases List.mem_cons.mp hu with rfl | hu
  · rw [hmfa] at hlive
    exact Bool.false_ne_true hlive.2
  · exact hfresh (List.mem_map.mpr ⟨u, hu, hlive.1⟩)

/-- A new account has a new id. -/
theorem UniqueIds.createAccount {users users' : List User} {id : Uuid}
    {tenantId : Option Uuid} {data : NewAccount} {user : User} (hu : UniqueIds users)
    (hfresh : id ∉ users.map (·.id))
    (h : createAccount users id tenantId data = .ok (users', user)) : UniqueIds users' := by
  obtain ⟨rfl, rfl, -⟩ := createAccount_eq_ok h
  exact List.nodup_cons.mpr ⟨hfresh, hu⟩

/-- The row behind an identity that was read. -/
theorem activeIdentity_get {users : List User} {tenantId : Option Uuid} {userId : Uuid}
    {identity : UserIdentity} (hu : UniqueIds users)
    (h : getIdentityIfActive users tenantId userId = some identity) :
    identity.id = userId ∧ liveFactor users userId = identity.mfaEnabled := by
  obtain ⟨user, hmem, -, rfl, -, rfl⟩ := getIdentityIfActive_eq_some h
  exact ⟨rfl, liveFactor_of_mem hu hmem⟩

/-- Looked up by address, the factor is the user's. -/
theorem liveFactor_identityByEmail {users : List User} {tenantId : Option Uuid}
    {email : String} {identity : UserIdentity} (hu : UniqueIds users)
    (h : getIdentityByEmail users tenantId email = some identity) :
    liveFactor users identity.id = identity.mfaEnabled := by
  rw [getIdentityByEmail, activeIdentity, Option.bind_eq_some_iff] at h
  obtain ⟨user, huser, hactive⟩ := h
  split at hactive
  · cases hactive
    exact liveFactor_of_mem hu (List.mem_of_find?_eq_some huser)
  · cases hactive

/-- A password login reads the factor of the row it stamps. -/
theorem verifyCredentials_eq_some {v : Verifiers} {users users' : List User} {now : DateTime}
    {tenantId : Option Uuid} {email password : String} {identity : UserIdentity}
    (hu : UniqueIds users)
    (h : verifyCredentials v users now tenantId email password = some (users', identity)) :
    UniqueIds users' ∧ liveFactor users' identity.id = identity.mfaEnabled := by
  rw [verifyCredentials, Option.bind_eq_some_iff] at h
  obtain ⟨user, huser, h⟩ := h
  split at h
  · cases h
    -- The login stamps other columns of the row it read.
    refine ⟨hu.updateUser _ fun _ => rfl, ?_⟩
    rw [liveFactor_updateUser _ _ (by intro u; rfl) (by intro u; rfl)]
    exact liveFactor_of_mem hu (List.mem_of_find?_eq_some huser)
  · cases h

end Users

end RealEstate
