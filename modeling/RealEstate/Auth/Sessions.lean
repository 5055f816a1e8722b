import RealEstate.Core.Base
import RealEstate.Users.Models

/-!
# Refresh-token sessions (`modules/auth/models.py`, `repository.py`, `service.py`)

A session row holds the digest of one refresh token. Rotation revokes the
presented row and inserts a new one in the same family; a revoked row that is
presented again revokes the whole family.

This module is the sequential part: the row, the `WHERE` clauses of the bulk
revocations, the checks `refresh` makes on the row it read, and the rows it
writes. `Auth.Requests` interleaves them.
-/

namespace RealEstate

namespace Auth

open RealEstate.Core Users

/-- An opaque refresh token; only its digest is stored. -/
abbrev Token := Nat

/-- The SHA-256 digest of a token (`hash_token`). -/
abbrev Digest := Nat

/-- `ClientInfo`: what a request says about the device. -/
structure ClientInfo where
  userAgent : Option String := none
  ip : Option String := none

/-- One row of `sessions`. -/
structure AuthSession where
  userId : Uuid
  tenantId : Option Uuid
  refreshTokenHash : Digest
  familyId : Uuid
  userAgent : Option String
  ip : Option String
  expiresAt : DateTime
  revokedAt : Option DateTime := none
  lastUsedAt : Option DateTime
  deriving DecidableEq

/-- The settings the session code reads. -/
structure AuthSettings where
  refreshTokenTtlDays : Int := 30
  accessTokenTtlSeconds : Nat := 900
  accessTokenTtl_pos : 0 < accessTokenTtlSeconds := by decide

/-- The defaults. -/
instance : Inhabited AuthSettings := ⟨{}⟩

/-- The `AuthSession` built by `_issue`. -/
def issueSession (settings : AuthSettings) (now : DateTime) (identity : UserIdentity)
    (client : ClientInfo) (refreshTokenHash : Digest) (familyId : Uuid) : AuthSession where
  userId := identity.id
  tenantId := identity.tenantId
  refreshTokenHash := refreshTokenHash
  familyId := familyId
  userAgent := client.userAgent
  ip := client.ip
  lastUsedAt := some now
  expiresAt := now + settings.refreshTokenTtlDays * 86400

/-! ### Bulk revocation -/

/-- The rows a bulk revocation is about: `revoke_family` and `revoke_all_for_user`, both
within one tenant partition. -/
inductive Scope where
  | family (tenantId : Option Uuid) (familyId : Uuid)
  | user (tenantId : Option Uuid) (userId : Uuid)
  deriving DecidableEq

/-- The `WHERE` clause apart from `revoked_at IS NULL`. -/
def Scope.covers : Scope → AuthSession → Bool
  | .family tenantId familyId, row => row.tenantId = tenantId ∧ row.familyId = familyId
  | .user tenantId userId, row => row.tenantId = tenantId ∧ row.userId = userId

/-- The whole `WHERE` clause. -/
def Scope.revokes (scope : Scope) (row : AuthSession) : Bool :=
  scope.covers row && row.revokedAt.isNone

/-- `.values(revoked_at=now)`. -/
def AuthSession.revoke (row : AuthSession) (now : DateTime) : AuthSession :=
  { row with revokedAt := some now }

/-! ### What `refresh` does with the presented row -/

/-- A 401 of `refresh`; `reuse` is the family a replayed token betrays. -/
structure Refusal where
  message : String
  reuse : Option Uuid := none

/-- The checks on the row `get_by_token_hash` returned, in order. -/
def checkPresented (now : DateTime) : Option AuthSession → Except Refusal AuthSession
  | none => .error { message := "The refresh token is invalid." }
  | some session =>
    if session.revokedAt.isSome then
      .error { message := "The refresh token is invalid.", reuse := some session.familyId }
    else if session.expiresAt ≤ now then
      .error { message := "The refresh token has expired." }
    else .ok session

/-- The two columns `refresh` sets on the presented row. -/
def AuthSession.rotateAway (row : AuthSession) (now : DateTime) : AuthSession :=
  { row with lastUsedAt := some now, revokedAt := some now }

/-- A session that passes is neither used nor expired. -/
theorem checkPresented_ok {now : DateTime} {row : Option AuthSession} {session : AuthSession}
    (h : checkPresented now row = .ok session) :
    row = some session ∧ session.revokedAt = none ∧ now < session.expiresAt := by
  cases row with
  | none => cases h
  | some r =>
    unfold checkPresented at h
    dsimp only at h
    split at h
    · cases h
    · next hrev =>
      split at h
      · cases h
      · next hexp =>
        cases h
        refine ⟨rfl, ?_, Int.not_le.mp hexp⟩
        simpa using hrev

/-! ### Versions of a row, and rows of one family -/

/-- `r` and `r'` are sessions of one account, in one family. -/
structure Akin (r r' : AuthSession) : Prop where
  family : r'.familyId = r.familyId
  user : r'.userId = r.userId
  tenant : r'.tenantId = r.tenantId

theorem Akin.refl (r : AuthSession) : Akin r r := ⟨rfl, rfl, rfl⟩

theorem Akin.trans {r₁ r₂ r₃ : AuthSession} (h : Akin r₁ r₂) (h' : Akin r₂ r₃) : Akin r₁ r₃ :=
  ⟨h'.family.trans h.family, h'.user.trans h.user, h'.tenant.trans h.tenant⟩

theorem Akin.symm {r r' : AuthSession} (h : Akin r r') : Akin r' r :=
  ⟨h.family.symm, h.user.symm, h.tenant.symm⟩

/-- A bulk revocation covers akin rows together. -/
theorem Akin.covers {r r' : AuthSession} (h : Akin r r') (scope : Scope) :
    scope.covers r' = scope.covers r := by
  cases scope with
  | family tenantId familyId => simp only [Scope.covers, h.family, h.tenant]
  | user tenantId userId => simp only [Scope.covers, h.user, h.tenant]

/-- `r'` is a later version of `r`: whose session it is never changes, and revocation is
never taken back. -/
structure Later (r r' : AuthSession) : Prop extends Akin r r' where
  revoked : r.revokedAt ≠ none → r'.revokedAt ≠ none

theorem Later.refl (r : AuthSession) : Later r r := ⟨.refl r, id⟩

theorem Later.trans {r₁ r₂ r₃ : AuthSession} (h : Later r₁ r₂) (h' : Later r₂ r₃) :
    Later r₁ r₃ :=
  ⟨h.toAkin.trans h'.toAkin, fun hr => h'.revoked (h.revoked hr)⟩

theorem later_revoke (r : AuthSession) (now : DateTime) : Later r (r.revoke now) :=
  ⟨⟨rfl, rfl, rfl⟩, fun _ => nofun⟩

theorem later_rotateAway (r : AuthSession) (now : DateTime) : Later r (r.rotateAway now) :=
  ⟨⟨rfl, rfl, rfl⟩, fun _ => nofun⟩

end Auth

end RealEstate
