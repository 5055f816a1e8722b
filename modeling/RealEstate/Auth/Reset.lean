import RealEstate.Auth.Denylist
import RealEstate.Users.Service

/-!
# Password reset (`modules/auth/service.py`)

`forgot_password` and `reset_password`, with the three kinds of credential a
reset is about: refresh sessions (rows), access tokens (signed, tracked and
denylisted in Redis) and reset tokens (keys in Redis). Requests run one at a time
and Redis answers.

A function takes the state and returns it changed, with the error raised. Every
check comes before the first write to the database, so a refused request has
nothing to roll back. `Auth.EndedCredentials` says what a reset puts an end to.
-/

namespace RealEstate

namespace Auth

namespace Reset

open RealEstate.Core Users Systems Denylist

/-- The claims of an access token (`create_access_token`). -/
structure AccessToken where
  userId : Uuid
  tenantId : Option Uuid
  role : Role
  jti : Jti
  exp : DateTime

/-- `IssuedTokens`. -/
structure IssuedTokens where
  user : UserIdentity
  accessToken : AccessToken
  refreshToken : Token

/-- `resets` holds the keys `auth:reset:…` and `redis` those of `Auth.Denylist`. Nothing
reads `accessTokens` and `resetTokens`: every access token signed, and every reset token
mailed with the account it is for. -/
structure State where
  users : List User
  sessions : List AuthSession
  redis : Redis
  resets : Store Digest Uuid
  accessTokens : List AccessToken
  resetTokens : List (Token × Uuid)

/-- The parameters of the code. -/
structure Env where
  verifiers : Verifiers
  hashToken : Token → Digest
  settings : AuthSettings
  passwordResetTtlSeconds : Nat := 1800

/-- The client, and what `_issue` draws at random. -/
structure Draws where
  client : ClientInfo := {}
  refreshToken : Token
  familyId : Uuid
  jti : Jti

variable (env : Env)

/-! ### Tokens -/

/-- `_issue`. -/
def issue (s : State) (identity : UserIdentity) (familyId : Uuid) (draws : Draws) :
    State × IssuedTokens :=
  let session := issueSession env.settings s.redis.now identity draws.client
    (env.hashToken draws.refreshToken) familyId
  let accessToken : AccessToken :=
    { userId := identity.id, tenantId := identity.tenantId, role := identity.role
      jti := draws.jti, exp := s.redis.now + env.settings.accessTokenTtlSeconds }
  ({ s with
      sessions := session :: s.sessions
      redis := trackJti env.settings s.redis identity.id draws.jti
      accessTokens := accessToken :: s.accessTokens },
    ⟨identity, accessToken, draws.refreshToken⟩)

/-- `AuthenticatedUser`. -/
structure AuthenticatedUser where
  id : Uuid
  tenantId : Option Uuid
  role : Role
  jti : Jti

/-- `get_current_user`, for a token this deployment signed. -/
def getCurrentUser (s : State) (resolvedTenantId : Option Uuid) (claims : AccessToken) :
    Except AppError AuthenticatedUser :=
  if claims.exp ≤ s.redis.now then
    .error ⟨.unauthorized, "The access token is invalid or has expired."⟩
  else if claims.tenantId.isNone ≠ claims.role.platform then
    .error ⟨.unauthorized, "The access token is invalid or has expired."⟩
  else if claims.tenantId ≠ resolvedTenantId then
    .error ⟨.unauthorized, "The access token is not valid for this site."⟩
  else if Denied s.redis claims.jti then
    .error ⟨.unauthorized, "The access token has been revoked."⟩
  else .ok ⟨claims.userId, claims.tenantId, claims.role, claims.jti⟩

/-! ### Sessions -/

/-- `SessionRepository.get_by_token_hash`. -/
def getByTokenHash (sessions : List AuthSession) (tenantId : Option Uuid) (tokenHash : Digest) :
    Option AuthSession :=
  sessions.find? fun row => row.tenantId = tenantId ∧ row.refreshTokenHash = tokenHash

/-- `UPDATE sessions SET revoked_at = now WHERE …`. -/
def revokeAll (scope : Scope) (now : DateTime) (sessions : List AuthSession) :
    List AuthSession :=
  sessions.map fun row => if scope.revokes row then row.revoke now else row

/-- An update of the row `get_by_token_hash` returned. -/
def updateSession (session : AuthSession) (f : AuthSession → AuthSession)
    (sessions : List AuthSession) : List AuthSession :=
  sessions.map fun row =>
    if row.refreshTokenHash = session.refreshTokenHash then f row else row

/-- `refresh`. The family of a replayed token is revoked on a transaction of its own. -/
def refresh (s : State) (tenantId : Option Uuid) (presented : Option Token) (draws : Draws) :
    State × Except AppError IssuedTokens :=
  match presented with
  | none => (s, .error ⟨.unauthorized, "A refresh token is required."⟩)
  | some token =>
    let now := s.redis.now
    match checkPresented now (getByTokenHash s.sessions tenantId (env.hashToken token)) with
    | .error refusal =>
      let sessions := match refusal.reuse with
        | some familyId => revokeAll (.family tenantId familyId) now s.sessions
        | none => s.sessions
      ({ s with sessions := sessions }, .error ⟨.unauthorized, refusal.message⟩)
    | .ok session =>
      match getIdentityIfActive s.users tenantId session.userId with
      | none => (s, .error ⟨.unauthorized, "The refresh token is invalid."⟩)
      | some identity =>
        let s := { s with sessions := updateSession session (·.rotateAway now) s.sessions }
        let (s, tokens) := issue env s identity session.familyId draws
        (s, .ok tokens)

/-- `logout`. -/
def logout (s : State) (tenantId : Option Uuid) (presented : Option Token) (jti : Jti) : State :=
  let row := presented.bind fun token =>
    getByTokenHash s.sessions tenantId (env.hashToken token)
  let sessions := match row with
    | some session =>
      if session.revokedAt.isNone then
        updateSession session (·.revoke s.redis.now) s.sessions
      else s.sessions
    | none => s.sessions
  { s with sessions := sessions, redis := denylistJti env.settings s.redis jti }

/-- `_revoke_tracked_jtis`. -/
def revokeTrackedJtis (r : Redis) (userId : Uuid) : Redis :=
  let jtis := smembers r userId
  if jtis.isEmpty then r else revokeJtis env.settings r userId jtis

/-- `force_logout_user`. -/
def forceLogoutUser (s : State) (tenantId : Option Uuid) (userId : Uuid) : State :=
  { s with
    sessions := revokeAll (.user tenantId userId) s.redis.now s.sessions
    redis := revokeTrackedJtis env s.redis userId }

/-- `logout_all`. -/
def logoutAll (s : State) (tenantId : Option Uuid) (userId : Uuid) (jti : Jti) : State :=
  let s := forceLogoutUser env s tenantId userId
  { s with redis := denylistJti env.settings s.redis jti }

/-! ### The reset -/

/-- `forgot_password`. -/
def forgotPassword (s : State) (tenantId : Option Uuid) (email : String) (token : Token) :
    State :=
  match getIdentityByEmail s.users tenantId email with
  | none => s
  | some identity =>
    let digest := env.hashToken token
    { s with
      resets := s.resets.set digest identity.id (some env.passwordResetTtlSeconds)
      resetTokens := (token, identity.id) :: s.resetTokens }

/-- `reset_password`. `breached` is what the breach checker answers; `passwordHash` is the
hash of the new password. -/
def resetPassword (s : State) (tenantId : Option Uuid) (token : Token) (passwordHash : String)
    (breached : Bool) : State × Except AppError Unit :=
  if breached then
    (s, .error ⟨.breachedPassword, "This password has appeared in a known data breach. " ++
      "Please choose a different one."⟩)
  else
    let key := env.hashToken token
    match s.resets.get key with
    | none => (s, .error ⟨.unauthorized, "The token is invalid or has expired."⟩)
    | some userId =>
      -- `GETDEL` has spent the token, whatever comes next.
      let s := { s with resets := s.resets.del key }
      let change := AccountChange.setPassword passwordHash
      match change.apply env.verifiers s.users s.redis.now tenantId userId with
      | .error e => (s, .error e)
      | .ok users => (forceLogoutUser env { s with users := users } tenantId userId, .ok ())

/-! ### Histories -/

/-- `signIn` is the end of `register`, `login`, `verify_mfa` and `complete_oauth`: whatever
they checked, an active account gets tokens in a new family. -/
inductive Label where
  | wait (seconds : Nat)
  | createAccount (tenantId : Option Uuid) (id : Uuid) (data : NewAccount)
  | changeAccount (tenantId : Option Uuid) (userId : Uuid) (change : AccountChange)
  | signIn (tenantId : Option Uuid) (userId : Uuid) (draws : Draws)
  | refresh (tenantId : Option Uuid) (presented : Option Token) (draws : Draws)
  | logout (tenantId : Option Uuid) (presented : Option Token) (jti : Jti)
  | logoutAll (tenantId : Option Uuid) (userId : Uuid) (jti : Jti)
  | forgotPassword (tenantId : Option Uuid) (email : String) (token : Token)
  | resetPassword (tenantId : Option Uuid) (token : Token) (passwordHash : String)
      (breached : Bool)

/-- A refresh token is new to the table, whose digests are unique. -/
def Draws.fresh (s : State) (draws : Draws) : Bool :=
  env.hashToken draws.refreshToken ∉ s.sessions.map (·.refreshTokenHash)

/-- A reset token was never mailed before. -/
def freshCode (s : State) (token : Token) : Bool :=
  env.hashToken token ∉ s.resetTokens.map fun p => env.hashToken p.1

/-- One step. A request runs alone. -/
def step (s : State) : Label → Option State
  | .wait seconds =>
    some { s with redis := s.redis.wait seconds, resets := s.resets.wait seconds }
  | .createAccount tenantId id data =>
    (createAccount s.users id tenantId data).toOption.map fun p => { s with users := p.1 }
  | .changeAccount tenantId userId change =>
    (change.apply env.verifiers s.users s.redis.now tenantId userId).toOption.map fun users =>
      { s with users := users }
  | .signIn tenantId userId draws =>
    if draws.fresh env s then
      (getIdentityIfActive s.users tenantId userId).map fun identity =>
        (issue env s identity draws.familyId draws).1
    else none
  | .refresh tenantId presented draws =>
    if draws.fresh env s then some (refresh env s tenantId presented draws).1 else none
  | .logout tenantId presented jti => some (logout env s tenantId presented jti)
  | .logoutAll tenantId userId jti => some (logoutAll env s tenantId userId jti)
  | .forgotPassword tenantId email token =>
    if freshCode env s token then some (forgotPassword env s tenantId email token) else none
  | .resetPassword tenantId token passwordHash breached =>
    some (resetPassword env s tenantId token passwordHash breached).1

/-- The histories of a deployment whose accounts hold nothing yet. -/
def histories : Machine State Label where
  init s := s.sessions = [] ∧ s.redis = .empty ∧ s.resets = .empty ∧ s.accessTokens = [] ∧
    s.resetTokens = []
  step := step env

end Reset

end Auth

end RealEstate
