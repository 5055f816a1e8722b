import RealEstate.Auth.Sessions
import RealEstate.Systems.Store
import RealEstate.Users.Service

/-!
# The login flows (`modules/auth/service.py`)

`register`, `login`, `verify_mfa`, `start_oauth` and `complete_oauth`: every
entry point that reaches `_issue` with no family, and so mints a new one.

A function takes the state of the deployment and returns it changed, with the
reply or the error raised. `settle` is the end of a request: an error rolls the
database back, and leaves the commands already sent to the store.

- Tokens, ids, provider answers and the lockout's answer are arguments.
- `State.log` records each TOTP code accepted and each family minted, newest
  first, with the request it happened in. Nothing reads it.
-/

namespace RealEstate

namespace Auth

namespace Login

open RealEstate.Core Users Systems

/-- `_MFA_KEY` and `_OAUTH_STATE_KEY`: a ticket is stored under the digest of its token. -/
inductive TicketKey where
  | mfa (digest : Digest)
  | oauthState (digest : Digest)
  deriving DecidableEq

/-- `"{tenant}:{user}"` and `"{tenant}:{provider}"`. -/
inductive Ticket where
  | mfa (tenantId : Option Uuid) (userId : Uuid)
  | oauthState (tenantId : Option Uuid) (providerKey : String)
  deriving DecidableEq

/-- One row of `oauth_identities`. -/
structure OAuthIdentity where
  userId : Uuid
  tenantId : Option Uuid
  provider : String
  subject : String
  email : Option String

/-- `OAuthProfile`. -/
structure OAuthProfile where
  subject : String
  email : Option String
  emailVerified : Bool
  firstName : Option String := none
  lastName : Option String := none

/-- The tables that a login touches. -/
structure Db where
  users : List User
  oauthIdentities : List OAuthIdentity
  sessions : List AuthSession

/-- What a request did about second factors: `mint` says whether the account had a live
factor at that moment. -/
inductive Event where
  | totp (request : Nat) (userId : Uuid)
  | mint (request : Nat) (userId : Uuid) (live : Bool)
  deriving DecidableEq

/-- The tables, the tickets in Redis and the record of what was checked. -/
structure State where
  db : Db
  redis : Store TicketKey Ticket
  log : List Event
  requests : Nat

/-- What the flows read from the deployment; `oauthProviders` are the providers
`build_oauth_provider` knows and has credentials for. -/
structure Env where
  verifiers : Verifiers
  hashToken : Token → Digest
  settings : AuthSettings
  mfaPendingTokenTtlSeconds : Nat := 300
  oauthProviders : List String

/-- `_OAUTH_STATE_TTL_SECONDS`. -/
def oauthStateTtlSeconds : Nat := 600

/-- The client, and the random values `_issue` draws. -/
structure Caller where
  client : ClientInfo := {}
  refreshToken : Token
  familyId : Uuid

/-- What a flow answers. -/
inductive Reply where
  | tokens (user : UserIdentity) (refreshToken : Token)
  | mfaChallenge (mfaToken : Token) (expiresIn : Nat)
  | authorization (state : Token)
  | done

/-- What a request leaves and answers. -/
abbrev Outcome := State × Except AppError Reply

variable (env : Env)

/-- `_issue` with no family: a new family, and tokens for the account. -/
def issue (s : State) (identity : UserIdentity) (caller : Caller) : Outcome :=
  let session := issueSession env.settings s.redis.now identity caller.client
    (env.hashToken caller.refreshToken) caller.familyId
  ({ s with
      db := { s.db with sessions := session :: s.db.sessions }
      log := .mint s.requests identity.id (liveFactor s.db.users identity.id) :: s.log },
    .ok (.tokens identity caller.refreshToken))

/-! ### Registration and the password step -/

/-- `register`. -/
def register (s : State) (tenantId : Uuid) (id : Uuid) (data : NewAccount) (breached : Bool)
    (caller : Caller) : Outcome :=
  if breached then
    (s, .error ⟨.breachedPassword, "This password has appeared in a known data breach. " ++
      "Please choose a different one."⟩)
  else
    match createAccount s.db.users id (some tenantId) data with
    | .error e => (s, .error e)
    | .ok (users, user) =>
      issue env { s with db := { s.db with users := users } } user.toIdentity caller

/-- `_mfa_required`. -/
def mfaRequired (identity : UserIdentity) : Bool := identity.mfaEnabled

/-- `_start_mfa_challenge`. -/
def startMfaChallenge (s : State) (identity : UserIdentity) (mfaToken : Token) : Outcome :=
  let ttl := env.mfaPendingTokenTtlSeconds
  ({ s with
      redis := s.redis.set (.mfa (env.hashToken mfaToken)) (.mfa identity.tenantId identity.id)
        (some ttl) },
    .ok (.mfaChallenge mfaToken ttl))

/-- The one answer to a wrong address and to a wrong password. -/
def badCredentials : AppError := ⟨.unauthorized, "Invalid email or password."⟩

/-- `login`. `locked` is what the lockout answers. -/
def login (s : State) (tenantId : Option Uuid) (email password : String) (locked : Bool)
    (mfaToken : Token) (caller : Caller) : Outcome :=
  if locked then (s, .error badCredentials)
  else
    match verifyCredentials env.verifiers s.db.users s.redis.now tenantId email password with
    | none => (s, .error badCredentials)
    | some (users, identity) =>
      let s := { s with db := { s.db with users := users } }
      if mfaRequired identity then startMfaChallenge env s identity mfaToken
      else issue env s identity caller

/-! ### The second step -/

/-- `UserService.verify_mfa_code`, with its success on record. -/
def checkMfaCode (s : State) (tenantId : Option Uuid) (userId : Uuid) (code : String) :
    State × Bool :=
  if verifyMfaCode env.verifiers s.db.users s.redis.now tenantId userId code then
    ({ s with log := .totp s.requests userId :: s.log }, true)
  else (s, false)

/-- `verify_mfa`. The ticket is spent before the code is checked. -/
def verifyMfa (s : State) (tenantId : Option Uuid) (mfaToken : Token) (code : String)
    (caller : Caller) : Outcome :=
  let key := TicketKey.mfa (env.hashToken mfaToken)
  let ticket := s.redis.get key
  let s := { s with redis := s.redis.del key }
  match ticket with
  | some (.mfa tenantPart userId) =>
    if tenantPart ≠ tenantId then
      (s, .error ⟨.unauthorized, "The verification session is invalid."⟩)
    else
      match checkMfaCode env s tenantId userId code with
      | (s, false) =>
        (s, .error ⟨.unauthorized, "That code is not valid. Please sign in again."⟩)
      | (s, true) =>
        match getIdentityIfActive s.db.users tenantId userId with
        | none => (s, .error ⟨.unauthorized, "The verification session is invalid."⟩)
        | some identity => issue env s identity caller
  | _ =>
    (s, .error ⟨.unauthorized, "The verification session has expired. Please sign in again."⟩)

/-! ### OAuth sign-in -/

/-- `_oauth_provider`. -/
def notConfigured (providerKey : String) : AppError :=
  ⟨.featureNotConfigured,
    "Social sign-in with '" ++ providerKey ++ "' is not configured on this deployment."⟩

/-- `start_oauth`. -/
def startOauth (s : State) (tenantId : Option Uuid) (providerKey : String) (state : Token) :
    Outcome :=
  if providerKey ∉ env.oauthProviders then (s, .error (notConfigured providerKey))
  else
    ({ s with
        redis := s.redis.set (.oauthState (env.hashToken state))
          (.oauthState tenantId providerKey) (some oauthStateTtlSeconds) },
      .ok (.authorization state))

/-- `OAuthIdentityRepository.get_by_subject`. -/
def getBySubject (db : Db) (tenantId : Option Uuid) (provider subject : String) :
    Option OAuthIdentity :=
  db.oauthIdentities.find? fun o =>
    o.tenantId = tenantId ∧ o.provider = provider ∧ o.subject = subject

/-- The link row of an account that signed in with a provider. -/
def linkOf (tenantId : Uuid) (providerKey : String) (profile : OAuthProfile) (userId : Uuid) :
    OAuthIdentity where
  userId := userId
  tenantId := some tenantId
  provider := providerKey
  subject := profile.subject
  email := profile.email

/-- The end of `_link_or_create_oauth_account`: the link is stored, and an address the
provider verified counts as verified. -/
def linkAccount (db : Db) (now : DateTime) (tenantId : Uuid) (providerKey : String)
    (profile : OAuthProfile) (identity : UserIdentity) : Db :=
  { db with
    users :=
      if profile.emailVerified then markEmailVerified db.users now (some tenantId) identity.id
      else db.users
    oauthIdentities := linkOf tenantId providerKey profile identity.id :: db.oauthIdentities }

/-- `_link_or_create_oauth_account`. `id` and `passwordHash` are for a new account. -/
def linkOrCreateOauthAccount (db : Db) (now : DateTime) (tenantId : Uuid) (providerKey : String)
    (profile : OAuthProfile) (id : Uuid) (passwordHash : String) :
    Except AppError (Db × UserIdentity) :=
  match getBySubject db (some tenantId) providerKey profile.subject with
  | some link =>
    -- A known link: its account, whatever the address has become.
    match getIdentityIfActive db.users (some tenantId) link.userId with
    | none => .error ⟨.unauthorized, "This account is no longer active."⟩
    | some identity => .ok (db, identity)
  | none =>
    if !truthy profile.email then
      .error ⟨.conflict, "The provider did not supply an email address."⟩
    else
      let email := profile.email.getD ""
      match getIdentityByEmail db.users (some tenantId) email with
      | some identity =>
        -- An account of this address is linked only if the provider has verified the address.
        if !profile.emailVerified then
          .error ⟨.conflict, "An account already exists for this email. " ++
            "Sign in with your password instead."⟩
        else .ok (linkAccount db now tenantId providerKey profile identity, identity)
      | none =>
        if emailTaken db.users (some tenantId) email then
          .error ⟨.conflict, "This account is not active. Contact your agency administrator."⟩
        else
          let data : NewAccount :=
            { email, passwordHash, role := .buyerRenter
              firstName := profile.firstName, lastName := profile.lastName }
          match createAccount db.users id (some tenantId) data with
          | .error e => .error e
          | .ok (users, user) =>
            .ok (linkAccount { db with users := users } now tenantId providerKey profile
              user.toIdentity, user.toIdentity)

/-- `complete_oauth`. `exchange` is what the provider answers for the code; an error ends
the sign-in. -/
def completeOauth (s : State) (tenantId : Uuid) (providerKey : String) (state : Token)
    (exchange : Option OAuthProfile) (id : Uuid) (passwordHash : String) (caller : Caller) :
    Outcome :=
  if providerKey ∉ env.oauthProviders then (s, .error (notConfigured providerKey))
  else
    let key := TicketKey.oauthState (env.hashToken state)
    let stored := s.redis.get key
    let s := { s with redis := s.redis.del key }
    if stored.isNone then
      (s, .error ⟨.unauthorized, "The sign-in attempt has expired. Please try again."⟩)
    else if stored ≠ some (.oauthState (some tenantId) providerKey) then
      (s, .error ⟨.unauthorized, "The sign-in attempt is invalid."⟩)
    else
      match exchange with
      | none =>
        (s, .error ⟨.unauthorized, "Sign-in with this provider failed. Please try again."⟩)
      | some profile =>
        match linkOrCreateOauthAccount s.db s.redis.now tenantId providerKey profile id
          passwordHash with
        | .error e => (s, .error e)
        | .ok (db, identity) => issue env { s with db := db } identity caller

/-! ### Requests -/

/-- The requests of the flows, and the account changes between them. -/
inductive Request where
  | register (tenantId id : Uuid) (data : NewAccount) (breached : Bool) (caller : Caller)
  | login (tenantId : Option Uuid) (email password : String) (locked : Bool) (mfaToken : Token)
      (caller : Caller)
  | verifyMfa (tenantId : Option Uuid) (mfaToken : Token) (code : String) (caller : Caller)
  | startOauth (tenantId : Option Uuid) (providerKey : String) (state : Token)
  | completeOauth (tenantId : Uuid) (providerKey : String) (state : Token)
      (exchange : Option OAuthProfile) (id : Uuid) (passwordHash : String) (caller : Caller)
  | createStaff (id : Uuid) (data : NewAccount)
  | account (tenantId : Option Uuid) (userId : Uuid) (change : AccountChange)

/-- The id a request gives an account it may create. -/
def Request.newId : Request → Option Uuid
  | .register _ id .. => some id
  | .completeOauth _ _ _ _ id .. => some id
  | .createStaff id _ => some id
  | _ => none

/-- A request runs alone. -/
def Request.handle (s : State) : Request → Outcome
  | .register tenantId id data breached caller =>
    Login.register env s tenantId id data breached caller
  | .login tenantId email password locked mfaToken caller =>
    Login.login env s tenantId email password locked mfaToken caller
  | .verifyMfa tenantId mfaToken code caller =>
    Login.verifyMfa env s tenantId mfaToken code caller
  | .startOauth tenantId providerKey state => Login.startOauth env s tenantId providerKey state
  | .completeOauth tenantId providerKey state exchange id passwordHash caller =>
    Login.completeOauth env s tenantId providerKey state exchange id passwordHash caller
  | .createStaff id data =>
    match createAccount s.db.users id none data with
    | .error e => (s, .error e)
    | .ok (users, _) => ({ s with db := { s.db with users := users } }, .ok .done)
  | .account tenantId userId change =>
    match change.apply env.verifiers s.db.users s.redis.now tenantId userId with
    | .error e => (s, .error e)
    | .ok users => ({ s with db := { s.db with users := users } }, .ok .done)

/-- The end of a request: an error rolls the database back. -/
def settle (before : State) : Outcome → State
  | (after, .ok _) => { after with requests := before.requests + 1 }
  | (after, .error _) => { after with db := before.db, requests := before.requests + 1 }

end Login

end Auth

end RealEstate
