import RealEstate.Auth.SecondFactor

/-!
# The sign-ins of one agency (`modules/auth/service.py`)

`register`, `verify_email`, `login` and `complete_oauth`, called by several
parties in any order and at any pace.

- `State` puts beside the deployment what each party has: the passwords it set
  or signed in with, the sessions it was given, the accounts it was let in to,
  the addresses it proved control of. None of the functions reads them.
- `accountOf`: the columns of an account that a sign-in reads. A login and a
  verified address stamp others (`accounts_updateUser`).
- `register_cases`, `login_cases`, `completeOauth_cases`, `linkOrCreate_cases`:
  what each flow does to the accounts and the links.
-/

namespace RealEstate

namespace Auth

namespace SignIns

open RealEstate.Core Users Systems Login

/-! ### The deployment and the parties -/

/-- One agency of a deployment. `owner` is who owns an account at a provider. -/
structure Deployment (Party : Type) where
  env : Env
  tenantId : Uuid
  emailVerificationTtlSeconds : Nat := 86400
  owner : (providerKey subject : String) → Party

/-- `complete_oauth` returned the account to `party`, for whom the provider had verified the
account's address. -/
structure Return (Party : Type) where
  party : Party
  userId : Uuid
  email : String
  deriving DecidableEq

/-- The deployment, the codes under `_VERIFY_KEY`, and what every party has.

- `held`: the passwords it registered an account or signed in to it with.
- `opened`: the sessions it was given; `entered`: the accounts a call returned to it.
- `proved`: the addresses it proved control of, by an e-mail code or a provider.
- `returned`: what the last call did, if it was such a `complete_oauth`. -/
structure State (Party : Type) where
  flows : Login.State
  verifications : Store Digest Uuid
  held : List (Party × Uuid × String) := []
  opened : List (Party × AuthSession) := []
  entered : List (Party × Uuid) := []
  proved : List (Party × String) := []
  returned : Option (Return Party) := none

variable {Party : Type} (d : Deployment Party)

/-! ### E-mail codes -/

/-- `send_email_verification`; `token` is the code the e-mail carries. -/
def sendEmailVerification (verifications : Store Digest Uuid) (identity : UserIdentity)
    (token : Token) : Store Digest Uuid :=
  if identity.emailVerifiedAt.isSome then verifications
  else
    verifications.set (d.env.hashToken token) identity.id (some d.emailVerificationTtlSeconds)

/-- `verify_email`, with the account whose address it verified. `_consume_token` spends the
code first. -/
def verifyEmail (users : List User) (verifications : Store Digest Uuid) (token : Token) :
    Store Digest Uuid × Except AppError (List User × UserIdentity) :=
  let key := d.env.hashToken token
  let value := verifications.get key
  -- spent, whatever comes of it
  let verifications := verifications.del key
  match value with
  | none => (verifications, .error ⟨.unauthorized, "The token is invalid or has expired."⟩)
  | some userId =>
    match get users (some d.tenantId) userId with
    | none =>
      (verifications,
        .error ⟨.unauthorized, "The verification token is invalid or has expired."⟩)
    | some user =>
      (verifications, .ok
        (markEmailVerified users verifications.now (some d.tenantId) userId, user.toIdentity))

/-! ### The calls -/

/-- A call by a party, or time passing. Who completes a social sign-in is who owns the account
at the provider. -/
inductive Label (Party : Type) where
  | register (party : Party) (id : Uuid) (data : NewAccount) (password : String)
      (breached : Bool) (token : Token) (caller : Caller)
  | verifyEmail (party : Party) (token : Token)
  | login (party : Party) (email password : String) (locked : Bool) (mfaToken : Token)
      (caller : Caller)
  | startOauth (providerKey : String) (state : Token)
  | completeOauth (providerKey : String) (state : Token) (exchange : Option OAuthProfile)
      (id : Uuid) (passwordHash : String) (caller : Caller)
  | wait (seconds : Nat)

/-- The account a flow returned, with tokens for it. -/
def admitted : Outcome → Option UserIdentity
  | (_, .ok (.tokens identity _)) => some identity
  | _ => none

/-- A call that returned no account. -/
def State.settle (s : State Party) (outcome : Outcome) : State Party :=
  { s with flows := Login.settle s.flows outcome, returned := none }

/-- A call that returned an account to a party. -/
def State.enter (s : State Party) (outcome : Outcome) (party : Party) (identity : UserIdentity)
    (caller : Caller) : State Party :=
  { s.settle outcome with
    opened := (party, issueSession d.env.settings s.flows.redis.now identity caller.client
      (d.env.hashToken caller.refreshToken) caller.familyId) :: s.opened
    entered := (party, identity.id) :: s.entered }

/-- The party signed in to the account with a password it has. -/
def State.hold (s : State Party) (party : Party) (userId : Uuid) (password : String) :
    State Party :=
  { s with held := (party, userId, password) :: s.held }

/-- The provider's word on the address counts as proof, and `returned` notes that it was the
account's. -/
def State.vouch (s : State Party) (party : Party) (profile : OAuthProfile)
    (identity : UserIdentity) : State Party :=
  if profile.emailVerified then
    { s with
      proved := profile.email.toList.map (party, ·) ++ s.proved
      returned :=
        if profile.email = some identity.email then some ⟨party, identity.id, identity.email⟩
        else none }
  else s

/-- The calls of one agency. A password verifies against the hash `register` stored for it. -/
def signIns : Machine (State Party) (Label Party) where
  init s := s = { flows := ⟨⟨[], [], []⟩, .empty, [], 0⟩, verifications := .empty }
  step s
    | .register party id data password breached token caller =>
      if freshId s.flows.db.users (some id) ∧
          d.env.verifiers.verifyPassword password data.passwordHash then
        -- A registration proves nothing; whoever registers knows the password.
        let outcome := Login.register d.env s.flows d.tenantId id data breached caller
        match admitted outcome with
        | none => some (s.settle outcome)
        | some identity =>
          some { (s.enter d outcome party identity caller).hold party identity.id password with
            verifications := sendEmailVerification d s.verifications identity token }
      else none
    | .verifyEmail party token =>
      match verifyEmail d s.flows.db.users s.verifications token with
      | (verifications, .error _) => some { s with verifications, returned := none }
      | (verifications, .ok (users, identity)) =>
        some { s with
          flows := { s.flows with db := { s.flows.db with users } }
          verifications
          -- Who follows the link of the mail reads the mail of the address.
          proved := (party, identity.email) :: s.proved
          returned := none }
    | .login party email password locked mfaToken caller =>
      let outcome :=
        Login.login d.env s.flows (some d.tenantId) email password locked mfaToken caller
      match admitted outcome with
      | none => some (s.settle outcome)
      | some identity =>
        some ((s.enter d outcome party identity caller).hold party identity.id password)
    | .startOauth providerKey state =>
      some (s.settle (Login.startOauth d.env s.flows (some d.tenantId) providerKey state))
    | .completeOauth providerKey state exchange id passwordHash caller =>
      if freshId s.flows.db.users (some id) then
        let outcome := Login.completeOauth d.env s.flows d.tenantId providerKey state exchange id
          passwordHash caller
        match exchange, admitted outcome with
        | some profile, some identity =>
          -- Who logs in at a provider owns the subject there.
          let party := d.owner providerKey profile.subject
          some ((s.enter d outcome party identity caller).vouch party profile identity)
        | _, _ => some (s.settle outcome)
      else none
    | .wait seconds =>
      some { s with
        flows := { s.flows with redis := s.flows.redis.wait seconds }
        verifications := s.verifications.wait seconds
        returned := none }

/-! ### What the flows do to the accounts -/

/-- The columns of `users` that a sign-in reads. -/
structure Account where
  id : Uuid
  tenantId : Option Uuid
  email : String
  passwordHash : String
  status : UserStatus
  deletedAt : Option DateTime
  mfaEnabled : Bool

/-- What of a user bears on access. -/
def accountOf (user : User) : Account where
  id := user.id
  tenantId := user.tenantId
  email := user.email
  passwordHash := user.passwordHash
  status := user.status
  deletedAt := user.deletedAt
  mfaEnabled := user.mfaEnabled

/-- A write that stamps a row leaves what a sign-in reads. -/
theorem accounts_updateUser (users : List User) (userId : Uuid) {f : User → User}
    (hf : ∀ u, accountOf (f u) = accountOf u) :
    (updateUser users userId f).map accountOf = users.map accountOf := by
  rw [updateUser, List.map_map]
  refine List.map_congr_left fun u _ => ?_
  show accountOf (if u.id = userId then f u else u) = accountOf u
  split
  · exact hf u
  · rfl

/-- A verified address is no new account. -/
theorem accounts_markEmailVerified (users : List User) (now : DateTime)
    (tenantId : Option Uuid) (userId : Uuid) :
    (markEmailVerified users now tenantId userId).map accountOf = users.map accountOf := by
  unfold markEmailVerified
  split
  · rfl
  · exact accounts_updateUser users _ fun _ => rfl

/-- The row `create_account` adds, under an address that no account of the agency has. -/
theorem accountOf_createAccount {users users' : List User} {id tenantId : Uuid}
    {data : NewAccount} {user : User}
    (h : createAccount users id (some tenantId) data = .ok (users', user)) :
    users' = user :: users ∧
      accountOf user = ⟨id, some tenantId, data.email, data.passwordHash, .active, none, false⟩ ∧
      ∀ u ∈ users, u.tenantId = some tenantId → u.email ≠ data.email := by
  unfold createAccount at h
  split at h
  · cases h
  · split at h
    · cases h
    · split at h
      · cases h
      · next hunique =>
        cases h
        refine ⟨rfl, rfl, fun u hu htenant hemail => hunique ?_⟩
        exact List.any_eq_true.mpr ⟨u, hu, decide_eq_true ⟨htenant, hemail⟩⟩

/-- `register` fails, or adds one account and a session. -/
theorem register_cases (env : Env) (s : Login.State) (tenantId id : Uuid) (data : NewAccount)
    (breached : Bool) (caller : Caller) :
    (∃ e, Login.register env s tenantId id data breached caller = (s, .error e)) ∨
      ∃ users user, createAccount s.db.users id (some tenantId) data = .ok (users, user) ∧
        Login.register env s tenantId id data breached caller =
          issue env { s with db := { s.db with users } } user.toIdentity caller := by
  unfold Login.register
  split
  · exact .inl ⟨_, rfl⟩
  · split
    · exact .inl ⟨_, rfl⟩
    · next users user hcreate => exact .inr ⟨users, user, hcreate, rfl⟩

/-- The row a password login finds; the login stamps it. -/
theorem row_of_verifyCredentials {v : Verifiers} {users users' : List User} {now : DateTime}
    {tenantId : Option Uuid} {email password : String} {identity : UserIdentity}
    (h : verifyCredentials v users now tenantId email password = some (users', identity)) :
    ∃ user ∈ users, v.verifyPassword password user.passwordHash = true ∧
      users'.map accountOf = users.map accountOf ∧ identity = user.toIdentity := by
  rw [verifyCredentials, Option.bind_eq_some_iff] at h
  obtain ⟨user, huser, hcheck⟩ := h
  split at hcheck
  · next hok =>
    cases hcheck
    refine ⟨user, List.mem_of_find?_eq_some huser, hok.1, ?_, rfl⟩
    exact accounts_updateUser users user.id fun _ => rfl
  · cases hcheck

/-- A login without a second factor is refused, or issues tokens for the row it finds. -/
theorem login_cases {s : Login.State} (hplain : ∀ user ∈ s.db.users, user.mfaEnabled = false)
    (env : Env) (tenantId : Option Uuid) (email password : String) (locked : Bool)
    (mfaToken : Token) (caller : Caller) :
    (∃ e, Login.login env s tenantId email password locked mfaToken caller = (s, .error e)) ∨
      ∃ users, ∃ user ∈ s.db.users,
        env.verifiers.verifyPassword password user.passwordHash = true ∧
        users.map accountOf = s.db.users.map accountOf ∧
        Login.login env s tenantId email password locked mfaToken caller =
          issue env { s with db := { s.db with users } } user.toIdentity caller := by
  unfold Login.login
  split
  · exact .inl ⟨_, rfl⟩
  · split
    · exact .inl ⟨_, rfl⟩
    · next users identity hverify =>
      obtain ⟨user, hmem, hpassword, hsame, rfl⟩ := row_of_verifyCredentials hverify
      refine .inr ⟨users, user, hmem, hpassword, hsame, ?_⟩
      have hfirst : ¬mfaRequired user.toIdentity = true := by
        show ¬user.mfaEnabled = true
        simp [hplain user hmem]
      exact if_neg hfirst

/-- `complete_oauth` fails, or signs in an account that is linked, or new. -/
theorem completeOauth_cases (env : Env) (s : Login.State) (tenantId : Uuid)
    (providerKey : String) (state : Token) (exchange : Option OAuthProfile) (id : Uuid)
    (passwordHash : String) (caller : Caller) :
    (∃ after e, Login.completeOauth env s tenantId providerKey state exchange id passwordHash
        caller = (after, .error e)) ∨
      ∃ profile db identity, exchange = some profile ∧ providerKey ∈ env.oauthProviders ∧
        s.redis.get (.oauthState (env.hashToken state)) =
          some (.oauthState (some tenantId) providerKey) ∧
        linkOrCreateOauthAccount s.db s.redis.now tenantId providerKey profile id passwordHash =
          .ok (db, identity) ∧
        Login.completeOauth env s tenantId providerKey state exchange id passwordHash caller =
          issue env { s with
            db, redis := s.redis.del (.oauthState (env.hashToken state)) } identity caller := by
  unfold Login.completeOauth
  split
  · exact .inl ⟨_, _, rfl⟩
  · next hprovider =>
    dsimp only
    split
    · exact .inl ⟨_, _, rfl⟩
    · split
      · exact .inl ⟨_, _, rfl⟩
      · next hticket =>
        cases exchange with
        | none => exact .inl ⟨_, _, rfl⟩
        | some profile =>
          -- The provider is configured, the ticket is good, and the exchange succeeded.
          dsimp only
          split
          · exact .inl ⟨_, _, rfl⟩
          · next db identity hlink =>
            exact .inr ⟨profile, db, identity, rfl, not_not.mp hprovider, not_not.mp hticket,
              hlink, rfl⟩

/-- The three cases of `_link_or_create_oauth_account`, in its order. -/
theorem linkOrCreate_cases {db db' : Db} {now : DateTime} {tenantId id : Uuid}
    {providerKey passwordHash : String} {profile : OAuthProfile} {identity : UserIdentity}
    (h : linkOrCreateOauthAccount db now tenantId providerKey profile id passwordHash =
      .ok (db', identity)) :
    (∃ link, getBySubject db (some tenantId) providerKey profile.subject = some link ∧
        getIdentityIfActive db.users (some tenantId) link.userId = some identity ∧ db' = db) ∨
      getBySubject db (some tenantId) providerKey profile.subject = none ∧
        ((getIdentityByEmail db.users (some tenantId) (profile.email.getD "") = some identity ∧
            oauthAccount db tenantId providerKey profile = some identity ∧
            db' = linkAccount db now tenantId providerKey profile identity) ∨
          ∃ users user data, createAccount db.users id (some tenantId) data = .ok (users, user) ∧
            oauthAccount db tenantId providerKey profile = none ∧ identity = user.toIdentity ∧
            db' = linkAccount { db with users } now tenantId providerKey profile identity) := by
  unfold linkOrCreateOauthAccount at h
  unfold oauthAccount
  cases hsubject : getBySubject db (some tenantId) providerKey profile.subject with
  | some link =>
    simp only [hsubject] at h ⊢
    split at h
    · cases h
    · next hidentity =>
      cases h
      exact .inl ⟨link, rfl, hidentity, rfl⟩
  | none =>
    refine .inr ⟨rfl, ?_⟩
    simp only [hsubject] at h ⊢
    split at h
    · cases h
    · next hemail =>
      rw [Bool.not_eq_true, Bool.not_eq_false'] at hemail
      split at h
      -- an account has the address: the provider must have verified it
      · next hexisting =>
        split at h
        · cases h
        · next hverified =>
          cases h
          rw [Bool.not_eq_true, Bool.not_eq_false'] at hverified
          exact .inl ⟨hexisting, by rw [hemail, hverified]; exact hexisting, rfl⟩
      · next hnone =>
        split at h
        · cases h
        · split at h
          · cases h
          · next users user hcreate =>
            cases h
            exact .inr ⟨users, user, _, hcreate, by rw [hnone, ite_self], rfl, rfl⟩

/-- Linking is no new account either. -/
theorem accounts_linkAccount (db : Db) (now : DateTime) (tenantId : Uuid) (providerKey : String)
    (profile : OAuthProfile) (identity : UserIdentity) :
    (linkAccount db now tenantId providerKey profile identity).users.map accountOf =
      db.users.map accountOf := by
  unfold linkAccount
  dsimp only
  split
  · exact accounts_markEmailVerified db.users now (some tenantId) identity.id
  · rfl

/-- A redeemed code stamps the account it was sent for. -/
theorem accounts_verifyEmail {d : Deployment Party} {users users' : List User}
    {verifications verifications' : Store Digest Uuid} {token : Token} {identity : UserIdentity}
    (h : verifyEmail d users verifications token = (verifications', .ok (users', identity))) :
    users'.map accountOf = users.map accountOf := by
  unfold verifyEmail at h
  dsimp only at h
  split at h
  · cases h
  · split at h
    · cases h
    · cases h
      exact accounts_markEmailVerified users _ (some d.tenantId) _

/-- An identity is found by its address in a row. -/
theorem row_of_identityByEmail {users : List User} {tenantId : Option Uuid} {email : String}
    {identity : UserIdentity} (h : getIdentityByEmail users tenantId email = some identity) :
    ∃ user ∈ users, user.toIdentity = identity := by
  rw [getIdentityByEmail, activeIdentity, Option.bind_eq_some_iff] at h
  obtain ⟨user, huser, hactive⟩ := h
  split at hactive
  · exact ⟨user, List.mem_of_find?_eq_some huser, Option.some.inj hactive⟩
  · cases hactive

end SignIns

end Auth

end RealEstate
