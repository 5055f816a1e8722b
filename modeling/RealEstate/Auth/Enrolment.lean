import RealEstate.Auth.SecondFactor

/-!
# Enrolment of a second factor from a hijacked session

Somebody else's requests on an account, with a valid access token of the account
but neither its password nor a code of its live secret (`Ignorant`), in any order
with the requests of everybody: the login flows, the account changes, the owner's
own enrolments.

- `factor`: the live secret of an account and whether it is asked for.
- `Same`: the factor of the account survives a request. `same_handle` proves it of
  every request but the two that are about the live factor.
- `Confirms`: a confirmation with a code of the pending secret.
  `factor_step_iff`: in the hijacked session, such a step changes the factor and
  no other does. `factor_kept`: the factor of every run without one.
- `swapped_factor`: enrol and confirm.
-/

namespace RealEstate

namespace Auth

namespace Enrolment

open RealEstate.Core Users Systems Login

/-- The live secret of an account, and `mfa_enabled`. -/
def factor (users : List User) (account : Uuid) : Option (Option String × Bool) :=
  (users.find? fun u => u.id = account).map fun u => (u.mfaSecret, u.mfaEnabled)

/-- The account keeps its factor from one state of the table to the next. -/
def Same (account : Uuid) (users users' : List User) : Prop :=
  ∀ f, factor users account = some f → factor users' account = some f

namespace Same

variable {account : Uuid} {users users' users'' : List User}

theorem refl : Same account users users := fun _ h => h

theorem trans (h₁ : Same account users users') (h₂ : Same account users' users'') :
    Same account users users'' := fun f hf => h₂ f (h₁ f hf)

/-- An update of other columns, or of another row. -/
theorem updateUser (userId : Uuid) {f : User → User} (hid : ∀ u, (f u).id = u.id)
    (hf : userId = account → ∀ u, (f u).mfaSecret = u.mfaSecret ∧ (f u).mfaEnabled = u.mfaEnabled) :
    Same account users (updateUser users userId f) := by
  intro x hx
  rw [factor, Option.map_eq_some_iff] at hx
  obtain ⟨user, huser, hval⟩ := hx
  have hpred : ((fun u : User => decide (u.id = account)) ∘ fun u =>
      if u.id = userId then f u else u) = fun u => decide (u.id = account) := by
    funext u
    show decide ((if u.id = userId then f u else u).id = account) = decide (u.id = account)
    split
    · rw [hid]
    · rfl
  rw [factor, Users.updateUser, List.find?_map, hpred, huser, Option.map_some, Option.map_some,
    ← hval]
  have haccount : user.id = account := by simpa using List.find?_some huser
  split
  · next heq =>
    obtain ⟨hsecret, henabled⟩ := hf (heq.symm.trans haccount) user
    rw [hsecret, henabled]
  · rfl

theorem id_of_get {tenantId : Option Uuid} {userId : Uuid} {user : User}
    (h : get users tenantId userId = some user) : user.id = userId := by
  have hpred := List.find?_some h
  simp only [decide_eq_true_eq] at hpred
  exact hpred.2.1

/-- An update of another account, or of other columns. -/
theorem updateOr404 {tenantId : Option Uuid} {userId : Uuid} {f : User → User}
    (h : updateOr404 users tenantId userId f = .ok users') (hid : ∀ u, (f u).id = u.id)
    (hf : userId = account → ∀ u, (f u).mfaSecret = u.mfaSecret ∧ (f u).mfaEnabled = u.mfaEnabled) :
    Same account users users' := by
  unfold Users.updateOr404 at h
  split at h
  · cases h
  · next user huser =>
    cases h
    rw [id_of_get huser]
    exact .updateUser userId hid hf

theorem markEmailVerified (now : DateTime) (tenantId : Option Uuid) (userId : Uuid) :
    Same account users (markEmailVerified users now tenantId userId) := by
  unfold Users.markEmailVerified
  split
  · exact .refl
  · exact .updateUser _ (fun _ => rfl) fun _ _ => ⟨rfl, rfl⟩

/-- A new account has an id of its own. -/
theorem createAccount {id : Uuid} {tenantId : Option Uuid} {data : NewAccount} {user : User}
    (hfresh : id ∉ users.map (·.id))
    (h : createAccount users id tenantId data = .ok (users', user)) :
    Same account users users' := by
  obtain ⟨rfl, hid, -⟩ := createAccount_eq_ok h
  intro x hx
  rw [factor, Option.map_eq_some_iff] at hx
  obtain ⟨owner, howner, hval⟩ := hx
  have haccount : owner.id = account := by simpa using List.find?_some howner
  have hne : user.id ≠ account := by
    rw [hid, ← haccount]
    rintro rfl
    exact hfresh (List.mem_map.2 ⟨owner, List.mem_of_find?_eq_some howner, rfl⟩)
  rw [factor, List.find?_cons_of_neg (by simpa using hne), howner, ← hval]
  rfl

/-- A login by password writes its time only. -/
theorem verifyCredentials {v : Verifiers} {now : DateTime} {tenantId : Option Uuid}
    {email password : String} {identity : UserIdentity}
    (h : verifyCredentials v users now tenantId email password = some (users', identity)) :
    Same account users users' := by
  rw [Users.verifyCredentials, Option.bind_eq_some_iff] at h
  obtain ⟨user, -, h⟩ := h
  split at h
  · cases h
    exact .updateUser _ (fun _ => rfl) fun _ _ => ⟨rfl, rfl⟩
  · cases h

end Same

/-! ### Requests that are not about the live factor -/

/-- The two account changes that set or clear the live factor of the account. -/
def changesFactor (account userId : Uuid) : AccountChange → Bool
  | .confirmMfaEnrolment _ => userId = account
  | .disableMfa _ => userId = account
  | _ => false

/-- The two requests that change an account's factor. -/
def Request.changesFactor (account : Uuid) : Request → Bool
  | .account _ userId change => Enrolment.changesFactor account userId change
  | _ => false

section Requests

variable {env : Env} {s : Login.State} {account : Uuid}

/-- A change of an account other than by the two requests leaves its factor. -/
theorem same_apply {v : Verifiers} {users users' : List User} {now : DateTime}
    {tenantId : Option Uuid} {userId : Uuid} {change : AccountChange}
    (hother : changesFactor account userId change = false)
    (h : change.apply v users now tenantId userId = .ok users') : Same account users users' := by
  cases change with
  | beginMfaEnrolment secret => exact .updateOr404 h (fun _ => rfl) fun _ _ => ⟨rfl, rfl⟩
  | updateProfile firstName lastName phone locale =>
    exact .updateOr404 h (fun _ => rfl) fun _ _ => ⟨rfl, rfl⟩
  | confirmMfaEnrolment code =>
    simp only [AccountChange.apply] at h
    split at h
    · cases h
    · next user huser =>
      have hid := Same.id_of_get huser
      split at h
      · cases h
      · split at h
        · cases h
        · cases h
          -- The code was checked against the other account's own secret.
          exact .updateUser _ (fun _ => rfl) fun heq =>
            absurd (hid.symm.trans heq) (of_decide_eq_false hother)
  | disableMfa password =>
    simp only [AccountChange.apply] at h
    split at h
    · cases h
    · exact .updateOr404 h (fun _ => rfl) fun heq => absurd heq (of_decide_eq_false hother)
  | setPassword passwordHash =>
    simp only [AccountChange.apply] at h
    split at h
    · cases h
    · exact .updateOr404 h (fun _ => rfl) fun _ _ => ⟨rfl, rfl⟩
  | verifyEmail =>
    simp only [AccountChange.apply] at h
    split at h
    · cases h
    · cases h
      exact .markEmailVerified _ _ _
  | adminUpdate actorId role status =>
    simp only [AccountChange.apply] at h
    split at h
    · cases h
    · split at h
      · cases h
      · cases h
        exact .updateUser _ (fun _ => rfl) fun _ _ => ⟨rfl, rfl⟩
  | softDelete actorId =>
    simp only [AccountChange.apply] at h
    split at h
    · cases h
    · exact .updateOr404 h (fun _ => rfl) fun _ _ => ⟨rfl, rfl⟩
  | anonymizeAccount passwordHash =>
    -- Anonymising a row that is gone or done changes nothing.
    simp only [AccountChange.apply] at h
    split at h
    · cases h
      exact .refl
    · split at h
      · cases h
        exact .refl
      · cases h
        exact .updateUser _ (fun _ => rfl) fun _ _ => ⟨rfl, rfl⟩

/-- An error rolls the accounts back, so only the outcome's table matters. -/
theorem same_settle {outcome : Outcome} (h : Same account s.db.users outcome.1.db.users) :
    Same account s.db.users (settle s outcome).db.users := by
  obtain ⟨after, _ | _⟩ := outcome
  · exact .refl
  · exact h

/-- So does registering. -/
theorem same_register {tenantId id : Uuid} {data : NewAccount} {breached : Bool}
    {caller : Caller} (hfresh : id ∉ s.db.users.map (·.id)) :
    Same account s.db.users (register env s tenantId id data breached caller).1.db.users := by
  unfold register
  split
  · exact .refl
  · split
    · exact .refl
    · next hcreate => exact .createAccount hfresh hcreate

/-- And a login by password. -/
theorem same_login {tenantId : Option Uuid} {email password : String} {locked : Bool}
    {mfaToken : Token} {caller : Caller} :
    Same account s.db.users
      (login env s tenantId email password locked mfaToken caller).1.db.users := by
  unfold login
  split
  · exact .refl
  · split
    · exact .refl
    · next hverify =>
      dsimp only
      split
      · exact .verifyCredentials hverify
      · exact .verifyCredentials hverify

theorem same_verifyMfa {tenantId : Option Uuid} {mfaToken : Token} {code : String}
    {caller : Caller} :
    Same account s.db.users (verifyMfa env s tenantId mfaToken code caller).1.db.users := by
  unfold verifyMfa
  dsimp only
  split
  · split
    · exact .refl
    · unfold checkMfaCode
      split
      · next heq =>
        split at heq
        · cases heq
        · cases heq
          exact .refl
      · next heq =>
        split at heq
        · cases heq
          split
          · exact .refl
          · exact .refl
        · cases heq
  · exact .refl

theorem same_linkAccount {db : Db} {now : DateTime} {tenantId : Uuid} {providerKey : String}
    {profile : OAuthProfile} {identity : UserIdentity} :
    Same account db.users
      (linkAccount db now tenantId providerKey profile identity).users := by
  unfold linkAccount
  dsimp only
  split
  · exact .markEmailVerified _ _ _
  · exact .refl

theorem same_linkOrCreate {db db' : Db} {now : DateTime} {tenantId id : Uuid}
    {providerKey passwordHash : String} {profile : OAuthProfile} {identity : UserIdentity}
    (hfresh : id ∉ db.users.map (·.id))
    (h : linkOrCreateOauthAccount db now tenantId providerKey profile id passwordHash =
      .ok (db', identity)) : Same account db.users db'.users := by
  unfold linkOrCreateOauthAccount at h
  split at h
  · split at h
    · cases h
    · cases h
      exact .refl
  · split at h
    · cases h
    · dsimp only at h
      split at h
      · split at h
        · cases h
        · cases h
          exact same_linkAccount
      · split at h
        · cases h
        · split at h
          · cases h
          · next users user hcreate =>
            cases h
            have hcreated : Same account db.users { db with users := users }.users :=
              .createAccount hfresh hcreate
            exact hcreated.trans same_linkAccount

/-- And a login at a provider. -/
theorem same_completeOauth {tenantId id : Uuid} {providerKey passwordHash : String}
    {state : Token} {exchange : Option OAuthProfile} {caller : Caller}
    (hfresh : id ∉ s.db.users.map (·.id)) :
    Same account s.db.users
      (completeOauth env s tenantId providerKey state exchange id passwordHash
        caller).1.db.users := by
  unfold completeOauth
  split
  · exact .refl
  · dsimp only
    split
    · exact .refl
    · split
      · exact .refl
      · split
        · exact .refl
        · split
          · exact .refl
          · next db identity hlink =>
            have hlinked : Same account s.db.users db.users := same_linkOrCreate hfresh hlink
            exact hlinked

/-- **What requests leave alone**: all of them but a confirmation or a disabling of the
account's own factor. -/
theorem same_handle {r : Request} (hfresh : freshId s.db.users r.newId)
    (hother : Request.changesFactor account r = false) :
    Same account s.db.users (settle s (r.handle env s)).db.users := by
  apply same_settle
  cases r with
  | register tenantId id data breached caller =>
    exact same_register (by simpa [freshId, Request.newId] using hfresh)
  | login tenantId email password locked mfaToken caller => exact same_login
  | verifyMfa tenantId mfaToken code caller => exact same_verifyMfa
  | startOauth tenantId providerKey state =>
    simp only [Request.handle, startOauth]
    split <;> exact .refl
  | completeOauth tenantId providerKey state exchange id passwordHash caller =>
    exact same_completeOauth (by simpa [freshId, Request.newId] using hfresh)
  | createStaff id data =>
    simp only [Request.handle]
    split
    · exact .refl
    · next hcreate =>
      exact .createAccount (by simpa [freshId, Request.newId] using hfresh) hcreate
  | account tenantId userId change =>
    simp only [Request.handle]
    split
    · exact .refl
    · next happly => exact same_apply hother happly

end Requests

/-! ### The hijacked session -/

/-- A request with the stolen access token: enrol, confirm or disable. A new secret is
drawn by the server. -/
inductive Attack where
  | begin (secret : String)
  | confirm (code : String)
  | disable (password : String)

/-- The account change behind the route. -/
def Attack.change : Attack → AccountChange
  | .begin secret => .beginMfaEnrolment secret
  | .confirm code => .confirmMfaEnrolment code
  | .disable password => .disableMfa password

/-- Whoever sends the request knows neither the password nor a code of the live secret. -/
def ignorant (env : Env) (tenantId : Option Uuid) (account : Uuid) (s : Login.State) :
    Attack → Bool
  | .begin _ => true
  | .confirm code =>
    match factor s.db.users account with
    | some (some secret, _) => !env.verifiers.verifyTotp secret code s.redis.now
    | _ => true
  | .disable password => !checkPassword env.verifiers s.db.users tenantId account password

/-- A request on the stolen token, or anybody's. -/
inductive Label where
  | attack (a : Attack)
  | other (l : Login.Label)

/-- The owner's requests do not change the factor, and nobody else's do. -/
def leavesFactor (account : Uuid) : Login.Label → Bool
  | .request r => !Request.changesFactor account r
  | .wait _ => true

/-- The hijacked session and everybody's requests, from a given state on. -/
def hijacked (env : Env) (tenantId : Option Uuid) (account : Uuid) (s₀ : Login.State) :
    Machine Login.State Label where
  init s := s = s₀
  step s
    | .attack a =>
      if ignorant env tenantId account s a then
        some (settle s ((Request.account tenantId account a.change).handle env s))
      else none
    | .other l => if leavesFactor account l then (loginFlows env).step s l else none

/-- The code confirms the pending secret. -/
def confirms (env : Env) (tenantId : Option Uuid) (account : Uuid) (s : Login.State) :
    Label → Bool
  | .attack (.confirm code) =>
    (get s.db.users tenantId account).any fun user =>
      truthy user.mfaPendingSecret &&
        env.verifiers.verifyTotp (user.mfaPendingSecret.getD "") code s.redis.now
  | _ => false

section Hijacked

variable {env : Env} {tenantId : Option Uuid} {account : Uuid} {s₀ s t : Login.State}

/-- One step: a request of the session, sent in ignorance, or a step of the login flows. -/
theorem hijacked_step {l : Label} (h : (hijacked env tenantId account s₀).step s l = some t) :
    (∃ a, l = .attack a ∧ ignorant env tenantId account s a = true ∧
        t = settle s ((Request.account tenantId account a.change).handle env s)) ∨
      ∃ l', l = .other l' ∧ leavesFactor account l' = true ∧
        (loginFlows env).step s l' = some t := by
  cases l with
  | attack a =>
    simp only [hijacked] at h
    split at h
    · next hi => exact .inl ⟨a, rfl, hi, (Option.some.inj h).symm⟩
    · cases h
  | other l =>
    simp only [hijacked] at h
    split at h
    · next hl => exact .inr ⟨l, rfl, hl, h⟩
    · cases h

/-- And every step that is not one of the two. -/
theorem same_other {l : Login.Label} (hl : leavesFactor account l = true)
    (h : (loginFlows env).step s l = some t) : Same account s.db.users t.db.users := by
  obtain ⟨r, rfl, hfresh, rfl⟩ | ⟨seconds, rfl, rfl⟩ := loginFlows_step h
  · exact same_handle hfresh (by simpa [leavesFactor] using hl)
  · exact .refl

/-- A change that is refused leaves the accounts as they were. -/
theorem same_of_error {change : AccountChange} {e : AppError}
    (h : change.apply env.verifiers s.db.users s.redis.now tenantId account = .error e) :
    Same account s.db.users
      (settle s ((Request.account tenantId account change).handle env s)).db.users := by
  apply same_settle
  simp only [Request.handle, h]
  exact .refl

/-- Without a confirmation, the session changes nothing of the factor. -/
theorem same_attack {a : Attack} (hi : ignorant env tenantId account s a = true)
    (hno : confirms env tenantId account s (.attack a) = false) :
    Same account s.db.users
      (settle s ((Request.account tenantId account a.change).handle env s)).db.users := by
  cases a with
  | begin secret => exact same_handle rfl rfl
  | confirm code =>
    -- Without the pending secret no code confirms it: the request fails.
    have herror : ∃ e, (Attack.confirm code).change.apply env.verifiers s.db.users s.redis.now
        tenantId account = .error e := by
      simp only [Attack.change, AccountChange.apply]
      cases hget : get s.db.users tenantId account with
      | none => exact ⟨_, rfl⟩
      | some user =>
        simp only [confirms, hget, Option.any_some, Bool.and_eq_false_iff] at hno
        dsimp only
        rcases hno with hnone | hcode
        · rw [hnone]
          exact ⟨_, rfl⟩
        · split
          · exact ⟨_, rfl⟩
          · rw [hcode]
            exact ⟨_, rfl⟩
    obtain ⟨e, he⟩ := herror
    exact same_of_error he
  | disable password =>
    simp only [ignorant, Bool.not_eq_true'] at hi
    -- A password that is not the account's is refused.
    refine same_of_error (e := ⟨.unauthorized, "The password is incorrect."⟩) ?_
    simp only [Attack.change, AccountChange.apply, hi]
    rfl

/-- The factor survives every step that is not a confirmation. -/
theorem same_step {l : Label} (h : (hijacked env tenantId account s₀).step s l = some t)
    (hno : confirms env tenantId account s l = false) : Same account s.db.users t.db.users := by
  obtain ⟨a, rfl, hi, rfl⟩ | ⟨l, rfl, hl, hst⟩ := hijacked_step h
  · exact same_attack hi hno
  · exact same_other hl hst

/-- The factor of an account is that of its row. -/
theorem factor_of_mem {users : List User} (hu : UniqueIds users) {user : User}
    (h : user ∈ users) : factor users user.id = some (user.mfaSecret, user.mfaEnabled) := by
  have hfind : (users.find? fun u => decide (u.id = user.id)) = some user :=
    find?_of_nodup_map hu h (decide_eq_true rfl) fun _ hr => of_decide_eq_true hr
  rw [factor, hfind, Option.map_some]

/-- A confirmed code makes the pending secret the live one. -/
theorem factor_of_confirms (hu : UniqueIds s.db.users) {code : String}
    (h : confirms env tenantId account s (.attack (.confirm code)) = true) :
    ∃ secret, env.verifiers.verifyTotp secret code s.redis.now = true ∧
      factor (settle s ((Request.account tenantId account (.confirmMfaEnrolment code)).handle
        env s)).db.users account = some (some secret, true) := by
  simp only [confirms, Option.any_eq_true, Bool.and_eq_true] at h
  obtain ⟨user, hget, hpending, hcode⟩ := h
  have hid : user.id = account := Same.id_of_get hget
  obtain ⟨secret, hsecret⟩ : ∃ secret, user.mfaPendingSecret = some secret := by
    cases hp : user.mfaPendingSecret with
    | none => simp [hp, truthy] at hpending
    | some secret => exact ⟨secret, rfl⟩
  refine ⟨secret, by simpa [hsecret] using hcode, ?_⟩
  -- The confirmation promotes the pending secret, and the row is found again by its id.
  have happly : (AccountChange.confirmMfaEnrolment code).apply env.verifiers s.db.users
      s.redis.now tenantId account =
        .ok (updateUser s.db.users user.id (·.promoteFactor s.redis.now)) := by
    simp only [AccountChange.apply, hget, hpending, hcode]
    rfl
  have hrow : user.promoteFactor s.redis.now ∈
      updateUser s.db.users user.id (·.promoteFactor s.redis.now) := by
    refine List.mem_map.2 ⟨user, List.mem_of_find?_eq_some hget, ?_⟩
    exact if_pos rfl
  have hunique : UniqueIds (updateUser s.db.users user.id (·.promoteFactor s.redis.now)) :=
    hu.updateUser user.id fun _ => rfl
  have hfactor := factor_of_mem hunique hrow
  simp only [Request.handle, happly, settle]
  rw [← hid]
  refine hfactor.trans ?_
  show some (user.mfaPendingSecret, true) = _
  rw [hsecret]

/-- In the hijacked session a step changes the factor exactly if it is a confirmation. -/
theorem factor_step_iff {l : Label} {secret : Option String} (hu : UniqueIds s.db.users)
    (hfactor : factor s.db.users account = some (secret, true))
    (h : (hijacked env tenantId account s₀).step s l = some t) :
    factor t.db.users account = some (secret, true) ↔
      confirms env tenantId account s l = false := by
  cases hc : confirms env tenantId account s l with
  | false => exact iff_of_true (same_step h hc _ hfactor) rfl
  | true =>
    refine iff_of_false ?_ Bool.noConfusion
    obtain ⟨a, rfl, hi, rfl⟩ | ⟨l, rfl, -, -⟩ := hijacked_step h
    · cases a with
      | begin _ => cases hc
      | disable _ => cases hc
      | confirm code =>
        obtain ⟨pending, hvalid, hnew⟩ := factor_of_confirms hu hc
        intro hsame
        have hlive : some pending = secret := by
          have heq := hnew.symm.trans hsame
          simp only [Option.some.injEq, Prod.mk.injEq, and_true] at heq
          exact heq
        -- a code of the live secret is what the session does not know
        simp only [ignorant, hfactor, ← hlive, hvalid] at hi
        cases hi
    · cases hc

/-- **The second factor of a hijacked session's account**: it is the same in every state
reached by requests none of which confirms the pending secret. -/
theorem factor_kept {secret : Option String}
    (hfactor : factor s₀.db.users account = some (secret, true))
    (h : (hijacked env tenantId account s₀).ReachVia
      (fun s l => confirms env tenantId account s l = false) s) :
    factor s.db.users account = some (secret, true) := by
  induction h with
  | init hs =>
    rw [hs]
    exact hfactor
  | step _ hno hst ih => exact same_step hst hno _ ih

end Hijacked

/-! ### Enrol, and confirm -/

/-- A code is valid for the secret it spells; no password is right. -/
def codeIsSecret : Env where
  verifiers := ⟨fun _ _ => false, fun secret code _ => secret == code⟩
  hashToken := id
  settings := default
  oauthProviders := []

/-- An account with a live second factor. -/
def enrolledAgent : Login.State where
  db :=
    { users := [{ id := 1, tenantId := some 7, email := "agent@agency.test", passwordHash := "h"
                  role := .agent, mfaSecret := some "live", mfaEnabled := true }]
      oauthIdentities := []
      sessions := [] }
  redis := .empty
  log := []
  requests := 0

/-- **A hijacked session swaps the second factor**: it enrols, is told the new secret, and
confirms it. -/
theorem swapped_factor :
    ∃ s, (hijacked codeIsSecret (some 7) 1 enrolledAgent).Reachable s ∧
      factor enrolledAgent.db.users 1 = some (some "live", true) ∧
        factor s.db.users 1 ≠ some (some "live", true) := by
  obtain ⟨s, hs, hp⟩ := Machine.exists_reachable_of_run
    (M := hijacked codeIsSecret (some 7) 1 enrolledAgent)
    [.attack (.begin "mine"), .attack (.confirm "mine")]
    (fun s => decide (factor s.db.users 1 = some (some "mine", true))) rfl (by decide)
  refine ⟨s, hs, rfl, ?_⟩
  rw [of_decide_eq_true hp]
  decide

/-- A wrong code and a wrong password leave the factor as it was. -/
theorem factor_kept_wrong_code :
    ∃ s, (hijacked codeIsSecret (some 7) 1 enrolledAgent).Reachable s ∧
      (s.db.users.map (·.mfaPendingSecret)) = [some "mine"] ∧
        factor s.db.users 1 = some (some "live", true) := by
  obtain ⟨s, hs, hp⟩ := Machine.exists_reachVia_of_run
    (M := hijacked codeIsSecret (some 7) 1 enrolledAgent)
    (G := fun s l => confirms codeIsSecret (some 7) 1 s l = false)
    [.attack (.begin "mine"), .attack (.confirm "000000"), .attack (.disable "guess")]
    (fun s => decide ((s.db.users.map (·.mfaPendingSecret)) = [some "mine"])) rfl (by decide)
  exact ⟨s, hs.reachable, of_decide_eq_true hp, factor_kept rfl hs⟩

end Enrolment

end Auth

end RealEstate
