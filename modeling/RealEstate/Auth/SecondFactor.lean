import RealEstate.Auth.Login
import RealEstate.Systems.Machine

/-!
# Second-factor enforcement

Requests one after the other, in any order, over any account history.

- `Enforced log`: every family minted for an account with a live factor comes
  right after a TOTP code of that account was accepted, in the same request.
- `run_log`: all a request can add to the log, flow by flow.
- `Request.bypasses`: the OAuth sign-ins that mint for an account with a live
  factor. `reachVia_iff_enforced`: they are exactly what breaks `Enforced`.
- `oauth_skips_second_factor`: one of them.
-/

namespace RealEstate

namespace Auth

namespace Login

open RealEstate.Core Users Systems

/-! ### The machine -/

/-- A request, or time passing. -/
inductive Label where
  | request (r : Request)
  | wait (seconds : Nat)

/-- The id of a new account is drawn fresh. -/
def freshId (users : List User) : Option Uuid → Bool
  | none => true
  | some id => id ∉ users.map (·.id)

/-- The login flows, over the accounts of one deployment. -/
def loginFlows (env : Env) : Machine State Label where
  init s := s = ⟨⟨[], [], []⟩, .empty, [], 0⟩
  step s
    | .request r =>
      if freshId s.db.users r.newId then some (settle s (r.handle env s)) else none
    | .wait seconds => some { s with redis := s.redis.wait seconds }

/-- Every family minted for an account with a live factor was preceded, in its request, by
an accepted TOTP code of the account. -/
def Enforced : List Event → Prop
  | [] => True
  | .mint request userId true :: log => .totp request userId ∈ log ∧ Enforced log
  | _ :: log => Enforced log

/-- By the log. -/
instance Enforced.decidable : ∀ log, Decidable (Enforced log)
  | [] => inferInstanceAs (Decidable True)
  | .mint _ _ true :: log =>
    have := Enforced.decidable log
    inferInstanceAs (Decidable (_ ∧ _))
  | .mint _ _ false :: log => Enforced.decidable log
  | .totp _ _ :: log => Enforced.decidable log

/-- `Enforced`, mint by mint. -/
theorem enforced_iff {log : List Event} : Enforced log ↔ ∀ later earlier request userId,
    log = later ++ .mint request userId true :: earlier → .totp request userId ∈ earlier := by
  induction log with
  | nil => simp [Enforced]
  | cons e log ih =>
    constructor
    · intro h later earlier request userId hsplit
      cases later with
      | nil =>
        -- The event is the last of the log.
        obtain ⟨rfl, rfl⟩ := List.cons.inj hsplit
        exact h.1
      | cons e' later =>
        obtain ⟨rfl, hlog⟩ := List.cons.inj hsplit
        -- It lies further back; what is before it is enforced as well.
        have hrest : Enforced log := by
          unfold Enforced at h
          split at h
          · next heq => cases heq
          · next heq =>
            cases heq
            exact h.2
          · next heq =>
            cases heq
            exact h
        exact ih.mp hrest later earlier request userId hlog
    · intro h
      have hrest : Enforced log :=
        ih.mpr fun later earlier request userId hlog =>
          h (e :: later) earlier request userId (by rw [hlog, List.cons_append])
      unfold Enforced
      split
      · trivial
      · next heq =>
        cases heq
        exact ⟨h [] _ _ _ rfl, hrest⟩
      · next heq =>
        cases heq
        exact hrest

/-- What came first was enforced too. -/
theorem Enforced.of_suffix {log log' : List Event} (h : Enforced log) (hs : log' <:+ log) :
    Enforced log' := by
  obtain ⟨front, rfl⟩ := hs
  rw [enforced_iff] at h ⊢
  intro later earlier request userId hlog
  exact h (front ++ later) earlier request userId (by rw [hlog, List.append_assoc])

/-! ### What a request adds to the log -/

/-- The existing account an OAuth profile signs in to: the linked one, or the one whose
address the provider verified. -/
def oauthAccount (db : Db) (tenantId : Uuid) (providerKey : String) (profile : OAuthProfile) :
    Option UserIdentity :=
  match getBySubject db (some tenantId) providerKey profile.subject with
  | some link => getIdentityIfActive db.users (some tenantId) link.userId
  | none =>
    if truthy profile.email && profile.emailVerified then
      getIdentityByEmail db.users (some tenantId) (profile.email.getD "")
    else none

/-- The request is an OAuth sign-in, about to succeed, to an account with a live second
factor. -/
def Request.bypasses (env : Env) (s : State) : Request → Bool
  | .completeOauth tenantId providerKey state (some profile) .. =>
    providerKey ∈ env.oauthProviders &&
      s.redis.get (.oauthState (env.hashToken state)) =
        some (.oauthState (some tenantId) providerKey) &&
      (oauthAccount s.db tenantId providerKey profile).any (·.mfaEnabled)
  | _ => false

/-- What request number `request` may add to the log. -/
inductive Adds (bypasses : Bool) (request : Nat) (log : List Event) : List Event → Prop where
  | nothing : Adds bypasses request log log
  | totp (userId : Uuid) : Adds bypasses request log (.totp request userId :: log)
  | mint (userId : Uuid) (h : bypasses = false) :
      Adds bypasses request log (.mint request userId false :: log)
  | verified (userId : Uuid) (live : Bool) :
      Adds bypasses request log (.mint request userId live :: .totp request userId :: log)
  | bypassed (userId : Uuid) (h : bypasses = true) :
      Adds bypasses request log (.mint request userId true :: log)

theorem Adds.suffix {bypasses : Bool} {request : Nat} {log log' : List Event}
    (h : Adds bypasses request log log') : log <:+ log' := by
  cases h with
  | nothing => exact List.suffix_rfl
  | totp | mint | bypassed => exact List.suffix_cons _ _
  | verified => exact (List.suffix_cons _ _).trans (List.suffix_cons _ _)

/-- The outcome keeps ids unique and adds to the log as `Adds` says. -/
structure Spec (bypasses : Bool) (s : State) (outcome : Outcome) : Prop where
  ids : UniqueIds (settle s outcome).db.users
  log : Adds bypasses s.requests s.log (settle s outcome).log

section Flows

variable {env : Env} {s : State}

/-- An error leaves the accounts as they were. -/
theorem Spec.error {bypasses : Bool} {after : State} {e : AppError} (hu : UniqueIds s.db.users)
    (hlog : Adds bypasses s.requests s.log after.log) : Spec bypasses s (after, .error e) :=
  ⟨hu, hlog⟩

/-- `_issue` records the factor of the account it mints for. -/
theorem Spec.issue {bypasses : Bool} {after : State} {identity : UserIdentity} {caller : Caller}
    (hu : UniqueIds after.db.users)
    (hlog : Adds bypasses s.requests s.log
      (.mint after.requests identity.id (liveFactor after.db.users identity.id) :: after.log)) :
    Spec bypasses s (issue env after identity caller) :=
  ⟨hu, hlog⟩

/-- Registering mints a session and touches no factor. -/
theorem register_spec (hu : UniqueIds s.db.users) {tenantId id : Uuid} {data : NewAccount}
    {breached : Bool} {caller : Caller} (hfresh : id ∉ s.db.users.map (·.id)) :
    Spec false s (register env s tenantId id data breached caller) := by
  unfold register
  split
  · exact .error hu .nothing
  · split
    · exact .error hu .nothing
    · next users user hcreate =>
      refine .issue (hu.createAccount hfresh hcreate) ?_
      have hlive : liveFactor users user.toIdentity.id = false :=
        liveFactor_createAccount hfresh hcreate
      dsimp only
      rw [hlive]
      exact .mint _ rfl

/-- A login mints one just in case no factor is live. -/
theorem login_spec (hu : UniqueIds s.db.users) {tenantId : Option Uuid}
    {email password : String} {locked : Bool} {mfaToken : Token} {caller : Caller} :
    Spec false s (login env s tenantId email password locked mfaToken caller) := by
  unfold login
  split
  · exact .error hu .nothing
  · split
    · exact .error hu .nothing
    · next users identity hverify =>
      obtain ⟨hu', hlive⟩ := verifyCredentials_eq_some hu hverify
      dsimp only
      split
      · exact ⟨hu', .nothing⟩
      · next hmfa =>
        refine .issue hu' ?_
        have hoff : liveFactor users identity.id = false := by
          rw [hlive]
          exact Bool.eq_false_iff.mpr hmfa
        dsimp only
        rw [hoff]
        exact .mint _ rfl

/-- The second step mints one after a code of the live factor. -/
theorem verifyMfa_spec (hu : UniqueIds s.db.users) {tenantId : Option Uuid} {mfaToken : Token}
    {code : String} {caller : Caller} :
    Spec false s (verifyMfa env s tenantId mfaToken code caller) := by
  unfold verifyMfa
  dsimp only
  split
  · next tenantPart userId _ =>
    split
    · exact .error hu .nothing
    · unfold checkMfaCode
      by_cases hcode : verifyMfaCode env.verifiers s.db.users s.redis.now tenantId userId code
      · -- the code was accepted, and recorded, before anything is minted
        rw [if_pos (by exact hcode)]
        dsimp only
        split
        · exact .error hu (.totp _)
        · next identity hidentity =>
          refine .issue hu ?_
          rw [(activeIdentity_get hu hidentity).1]
          exact .verified _ _
      · rw [if_neg (by exact hcode)]
        exact .error hu .nothing
  · exact .error hu .nothing

theorem linkAccount_spec {db : Db} (hu : UniqueIds db.users) (now : DateTime) (tenantId : Uuid)
    (providerKey : String) (profile : OAuthProfile) (identity : UserIdentity) :
    UniqueIds (linkAccount db now tenantId providerKey profile identity).users ∧
      ∀ j, liveFactor (linkAccount db now tenantId providerKey profile identity).users j =
        liveFactor db.users j := by
  unfold linkAccount
  dsimp only
  split
  · exact ⟨hu.markEmailVerified _ _ _, liveFactor_markEmailVerified _ _ _ _⟩
  · exact ⟨hu, fun _ => rfl⟩

/-- The account an OAuth profile resolves to has a live factor only if it existed before. -/
theorem linkOrCreate_spec {db db' : Db} (hu : UniqueIds db.users) {now : DateTime}
    {tenantId id : Uuid} {providerKey passwordHash : String} {profile : OAuthProfile}
    {identity : UserIdentity} (hfresh : id ∉ db.users.map (·.id))
    (h : linkOrCreateOauthAccount db now tenantId providerKey profile id passwordHash =
      .ok (db', identity)) :
    UniqueIds db'.users ∧ liveFactor db'.users identity.id =
      (oauthAccount db tenantId providerKey profile).any (·.mfaEnabled) := by
  unfold linkOrCreateOauthAccount at h
  unfold oauthAccount
  cases hsubject : getBySubject db (some tenantId) providerKey profile.subject with
  | some link =>
    simp only [hsubject] at h ⊢
    split at h
    · cases h
    · next hidentity =>
      cases h
      -- A known link leads to an active account, whose factor is as it was.
      obtain ⟨hid, hlive⟩ := activeIdentity_get hu hidentity
      rw [hidentity, hid, hlive]
      exact ⟨hu, rfl⟩
  | none =>
    simp only [hsubject] at h ⊢
    split at h
    · cases h
    · next hemail =>
      rw [Bool.not_eq_true, Bool.not_eq_false'] at hemail
      split at h
      · next hexisting =>
        split at h
        · cases h
        · next hverified =>
          cases h
          rw [Bool.not_eq_true, Bool.not_eq_false'] at hverified
          -- An account of this address gets a link and keeps its factor.
          obtain ⟨hu', hsame⟩ := linkAccount_spec hu now tenantId providerKey profile identity
          rw [hemail, hverified, hsame, liveFactor_identityByEmail hu hexisting, hexisting]
          exact ⟨hu', rfl⟩
      · next hnone =>
        split at h
        · cases h
        · split at h
          · cases h
          · next users user hcreate =>
            cases h
            -- A new account has no factor.
            have hcreated : UniqueIds { db with users := users }.users :=
              hu.createAccount hfresh hcreate
            obtain ⟨hu', hsame⟩ :=
              linkAccount_spec hcreated now tenantId providerKey profile user.toIdentity
            have hoff : liveFactor users user.toIdentity.id = false :=
              liveFactor_createAccount hfresh hcreate
            rw [hsame, hnone, ite_self]
            exact ⟨hu', hoff⟩

/-- A login at a provider mints one without asking, and that is its bypass. -/
theorem completeOauth_spec (hu : UniqueIds s.db.users) {tenantId id : Uuid}
    {providerKey passwordHash : String} {state : Token} {exchange : Option OAuthProfile}
    {caller : Caller} (hfresh : id ∉ s.db.users.map (·.id)) :
    Spec (Request.bypasses env s
        (.completeOauth tenantId providerKey state exchange id passwordHash caller)) s
      (completeOauth env s tenantId providerKey state exchange id passwordHash caller) := by
  unfold completeOauth
  split
  · exact .error hu .nothing
  · next hprovider =>
    dsimp only
    split
    · exact .error hu .nothing
    · split
      · exact .error hu .nothing
      · next hstored =>
        cases exchange with
        | none => exact .error hu .nothing
        | some profile =>
          dsimp only
          split
          · exact .error hu .nothing
          · next db identity hlink =>
            -- The session is issued whatever the account's factor is.
            obtain ⟨hu', hlive⟩ := linkOrCreate_spec hu hfresh hlink
            refine .issue hu' ?_
            have hbypasses : Request.bypasses env s (.completeOauth tenantId providerKey state
                (some profile) id passwordHash caller) = liveFactor db.users identity.id := by
              rw [hlive]
              simp only [Request.bypasses, not_not.mp hprovider, not_not.mp hstored, decide_true,
                Bool.true_and]
            dsimp only
            cases hon : liveFactor db.users identity.id with
            | true => exact .bypassed _ (hbypasses.trans hon)
            | false => exact .mint _ (hbypasses.trans hon)

/-- **What a request does**, whatever the flow. -/
theorem handle_spec (hu : UniqueIds s.db.users) {r : Request}
    (hfresh : freshId s.db.users r.newId) :
    Spec (r.bypasses env s) s (r.handle env s) := by
  cases r with
  | register tenantId id data breached caller =>
    exact register_spec hu (by simpa [freshId, Request.newId] using hfresh)
  | login tenantId email password locked mfaToken caller => exact login_spec hu
  | verifyMfa tenantId mfaToken code caller => exact verifyMfa_spec hu
  | startOauth tenantId providerKey state =>
    simp only [Request.handle, startOauth]
    split
    · exact .error hu .nothing
    · exact ⟨hu, .nothing⟩
  | completeOauth tenantId providerKey state exchange id passwordHash caller =>
    exact completeOauth_spec hu (by simpa [freshId, Request.newId] using hfresh)
  | createStaff id data =>
    simp only [Request.handle]
    split
    · exact .error hu .nothing
    · next hcreate =>
      refine ⟨hu.createAccount (by simpa [freshId, Request.newId] using hfresh) hcreate, ?_⟩
      exact .nothing
  | account tenantId userId change =>
    simp only [Request.handle]
    split
    · exact .error hu .nothing
    · next happly => exact ⟨hu.apply happly, .nothing⟩

/-- A social sign-in that resolves to an existing account goes through. -/
theorem linkOrCreate_of_oauthAccount {db : Db} {tenantId : Uuid} {providerKey : String}
    {profile : OAuthProfile} {identity : UserIdentity}
    (h : oauthAccount db tenantId providerKey profile = some identity) (now : DateTime)
    (id : Uuid) (passwordHash : String) :
    ∃ db', linkOrCreateOauthAccount db now tenantId providerKey profile id passwordHash =
      .ok (db', identity) := by
  unfold oauthAccount at h
  unfold linkOrCreateOauthAccount
  cases hsubject : getBySubject db (some tenantId) providerKey profile.subject with
  | some link =>
    simp only [hsubject] at h ⊢
    rw [h]
    exact ⟨_, rfl⟩
  | none =>
    simp only [hsubject] at h ⊢
    split at h
    · next howned =>
      rw [Bool.and_eq_true] at howned
      rw [howned.1, howned.2, h]
      exact ⟨_, rfl⟩
    · cases h

/-- A sign-in that bypasses the second factor does mint. -/
theorem handle_of_bypasses (hu : UniqueIds s.db.users) {r : Request}
    (hfresh : freshId s.db.users r.newId) (h : r.bypasses env s = true) :
    ∃ userId, (settle s (r.handle env s)).log = .mint s.requests userId true :: s.log := by
  cases r with
  | completeOauth tenantId providerKey state exchange id passwordHash caller =>
    cases exchange with
    | none => cases h
    | some profile =>
      simp only [Request.bypasses, Bool.and_eq_true, decide_eq_true_eq] at h
      obtain ⟨⟨hprovider, hstored⟩, haccount⟩ := h
      obtain ⟨identity, hidentity, -⟩ := (Option.any_eq_true ..).mp haccount
      obtain ⟨db, hlink⟩ :=
        linkOrCreate_of_oauthAccount hidentity s.redis.now id passwordHash
      have hlive := (linkOrCreate_spec hu (by simpa [freshId, Request.newId] using hfresh)
        hlink).2.trans haccount
      refine ⟨identity.id, ?_⟩
      simp only [Request.handle, completeOauth, hprovider, not_true, if_false, hstored,
        Option.isNone_some, Bool.false_eq_true, ne_eq, Store.now_del, hlink]
      show Event.mint _ _ (liveFactor db.users identity.id) :: _ = _
      rw [hlive]
  | _ => cases h

end Flows

/-! ### Runs -/

/-- No OAuth sign-in mints for an account with a live second factor. -/
def NoBypass (env : Env) (s : State) : Label → Prop
  | .request r => r.bypasses env s = false
  | .wait _ => True

/-- Ids are unique, and every accepted code on record belongs to an earlier request. -/
structure Recorded (s : State) : Prop where
  ids : UniqueIds s.db.users
  past : ∀ request userId, .totp request userId ∈ s.log → request < s.requests

section Runs

variable {env : Env} {s t : State}

theorem requests_settle (s : State) (outcome : Outcome) :
    (settle s outcome).requests = s.requests + 1 := by
  obtain ⟨after, _ | _⟩ := outcome <;> rfl

/-- Every code an addition records belongs to the request that adds it. -/
theorem Adds.totp_mem {bypasses : Bool} {n request : Nat} {userId : Uuid}
    {log log' : List Event} (h : Adds bypasses n log log')
    (hmem : .totp request userId ∈ log') : request = n ∨ .totp request userId ∈ log := by
  cases h with
  | nothing => exact .inr hmem
  | totp =>
    rcases List.mem_cons.mp hmem with heq | hmem
    · cases heq
      exact .inl rfl
    · exact .inr hmem
  | mint | bypassed =>
    rcases List.mem_cons.mp hmem with heq | hmem
    · cases heq
    · exact .inr hmem
  | verified =>
    rcases List.mem_cons.mp hmem with heq | hmem
    · cases heq
    · rcases List.mem_cons.mp hmem with heq | hmem
      · cases heq
        exact .inl rfl
      · exact .inr hmem

/-- What adds no bypass keeps the log enforced. -/
theorem Adds.enforced {request : Nat} {log log' : List Event} (h : Adds false request log log')
    (hlog : Enforced log) : Enforced log' := by
  cases h with
  | nothing | totp | mint => exact hlog
  | verified userId live =>
    cases live with
    | true => exact ⟨List.mem_cons_self, hlog⟩
    | false => exact hlog
  | bypassed userId h => cases h

/-- One step: a request that settles, or time. -/
theorem loginFlows_step {l : Label} (h : (loginFlows env).step s l = some t) :
    (∃ r, l = .request r ∧ freshId s.db.users r.newId ∧ t = settle s (r.handle env s)) ∨
      ∃ seconds, l = .wait seconds ∧ t = { s with redis := s.redis.wait seconds } := by
  cases l with
  | request r =>
    simp only [loginFlows] at h
    split at h
    · next hfresh => exact .inl ⟨r, rfl, hfresh, (Option.some.inj h).symm⟩
    · cases h
  | wait seconds => exact .inr ⟨seconds, rfl, (Option.some.inj h).symm⟩

/-- One step keeps it. -/
theorem Recorded.step {l : Label} (hR : Recorded s) (h : (loginFlows env).step s l = some t) :
    Recorded t := by
  obtain ⟨r, rfl, hfresh, rfl⟩ | ⟨seconds, rfl, rfl⟩ := loginFlows_step h
  · have hspec : Spec (r.bypasses env s) s (r.handle env s) := handle_spec hR.ids hfresh
    refine ⟨hspec.ids, fun request userId hmem => ?_⟩
    rw [requests_settle]
    rcases hspec.log.totp_mem hmem with rfl | hmem
    · omega
    · have := hR.past request userId hmem
      omega
  · exact ⟨hR.ids, hR.past⟩

theorem recorded (h : (loginFlows env).Reachable s) : Recorded s := by
  refine Machine.Inductive.always (G := fun _ _ => True) ⟨?_, ?_⟩ h
  · rintro _ rfl
    exact ⟨List.nodup_nil, nofun⟩
  · exact fun _ _ _ hR _ hst => hR.step hst

/-- The log only grows. -/
theorem suffix_log {l : Label} (hR : Recorded s) (h : (loginFlows env).step s l = some t) :
    s.log <:+ t.log := by
  obtain ⟨r, rfl, hfresh, rfl⟩ | ⟨seconds, rfl, rfl⟩ := loginFlows_step h
  · exact (handle_spec hR.ids hfresh).log.suffix
  · exact List.suffix_rfl

/-- A step keeps second factors enforced exactly if it bypasses none. -/
theorem enforced_step {l : Label} (hR : Recorded s) (hlog : Enforced s.log)
    (h : (loginFlows env).step s l = some t) : Enforced t.log ↔ NoBypass env s l := by
  obtain ⟨r, rfl, hfresh, rfl⟩ | ⟨seconds, rfl, rfl⟩ := loginFlows_step h
  · cases hbypasses : r.bypasses env s with
    | false =>
      have hspec : Spec (r.bypasses env s) s (r.handle env s) := handle_spec hR.ids hfresh
      rw [hbypasses] at hspec
      exact iff_of_true (hspec.log.enforced hlog) hbypasses
    | true =>
      obtain ⟨userId, hmint⟩ := handle_of_bypasses hR.ids hfresh hbypasses
      refine iff_of_false (fun henforced => ?_) (by simp [NoBypass, hbypasses])
      -- a code accepted in this request would already be on record
      rw [hmint] at henforced
      exact Nat.lt_irrefl _ (hR.past _ _ henforced.1)
  · exact iff_of_true hlog trivial

/-- **Second factors are enforced in exactly the runs without a bypassing OAuth sign-in.** -/
theorem reachVia_iff_enforced (env : Env) (s : State) :
    (loginFlows env).ReachVia (NoBypass env) s ↔
      (loginFlows env).Reachable s ∧ Enforced s.log := by
  constructor
  · intro h
    refine ⟨h.reachable, ?_⟩
    refine Machine.ReachVia.relative (I := fun s => Enforced s.log)
      (fun s hs => recorded hs.reachable) ?_ ?_ h
    · rintro _ rfl
      trivial
    · intro s l t hR _ hlog hguard hst
      exact (enforced_step hR hlog hst).mpr hguard
  · rintro ⟨h, hlog⟩
    induction h with
    | init hs => exact .init hs
    | step hr _ hst ih =>
      have hR : Recorded _ := recorded hr
      have hbefore := hlog.of_suffix (suffix_log hR hst)
      exact .step (ih hbefore) ((enforced_step hR hbefore hst).mp hlog) hst

end Runs

/-! ### An OAuth sign-in without the second factor -/

/-- Every password and every code are accepted; one provider is configured. -/
def permissiveEnv : Env where
  verifiers := ⟨fun _ _ => true, fun _ _ _ => true⟩
  hashToken := id
  settings := default
  oauthProviders := ["google"]

/-- An agent enrols a second factor, and signs in through a provider that verified the same
address. -/
def enrolledThenOauth : List Label :=
  let email := "agent@agency.test"
  let caller : Caller := { refreshToken := 1, familyId := 1 }
  let profile : OAuthProfile := { subject := "sub", email := some email, emailVerified := true }
  [.request (.register 7 1 { email, passwordHash := "h", role := .buyerRenter } false caller),
    .request (.account (some 7) 1 (.beginMfaEnrolment "seed")),
    .request (.account (some 7) 1 (.confirmMfaEnrolment "000000")),
    .request (.startOauth (some 7) "google" 5),
    .request (.completeOauth 7 "google" 5 (some profile) 2 "r" caller)]

/-- **An account with a live second factor signed in without it.** -/
theorem oauth_skips_second_factor :
    ∃ env s, (loginFlows env).Reachable s ∧ ¬Enforced s.log := by
  obtain ⟨s, hs, hp⟩ := Machine.exists_reachable_of_run (M := loginFlows permissiveEnv)
    enrolledThenOauth (fun s => !decide (Enforced s.log)) rfl (by decide)
  refine ⟨permissiveEnv, s, hs, ?_⟩
  simpa using hp

end Login

end Auth

end RealEstate
