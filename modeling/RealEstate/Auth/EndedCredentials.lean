import RealEstate.Auth.Credentials

/-!
# What a password reset ends

- `Spec`: what one request keeps of the three kinds of credential; `step_spec`
  proves it of every step, `onward_spec` of every run.
- `Ends`: nothing issued before the reset is accepted in any state after it.
- `ends_iff`: a reset ends every session and access token of the account, and
  every reset token if and only if it presents the only one still in Redis.
- `spare_code`: two codes were mailed, and the first one outlives a reset with the
  second.
-/

namespace RealEstate

namespace Auth

namespace Reset

open RealEstate.Core Users Systems Denylist

variable (env : Env)

/-- What was issued to the account up to `s` is accepted neither in `s'` nor in any state
after it. -/
structure Ends (s s' : State) (tenantId : Option Uuid) (userId : Uuid) : Prop where
  sessions : ∀ t, ((histories env).startingAt s').Reachable t → ∀ row ∈ s.sessions,
    row.tenantId = tenantId → row.userId = userId →
    ∀ token, env.hashToken token = row.refreshTokenHash →
    ∀ requestTenant draws, Refused (refresh env t requestTenant (some token) draws).2
  accessTokens : ∀ t, ((histories env).startingAt s').Reachable t → ∀ claims ∈ s.accessTokens,
    claims.userId = userId → ∀ requestTenant, Refused (getCurrentUser t requestTenant claims)
  resetTokens : ∀ t, ((histories env).startingAt s').Reachable t → ∀ p ∈ s.resetTokens,
    p.2 = userId → ∀ requestTenant passwordHash breached,
    Refused (resetPassword env t requestTenant p.1 passwordHash breached).2

/-- No other reset token of the account is still in Redis. -/
def OnlyCode (s : State) (token : Token) (userId : Uuid) : Prop :=
  ∀ p ∈ s.resetTokens, p.2 = userId → env.hashToken p.1 ≠ env.hashToken token →
    s.resets.get (env.hashToken p.1) = none

/-- Over the codes sent. -/
instance (s : State) (token : Token) (userId : Uuid) : Decidable (OnlyCode env s token userId) :=
  inferInstanceAs (Decidable (∀ p ∈ s.resetTokens, _))

/-! ### What a request keeps -/

/-- The digests of the reset tokens mailed. -/
def codes (s : State) : List Digest := s.resetTokens.map fun p => env.hashToken p.1

/-- A reset token that was mailed and is not in Redis any more. -/
structure Spent (s : State) (digest : Digest) : Prop where
  known : digest ∈ codes env s
  gone : s.resets.get digest = none

/-- Hashes are distinct, live access tokens are tracked, and reset codes are of those sent. -/
structure Inv (s : State) : Prop where
  hashes : (hashes s.sessions).Nodup
  bounded : ∀ claims ∈ s.accessTokens,
    claims.exp ≤ s.redis.now + env.settings.accessTokenTtlSeconds
  tracked : ∀ claims ∈ s.accessTokens, Tracked s.redis claims
  codes : (codes env s).Nodup
  stored : ∀ digest userId, s.resets.get digest = some userId →
    ∃ token, env.hashToken token = digest ∧ (token, userId) ∈ s.resetTokens

/-- What every request does to the three kinds of credential. -/
structure Spec (s s' : State) : Prop where
  sessions : Kept s.sessions s'.sessions
  redis : Keeps env.settings s.redis s'.redis
  spent : ∀ digest, Spent env s digest → Spent env s' digest
  inv : Inv env s → Inv env s'

variable {env}

namespace Spec

variable {s s' s'' : State}

theorem refl (s : State) : Spec env s s := ⟨.refl _, .refl _, fun _ h => h, id⟩

theorem trans (h : Spec env s s') (h' : Spec env s' s'') : Spec env s s'' :=
  ⟨h.sessions.trans h'.sessions, h.redis.trans h'.redis,
    fun digest hd => h'.spent digest (h.spent digest hd), fun hI => h'.inv (h.inv hI)⟩

theorem setUsers (s : State) (users : List User) : Spec env s { s with users := users } :=
  ⟨.refl _, .refl _, fun _ h => ⟨h.known, h.gone⟩,
    fun hI => ⟨hI.hashes, hI.bounded, hI.tracked, hI.codes, hI.stored⟩⟩

theorem setSessions {rows : List AuthSession} (hkept : Kept s.sessions rows)
    (hhashes : hashes rows = hashes s.sessions) : Spec env s { s with sessions := rows } := by
  refine ⟨hkept, .refl _, fun _ h => ⟨h.known, h.gone⟩, fun hI => ?_⟩
  refine ⟨?_, hI.bounded, hI.tracked, hI.codes, hI.stored⟩
  show (hashes rows).Nodup
  rw [hhashes]
  exact hI.hashes

theorem setRedis {r : Redis} (hkeeps : Keeps env.settings s.redis r) :
    Spec env s { s with redis := r } := by
  refine ⟨.refl _, hkeeps, fun _ h => ⟨h.known, h.gone⟩, fun hI => ?_⟩
  refine ⟨hI.hashes, fun claims hc => ?_, fun claims hc => ?_, hI.codes, hI.stored⟩
  · exact Int.le_trans (hI.bounded claims hc) (Int.add_le_add_right hkeeps.now _)
  · exact hkeeps.tracked claims (hI.bounded claims hc) (hI.tracked claims hc)

/-- Reset tokens only leave Redis. -/
theorem setResets {resets : Store Digest Uuid}
    (h : ∀ digest userId, resets.get digest = some userId →
      s.resets.get digest = some userId) : Spec env s { s with resets := resets } := by
  refine ⟨.refl _, .refl _, fun digest hs => ⟨hs.known, ?_⟩, fun hI => ?_⟩
  · rw [Option.eq_none_iff_forall_ne_some]
    intro userId hget
    have hold : s.resets.get digest = some userId := h digest userId hget
    rw [hs.gone] at hold
    cases hold
  · exact ⟨hI.hashes, hI.bounded, hI.tracked, hI.codes,
      fun digest userId hget => hI.stored digest userId (h digest userId hget)⟩

theorem issue {draws : Draws} (hfresh : env.hashToken draws.refreshToken ∉ hashes s.sessions)
    (identity : UserIdentity) (familyId : Uuid) :
    Spec env s (issue env s identity familyId draws).1 := by
  have hkeeps : Keeps env.settings s.redis
      (trackJti env.settings s.redis identity.id draws.jti) := .trackJti ..
  refine ⟨.cons hfresh, hkeeps, fun _ h => ⟨h.known, h.gone⟩, fun hI => ?_⟩
  refine ⟨List.nodup_cons.mpr ⟨hfresh, hI.hashes⟩, ?_, ?_, hI.codes, hI.stored⟩
  · intro claims hc
    rcases List.mem_cons.mp hc with rfl | hc
    · exact Int.add_le_add_right hkeeps.now _
    · exact Int.le_trans (hI.bounded claims hc) (Int.add_le_add_right hkeeps.now _)
  · intro claims hc
    rcases List.mem_cons.mp hc with rfl | hc
    · exact tracked_trackJti s.redis rfl
    · exact hkeeps.tracked claims (hI.bounded claims hc) (hI.tracked claims hc)

/-- A refresh adds one and stamps one. -/
theorem refresh {draws : Draws} (hfresh : env.hashToken draws.refreshToken ∉ hashes s.sessions)
    (tenantId : Option Uuid) (presented : Option Token) :
    Spec env s (refresh env s tenantId presented draws).1 := by
  cases presented with
  | none => exact refl s
  | some token =>
    simp only [Reset.refresh]
    split
    · next refusal _ =>
      refine setSessions ?_ ?_
      · split
        · exact kept_revokeAll ..
        · exact .refl _
      · split
        · exact hashes_revokeAll ..
        · rfl
    · next session _ =>
      split
      · exact refl s
      · -- Rotation ends the old token; the new row has another hash.
        have hhash : ∀ row : AuthSession,
            (row.rotateAway s.redis.now).refreshTokenHash = row.refreshTokenHash := fun _ => rfl
        have hrotate : Spec env s { s with
            sessions := updateSession session (·.rotateAway s.redis.now) s.sessions } :=
          setSessions
            (kept_updateSession session (fun row => later_rotateAway row s.redis.now) hhash)
            (hashes_updateSession session hhash)
        refine hrotate.trans (issue ?_ ..)
        show _ ∉ hashes (updateSession session _ s.sessions)
        rw [hashes_updateSession session hhash]
        exact hfresh

theorem logout (tenantId : Option Uuid) (presented : Option Token) (jti : Jti) :
    Spec env s (logout env s tenantId presented jti) := by
  have hhash : ∀ row : AuthSession,
      (row.revoke s.redis.now).refreshTokenHash = row.refreshTokenHash := fun _ => rfl
  have hdenylist : ∀ {s' : State}, Spec env s s' → s'.redis = s.redis →
      Spec env s { s' with redis := denylistJti env.settings s.redis jti } := by
    intro s' h hredis
    exact h.trans (setRedis (hredis ▸ .denylistJti jti))
  simp only [Reset.logout]
  split
  · next session _ =>
    split
    · exact hdenylist (setSessions (kept_updateSession session
        (fun row => later_revoke row _) hhash) (hashes_updateSession session hhash)) rfl
    · exact hdenylist (refl s) rfl
  · exact hdenylist (refl s) rfl

theorem forceLogoutUser (tenantId : Option Uuid) (userId : Uuid) :
    Spec env s (forceLogoutUser env s tenantId userId) :=
  (setSessions (kept_revokeAll ..) (hashes_revokeAll ..)).trans
    (setRedis (keeps_revokeTrackedJtis env s.redis userId))

/-- A request for a code stores one. -/
theorem forgotPassword {token : Token} (hfresh : env.hashToken token ∉ codes env s)
    (tenantId : Option Uuid) (email : String) :
    Spec env s (forgotPassword env s tenantId email token) := by
  unfold Reset.forgotPassword
  split
  · exact refl s
  · next identity _ =>
    refine ⟨.refl _, .refl _, fun digest hs => ⟨List.mem_cons_of_mem _ hs.known, ?_⟩,
      fun hI => ⟨hI.hashes, hI.bounded, hI.tracked, List.nodup_cons.mpr ⟨hfresh, hI.codes⟩,
        fun digest userId hget => ?_⟩⟩
    · have hne : digest ≠ env.hashToken token := fun heq => hfresh (heq ▸ hs.known)
      exact (Store.get_set_of_ne _ _ _ hne).trans hs.gone
    · rcases Store.of_get_set hget with ⟨rfl, rfl⟩ | ⟨-, hold⟩
      · exact ⟨token, rfl, List.mem_cons_self⟩
      · obtain ⟨earlier, hdigest, hmem⟩ := hI.stored digest userId hold
        exact ⟨earlier, hdigest, List.mem_cons_of_mem _ hmem⟩

/-- A reset revokes, and takes its code out. -/
theorem resetPassword (tenantId : Option Uuid) (token : Token) (passwordHash : String)
    (breached : Bool) :
    Spec env s (resetPassword env s tenantId token passwordHash breached).1 := by
  have hspend : Spec env s { s with resets := s.resets.del (env.hashToken token) } :=
    setResets fun digest userId hget => (Store.of_get_del hget).2
  cases breached with
  | true => exact refl s
  | false =>
    simp only [Reset.resetPassword, Bool.false_eq_true, if_false]
    split
    · exact refl s
    · split
      · exact hspend
      · exact (hspend.trans (setUsers ..)).trans (forceLogoutUser ..)

end Spec

/-- One step lemma for every label. -/
theorem step_spec {s s' : State} {l : Label} (h : step env s l = some s') : Spec env s s' := by
  cases l with
  | wait seconds =>
    obtain rfl := Option.some.inj h
    exact (Spec.setRedis (.wait seconds)).trans
      (Spec.setResets fun digest userId hget => Store.get_of_get_wait hget)
  | createAccount tenantId id data =>
    obtain ⟨p, -, rfl⟩ := Option.map_eq_some_iff.mp h
    exact .setUsers s p.1
  | changeAccount tenantId userId change =>
    obtain ⟨users, -, rfl⟩ := Option.map_eq_some_iff.mp h
    exact .setUsers s users
  | signIn tenantId userId draws =>
    simp only [step] at h
    split at h
    · next hfresh =>
      obtain ⟨identity, -, rfl⟩ := Option.map_eq_some_iff.mp h
      exact .issue (of_decide_eq_true hfresh) identity draws.familyId
    · cases h
  | refresh tenantId presented draws =>
    simp only [step] at h
    split at h
    · next hfresh =>
      obtain rfl := Option.some.inj h
      exact .refresh (of_decide_eq_true hfresh) tenantId presented
    · cases h
  | logout tenantId presented jti =>
    obtain rfl := Option.some.inj h
    exact .logout tenantId presented jti
  | logoutAll tenantId userId jti =>
    obtain rfl := Option.some.inj h
    exact (Spec.forceLogoutUser tenantId userId).trans (.setRedis (.denylistJti jti))
  | forgotPassword tenantId email token =>
    simp only [step] at h
    split at h
    · next hfresh =>
      obtain rfl := Option.some.inj h
      exact .forgotPassword (of_decide_eq_true hfresh) tenantId email
    · cases h
  | resetPassword tenantId token passwordHash breached =>
    obtain rfl := Option.some.inj h
    exact .resetPassword tenantId token passwordHash breached

/-- In every reachable state. -/
theorem reachable_inv {s : State} (h : (histories env).Reachable s) : Inv env s := by
  refine Machine.Inductive.always (G := fun _ _ => True) ⟨?_, ?_⟩ h
  · rintro s ⟨hsessions, hredis, hresets, haccess, hcodes⟩
    constructor
    · simp [hashes, hsessions]
    · simp [haccess]
    · simp [haccess]
    · simp [codes, hcodes]
    · simp [hresets]
  · exact fun s l t hI _ hst => (step_spec hst).inv hI

/-- The same for any number of requests. -/
theorem onward_spec {s t : State} (h : ((histories env).startingAt s).Reachable t) :
    Spec env s t := by
  induction h with
  | init hs =>
    cases hs
    exact .refl _
  | step _ _ hst ih => exact ih.trans (step_spec hst)

/-! ### The reset ends what came before -/

section

variable {s s' : State} {tenantId : Option Uuid} {token : Token} {passwordHash : String}
  {breached : Bool}

/-- What a reset that succeeds has done. -/
theorem resetPassword_eq_ok
    (h : resetPassword env s tenantId token passwordHash breached = (s', .ok ())) :
    ∃ userId users, s.resets.get (env.hashToken token) = some userId ∧
      (AccountChange.setPassword passwordHash).apply env.verifiers s.users s.redis.now tenantId
        userId = .ok users ∧
      s' = forceLogoutUser env
        { s with users := users, resets := s.resets.del (env.hashToken token) } tenantId
        userId := by
  simp only [resetPassword] at h
  split at h
  · cases h
  · split at h
    · cases h
    · next userId huser =>
      split at h
      · cases h
      · next users happly =>
        cases h
        exact ⟨userId, users, huser, happly, rfl⟩

/-- A password that could be set once can be set again. -/
theorem setPassword_again {v : Verifiers} {users users' : List User} {now : DateTime}
    {userId : Uuid} (newHash : String) (later : DateTime)
    (h : (AccountChange.setPassword passwordHash).apply v users now tenantId userId = .ok users') :
    ∃ users'', (AccountChange.setPassword newHash).apply v users' later tenantId userId =
      .ok users'' := by
  simp only [AccountChange.apply] at h ⊢
  split at h
  · cases h
  · next hactive =>
    unfold updateOr404 at h
    split at h
    · cases h
    · next user huser =>
      cases h
      -- The row found before is found again, with its new hash.
      have hget : get (updateUser users user.id
          fun u => { u with passwordHash := passwordHash }) tenantId userId = _ :=
        get_updateUser user.id (f := fun u => { u with passwordHash := passwordHash })
          (fun _ => ⟨rfl, rfl, rfl⟩) tenantId userId
      have hstill : (getIdentityIfActive (updateUser users user.id
          fun u => { u with passwordHash := passwordHash }) tenantId userId).isNone = false := by
        unfold getIdentityIfActive activeIdentity at hactive ⊢
        rw [hget, huser]
        rw [huser] at hactive
        simp only [Option.bind_some, Option.map_some, if_true] at hactive ⊢
        split at hactive
        · next hst =>
          rw [if_pos hst]
          rfl
        · exact absurd rfl hactive
      rw [hstill, if_neg (by simp)]
      unfold updateOr404
      rw [hget, huser]
      exact ⟨_, rfl⟩

/-- The state right after a reset. -/
theorem spec_resetPassword
    (h : resetPassword env s tenantId token passwordHash breached = (s', .ok ())) :
    Spec env s s' := by
  have hspec : Spec env s (resetPassword env s tenantId token passwordHash breached).1 :=
    Spec.resetPassword tenantId token passwordHash breached
  rw [h] at hspec
  exact hspec

/-- **After a reset, no session of the user is left.** -/
theorem sessions_ended (hI : Inv env s)
    (h : resetPassword env s tenantId token passwordHash breached = (s', .ok ()))
    {userId : Uuid} (huser : s.resets.get (env.hashToken token) = some userId) :
    ∀ row ∈ s.sessions, row.tenantId = tenantId → row.userId = userId →
      Revoked s'.sessions row.refreshTokenHash := by
  obtain ⟨w, users, hw, -, rfl⟩ := resetPassword_eq_ok h
  obtain rfl := Option.some.inj (huser.symm.trans hw)
  exact fun row hrow htenant hu => revoked_revokeAll hI.hashes hrow htenant hu

/-- Nor is an access token. -/
theorem accessTokens_ended (hI : Inv env s)
    (h : resetPassword env s tenantId token passwordHash breached = (s', .ok ()))
    {userId : Uuid} (huser : s.resets.get (env.hashToken token) = some userId) :
    ∀ claims ∈ s.accessTokens, claims.userId = userId → Dead s'.redis claims := by
  obtain ⟨w, users, hw, -, rfl⟩ := resetPassword_eq_ok h
  obtain rfl := Option.some.inj (huser.symm.trans hw)
  rintro claims hclaims rfl
  exact dead_revokeTrackedJtis env s.redis (hI.bounded claims hclaims) (hI.tracked claims hclaims)

/-- Nor another code, if there was one only. -/
theorem codes_ended (h : resetPassword env s tenantId token passwordHash breached = (s', .ok ()))
    {userId : Uuid} (honly : OnlyCode env s token userId) :
    ∀ p ∈ s.resetTokens, p.2 = userId → Spent env s' (env.hashToken p.1) := by
  obtain ⟨w, users, -, -, rfl⟩ := resetPassword_eq_ok h
  intro p hp hu
  refine ⟨List.mem_map.mpr ⟨p, hp, rfl⟩, ?_⟩
  show (s.resets.del (env.hashToken token)).get (env.hashToken p.1) = none
  by_cases hsame : env.hashToken p.1 = env.hashToken token
  · rw [hsame, Store.get_del_self]
  · rw [Store.get_del_of_ne _ hsame]
    exact honly p hp hu hsame

/-- A spent code resets nothing. -/
theorem refused_resetPassword (h : Spent env s (env.hashToken token)) :
    Refused (resetPassword env s tenantId token passwordHash breached).2 := by
  simp only [resetPassword, h.gone]
  split <;> exact ⟨_, rfl⟩

/-- Any other code of the account that Redis still holds sets the password once more. -/
theorem spare_code_accepted
    (h : resetPassword env s tenantId token passwordHash breached = (s', .ok ()))
    {userId : Uuid} (huser : s.resets.get (env.hashToken token) = some userId) {spare : Token}
    (hne : env.hashToken spare ≠ env.hashToken token)
    (hspare : s.resets.get (env.hashToken spare) = some userId) :
    ¬Refused (resetPassword env s' tenantId spare passwordHash false).2 := by
  obtain ⟨w, users, hw, happly, rfl⟩ := resetPassword_eq_ok h
  obtain rfl := Option.some.inj (huser.symm.trans hw)
  obtain ⟨users', hagain⟩ := setPassword_again passwordHash
    (revokeTrackedJtis env s.redis userId).now happly
  have hget : (s.resets.del (env.hashToken token)).get (env.hashToken spare) = some userId := by
    rw [Store.get_del_of_ne _ hne, hspare]
  simp only [resetPassword, forceLogoutUser, hget, hagain, Bool.false_eq_true, if_false]
  rintro ⟨e, he⟩
  cases he

/-- **A reset ends every session and access token of the account, and every reset token if
and only if it presents the only one still in Redis.** -/
theorem ends_iff (hs : (histories env).Reachable s)
    (hreset : resetPassword env s tenantId token passwordHash breached = (s', .ok ()))
    {userId : Uuid} (huser : s.resets.get (env.hashToken token) = some userId) :
    Ends env s s' tenantId userId ↔ OnlyCode env s token userId := by
  have hI := reachable_inv hs
  constructor
  · intro hends p hp hu hne
    rw [Option.eq_none_iff_forall_ne_some]
    intro w hw
    -- What Redis holds under the digest is what was logged with it: the account.
    obtain ⟨earlier, hdigest, hmem⟩ := hI.stored _ w hw
    obtain rfl : (earlier, w) = p := List.inj_on_of_nodup_map hI.codes hmem hp hdigest
    obtain rfl : w = userId := hu
    exact spare_code_accepted hreset huser hne hw
      (hends.resetTokens s' (.init rfl) (earlier, w) hp rfl tenantId passwordHash false)
  · intro honly
    constructor
    · intro t ht row hrow htenant hu presented hhash requestTenant draws
      refine refused_refresh env ?_ requestTenant draws
      rw [hhash]
      exact (onward_spec ht).sessions.revoked
        (sessions_ended hI hreset huser row hrow htenant hu)
    · intro t ht claims hclaims hu requestTenant
      have hbound : claims.exp ≤ s'.redis.now + env.settings.accessTokenTtlSeconds :=
        Int.le_trans (hI.bounded claims hclaims)
          (Int.add_le_add_right (spec_resetPassword hreset).redis.now _)
      exact refused_getCurrentUser ((onward_spec ht).redis.dead claims hbound
        (accessTokens_ended hI hreset huser claims hclaims hu)) requestTenant
    · intro t ht p hp hu requestTenant newHash breached'
      exact refused_resetPassword ((onward_spec ht).spent _ (codes_ended hreset honly p hp hu))

end

/-! ### Two codes in the mailbox -/

/-- Passwords and codes are compared as they are, and a token is its own digest. -/
def plainEnv : Env where
  verifiers := ⟨fun password passwordHash => password = passwordHash,
    fun secret code _ => secret = code⟩
  hashToken := id
  settings := default

/-- Any account. -/
def buyer : User where
  id := 7
  tenantId := some 1
  email := "a"
  passwordHash := "old"
  role := .buyerRenter

/-- The account exists and holds nothing. -/
def registered : State where
  users := [buyer]
  sessions := []
  redis := .empty
  resets := .empty
  accessTokens := []
  resetTokens := []

/-- A code, a sign-in, its refresh, and a code again. -/
def twoCodes : List Label :=
  [.forgotPassword (some 1) "a" 100,
    .signIn (some 1) 7 { refreshToken := 1, familyId := 1, jti := 1 },
    .refresh (some 1) (some 1) { refreshToken := 2, familyId := 1, jti := 2 },
    .forgotPassword (some 1) "a" 200]

/-- Redis holds the second code for the account, and a reset with it succeeds. -/
def resets (s : State) : Bool :=
  s.resets.get 200 = some 7 &&
    match (resetPassword plainEnv s (some 1) 200 "new" false).2 with
    | .ok () => true
    | .error _ => false

theorem exists_of_resets {s : State} (h : resets s = true) : s.resets.get 200 = some 7 ∧
    ∃ s', resetPassword plainEnv s (some 1) 200 "new" false = (s', .ok ()) := by
  obtain ⟨hget, hok⟩ := Bool.and_eq_true_iff.mp h
  refine ⟨of_decide_eq_true hget, _, Prod.ext rfl ?_⟩
  split at hok
  · assumption
  · cases hok

/-- A reset that presents the only code left ends all of it. -/
theorem ends_single_code : ∃ s s' : State, (histories plainEnv).Reachable s ∧
    resetPassword plainEnv s (some 1) 200 "new" false = (s', .ok ()) ∧
    s.sessions.length = 2 ∧ s.accessTokens.length = 2 ∧ Ends plainEnv s s' (some 1) 7 := by
  obtain ⟨s, hs, hp⟩ := Machine.exists_reachable_of_run (M := histories plainEnv)
    (s := registered) twoCodes.tail
    (fun s => resets s && decide (s.sessions.length = 2 ∧ s.accessTokens.length = 2 ∧
      OnlyCode plainEnv s 200 7)) ⟨rfl, rfl, rfl, rfl, rfl⟩ (by decide)
  obtain ⟨hresets, hrest⟩ := Bool.and_eq_true_iff.mp hp
  obtain ⟨hsessions, htokens, honly⟩ := of_decide_eq_true hrest
  obtain ⟨huser, s', hreset⟩ := exists_of_resets hresets
  exact ⟨s, s', hs, hreset, hsessions, htokens, (ends_iff hs hreset huser).mpr honly⟩

/-- **The spare code.** The reset with the second code leaves the first one usable. -/
theorem spare_code : ∃ s s' : State, (histories plainEnv).Reachable s ∧
    resetPassword plainEnv s (some 1) 200 "new" false = (s', .ok ()) ∧
    ¬Ends plainEnv s s' (some 1) 7 := by
  obtain ⟨s, hs, hp⟩ := Machine.exists_reachable_of_run (M := histories plainEnv)
    (s := registered) twoCodes
    (fun s => resets s && decide (s.resets.get 100 = some 7 ∧ (100, 7) ∈ s.resetTokens))
    ⟨rfl, rfl, rfl, rfl, rfl⟩ (by decide)
  obtain ⟨hresets, hrest⟩ := Bool.and_eq_true_iff.mp hp
  obtain ⟨hspare, hmem⟩ := of_decide_eq_true hrest
  obtain ⟨huser, s', hreset⟩ := exists_of_resets hresets
  refine ⟨s, s', hs, hreset, fun hends => ?_⟩
  have hne : plainEnv.hashToken 100 ≠ plainEnv.hashToken 200 := by decide
  exact spare_code_accepted hreset huser hne hspare
    (hends.resetTokens s' (.init rfl) (100, 7) hmem rfl (some 1) "new" false)

end Reset

end Auth

end RealEstate
