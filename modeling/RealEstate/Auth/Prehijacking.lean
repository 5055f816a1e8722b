import RealEstate.Auth.Access

/-!
# Social sign-in to an account someone else set up

`complete_oauth` lets a party in to an existing account when the provider
verified the account's address for it, whoever has credentials of that account
by then.

- `Holds`: a credential of the party works on the account, by the code's own
  checks. `holds_iff`: these are exactly the accounts it was let in to.
- `Safe`: nobody else who never proved control of the address holds one.
- `Vetted`: everyone let in before has proved control of the address.
  `safe_iff_vetted`, `no_prehijacking`: these are exactly the safe sign-ins.
- `prehijacked`: an address registered by someone who cannot read its mail.
-/

namespace RealEstate

namespace Auth

namespace SignIns

open RealEstate.Core Users Systems Login Access

variable {Party : Type} (d : Deployment Party)

/-! ### Credentials that work -/

/-- A credential of the party works on the account, by the code's own checks. -/
inductive Holds (s : State Party) (party : Party) (userId : Uuid) : Prop where
  | password (email password : String) (users : List User) (identity : UserIdentity)
      (held : (party, userId, password) ∈ s.held)
      (verified : verifyCredentials d.env.verifiers s.flows.db.users s.flows.redis.now
        (some d.tenantId) email password = some (users, identity))
      (account : identity.id = userId)
  | session (row : AuthSession) (opened : (party, row) ∈ s.opened)
      (stored : row ∈ s.flows.db.sessions)
      (live : checkPresented s.flows.redis.now (some row) = .ok row)
      (active : (getIdentityIfActive s.flows.db.users row.tenantId row.userId).isSome)
      (account : row.userId = userId)
  | identity (providerKey subject : String) (link : OAuthIdentity)
      (configured : providerKey ∈ d.env.oauthProviders)
      (owned : d.owner providerKey subject = party)
      (stored : getBySubject s.flows.db (some d.tenantId) providerKey subject = some link)
      (active : (getIdentityIfActive s.flows.db.users (some d.tenantId) link.userId).isSome)
      (account : link.userId = userId)

/-- When `complete_oauth` returns an account to a party whose address the provider verified,
no other party that never proved control of the address holds a credential of it. -/
def Safe (s : State Party) : Prop :=
  ∀ r, s.returned = some r → ∀ party, party ≠ r.party → (party, r.email) ∉ s.proved →
    ¬Holds d s party r.userId

/-- The existing account a social sign-in resolves to, if the provider verified its address,
with the party that signs in. -/
def Label.claims (s : State Party) : Label Party → Option (Party × UserIdentity)
  | .completeOauth providerKey state (some profile) .. =>
    if providerKey ∈ d.env.oauthProviders ∧
        s.flows.redis.get (.oauthState (d.env.hashToken state)) =
          some (.oauthState (some d.tenantId) providerKey) ∧
        profile.emailVerified then
      ((oauthAccount s.flows.db d.tenantId providerKey profile).filter
        fun identity => profile.email = some identity.email).map
          (d.owner providerKey profile.subject, ·)
    else none
  | _ => none

/-- Everyone else an existing account was returned to has proved control of its address by the
time a provider vouches for it. -/
def Vetted (s : State Party) (l : Label Party) : Prop :=
  ∀ claim ∈ l.claims d s, ∀ entry ∈ s.entered, entry.2 = claim.2.id → entry.1 ≠ claim.1 →
    (entry.1, claim.2.email) ∈ s.proved

/-- By cases of the label. -/
instance [DecidableEq Party] (s : State Party) (l : Label Party) : Decidable (Vetted d s l) := by
  unfold Vetted
  infer_instance

/-! ### Who holds a credential -/

section Holders

variable {d} {s t : State Party} {party : Party} {userId : Uuid}

/-- The identity of an account of the agency can be had. -/
theorem active_of_mem (hS : Sound d s.access) {user : User} (h : user ∈ s.flows.db.users) :
    getIdentityIfActive s.flows.db.users (some d.tenantId) user.id = some user.toIdentity := by
  have hplain : (accountOf user).Plain d.tenantId := plain_of_mem hS h
  have hids : (s.flows.db.users.map (·.id)).Nodup := by
    have hids := hS.ids
    rwa [State.access, List.map_map] at hids
  have hget : get s.flows.db.users (some d.tenantId) user.id = some user :=
    find?_of_nodup_map hids h (decide_eq_true ⟨hplain.tenant, rfl, hplain.kept⟩)
      fun _ hr => (of_decide_eq_true hr).2.1
  rw [getIdentityIfActive, hget, activeIdentity, Option.bind_some]
  exact if_pos hplain.active

/-- The password of an account of the agency signs in to it. -/
theorem verifyCredentials_of_mem (hS : Sound d s.access) {user : User}
    (h : user ∈ s.flows.db.users) {password : String}
    (hpassword : d.env.verifiers.verifyPassword password user.passwordHash) :
    ∃ users, verifyCredentials d.env.verifiers s.flows.db.users s.flows.redis.now
      (some d.tenantId) user.email password = some (users, user.toIdentity) := by
  have hplain : (accountOf user).Plain d.tenantId := plain_of_mem hS h
  have hemails : (s.flows.db.users.map (·.email)).Nodup := by
    have hemails := hS.emails
    rwa [State.access, List.map_map] at hemails
  have hget : getByEmail s.flows.db.users (some d.tenantId) user.email = some user :=
    find?_of_nodup_map hemails h (decide_eq_true ⟨hplain.tenant, rfl, hplain.kept⟩)
      fun _ hr => (of_decide_eq_true hr).2.1
  refine ⟨updateUser s.flows.db.users user.id
    fun u => { u with lastLoginAt := some s.flows.redis.now }, ?_⟩
  rw [verifyCredentials, hget, Option.bind_some]
  exact if_pos ⟨hpassword, hplain.active⟩

/-- A party holds a credential of exactly the accounts it was let in to. -/
theorem holds_iff (hS : Sound d s.access) :
    Holds d s party userId ↔ (party, userId) ∈ s.entered := by
  constructor
  · intro h
    -- From credentials that work to an entry of the party.
    cases h with
    | password email password users identity held verified account =>
      exact hS.held (party, userId, password) held
    | session row opened stored live active account =>
      exact account ▸ hS.opened (party, row) opened
    | identity providerKey subject link configured owned stored active account =>
      rw [← owned, ← account]
      exact hS.links providerKey subject link stored
  · intro h
    -- From an entry to credentials that work: its account has a way for it.
    obtain ⟨a, ha, hid, hway⟩ := hS.ways (party, userId) h
    obtain ⟨user, hmem, rfl⟩ := List.mem_map.mp ha
    have hid : user.id = userId := hid
    cases hway with
    | password password held verified =>
      obtain ⟨users, hverified⟩ := verifyCredentials_of_mem hS hmem verified
      exact .password user.email password users user.toIdentity (hid ▸ held) hverified hid
    | link providerKey subject o configured stored account owned =>
      have hactive := active_of_mem hS hmem
      have huser : o.userId = user.id := account
      refine .identity providerKey subject o configured owned stored ?_ (huser.trans hid)
      rw [huser, hactive]
      rfl

end Holders

/-! ### When a social sign-in is safe -/

section Safety

variable {d} {s t : State Party}

/-- A sign-in to an account of the address the provider verified is on record. -/
theorem returned_vouch {party : Party} {profile : OAuthProfile} {identity : UserIdentity}
    (hs : s.returned = none) {r : Return Party}
    (h : (s.vouch party profile identity).returned = some r) :
    profile.emailVerified = true ∧ profile.email = some identity.email ∧
      r = ⟨party, identity.id, identity.email⟩ := by
  unfold State.vouch at h
  split at h
  · next hverified =>
    dsimp only at h
    split at h
    · next hemail => exact ⟨hverified, hemail, (Option.some.inj h).symm⟩
    · cases h
  · rw [hs] at h
    cases h

/-- Proofs of an address are not forgotten. -/
theorem proved_vouch {party : Party} {profile : OAuthProfile} {identity : UserIdentity}
    {proof : Party × String} (h : proof ∈ s.proved) :
    proof ∈ (s.vouch party profile identity).proved := by
  unfold State.vouch
  split
  · exact List.mem_append_right _ h
  · exact h

/-- A vetted sign-in is safe. -/
theorem safe_of_vetted (hs : (signIns d).Reachable s) {providerKey : String} {state : Token}
    {exchange : Option OAuthProfile} {id : Uuid} {passwordHash : String} {caller : Caller}
    (hst : (signIns d).step s
      (.completeOauth providerKey state exchange id passwordHash caller) = some t)
    (hv : Vetted d s (.completeOauth providerKey state exchange id passwordHash caller)) :
    Safe d t := by
  have hS : Sound d s.access := sound_access hs
  have hT : Sound d t.access := sound_access (hs.step hst)
  obtain ⟨hid, ⟨after, e, -, rfl⟩ |
    ⟨profile, db, identity, rfl, hprovider, hticket, hlink, rfl⟩⟩ := completeOauth_step hst
  · exact fun r hr => nomatch hr
  · intro r hr party hparty hproved hholds
    obtain ⟨hverified, hemail, rfl⟩ := returned_vouch rfl hr
    have hmem : (party, identity.id) ∈
        (d.owner providerKey profile.subject, identity.id) :: s.entered := by
      have hentered := (holds_iff hT).mp hholds
      rwa [show State.entered (State.vouch _ _ _ _) = _ from
        congrArg Access.entered (access_vouch _ _ _)] at hentered
    -- the party was let in before, not by this call
    have hbefore : (party, identity.id) ∈ s.entered := by
      rcases List.mem_cons.mp hmem with heq | hbefore
      · exact absurd (congrArg Prod.fst heq) hparty
      · exact hbefore
    have hexisting : oauthAccount s.flows.db d.tenantId providerKey profile = some identity := by
      obtain ⟨link, hsubject, hidentity, -⟩ | ⟨-, ⟨-, hexisting, -⟩ |
        ⟨users, user, data, hcreate, -, rfl, -⟩⟩ := linkOrCreate_cases hlink
      · rw [oauthAccount, hsubject]
        exact hidentity
      · exact hexisting
      · -- nobody was let in to an account that did not exist
        obtain ⟨a, ha, haid, -⟩ := hS.ways _ hbefore
        obtain ⟨u, hu, rfl⟩ := List.mem_map.mp ha
        have huid : u.id = id := haid.trans (createAccount_eq_ok hcreate).2.1
        exact absurd (huid ▸ List.mem_map_of_mem hu) hid
    refine hproved (proved_vouch (hv (d.owner providerKey profile.subject, identity) ?_
      (party, identity.id) hbefore rfl hparty))
    simp only [Label.claims]
    rw [if_pos ⟨hprovider, hticket, hverified⟩, hexisting]
    simp [hemail]

/-- A sign-in to an existing account lets its party in, and is on record. -/
theorem completeOauth_returned {providerKey : String} {state : Token} {profile : OAuthProfile}
    {id : Uuid} {passwordHash : String} {caller : Caller} {identity : UserIdentity}
    (hst : (signIns d).step s
      (.completeOauth providerKey state (some profile) id passwordHash caller) = some t)
    (hprovider : providerKey ∈ d.env.oauthProviders)
    (hticket : s.flows.redis.get (.oauthState (d.env.hashToken state)) =
      some (.oauthState (some d.tenantId) providerKey))
    (hexisting : oauthAccount s.flows.db d.tenantId providerKey profile = some identity)
    (hverified : profile.emailVerified = true) (hemail : profile.email = some identity.email) :
    t.returned = some ⟨d.owner providerKey profile.subject, identity.id, identity.email⟩ ∧
      t.proved = (d.owner providerKey profile.subject, identity.email) :: s.proved ∧
      t.entered = (d.owner providerKey profile.subject, identity.id) :: s.entered := by
  obtain ⟨db, hlink⟩ := linkOrCreate_of_oauthAccount hexisting s.flows.redis.now id passwordHash
  -- The login goes through to the issue of a session.
  have hissue : Login.completeOauth d.env s.flows d.tenantId providerKey state (some profile)
      id passwordHash caller = issue d.env { s.flows with
        db, redis := s.flows.redis.del (.oauthState (d.env.hashToken state)) } identity
        caller := by
    simp [Login.completeOauth, hprovider, hticket, hlink]
  obtain ⟨-, ⟨after, e, herror, -⟩ | ⟨profile', db', identity', heq, -, -, hlink', rfl⟩⟩ :=
    completeOauth_step hst
  · rw [hissue] at herror
    cases herror
  · obtain rfl := Option.some.inj heq
    -- The identity returned is that of the owner's link.
    obtain ⟨rfl, rfl⟩ := Prod.mk.inj (Except.ok.inj (hlink.symm.trans hlink'))
    refine ⟨?_, ?_, congrArg Access.entered (access_vouch _ _ _)⟩
    · rw [State.vouch, if_pos hverified]
      exact if_pos hemail
    · rw [State.vouch, if_pos hverified]
      show profile.email.toList.map _ ++ s.proved = _
      rw [hemail]
      rfl

/-- Who was let in before still has a way in, so a sign-in that was not vetted is not safe. -/
theorem vetted_of_safe (hs : (signIns d).Reachable s) {providerKey : String} {state : Token}
    {exchange : Option OAuthProfile} {id : Uuid} {passwordHash : String} {caller : Caller}
    (hst : (signIns d).step s
      (.completeOauth providerKey state exchange id passwordHash caller) = some t)
    (hsafe : Safe d t) :
    Vetted d s (.completeOauth providerKey state exchange id passwordHash caller) := by
  intro claim hclaim entry hentry hid hne
  cases exchange with
  | none => cases hclaim
  | some profile =>
    simp only [Label.claims] at hclaim
    split at hclaim
    · next hconditions =>
      obtain ⟨hprovider, hticket, hverified⟩ := hconditions
      simp only [Option.mem_def, Option.map_eq_some_iff, Option.filter_eq_some_iff,
        decide_eq_true_eq] at hclaim
      obtain ⟨identity, ⟨hexisting, hemail⟩, rfl⟩ := hclaim
      have hT : Sound d t.access := sound_access (hs.step hst)
      obtain ⟨hreturned, hproved, hentered⟩ :=
        completeOauth_returned hst hprovider hticket hexisting hverified hemail
      have hin : (entry.1, identity.id) ∈ t.entered := by
        rw [hentered, ← hid]
        exact List.mem_cons_of_mem _ hentry
      by_contra hnot
      refine hsafe _ hreturned entry.1 hne ?_ ((holds_iff hT).mpr hin)
      -- the call has proved the address for the party that signs in only
      rw [hproved]
      intro hproof
      rcases List.mem_cons.mp hproof with heq | hbefore
      · exact hne (congrArg Prod.fst heq)
      · exact hnot hbefore
    · cases hclaim

/-- No other call returns an account through a provider. -/
theorem safe_of_other {l : Label Party} (hst : (signIns d).step s l = some t)
    (hl : ∀ providerKey state exchange id passwordHash caller,
      l ≠ .completeOauth providerKey state exchange id passwordHash caller) : Safe d t := by
  -- Only a completed login at a provider returns an account.
  have hnone : t.returned = none := by
    cases l with
    | register party id data password breached token caller =>
      simp only [signIns] at hst
      split at hst
      · split at hst <;> cases hst <;> rfl
      · cases hst
    | verifyEmail party token =>
      simp only [signIns] at hst
      split at hst <;> cases hst <;> rfl
    | login party email password locked mfaToken caller =>
      simp only [signIns] at hst
      split at hst <;> cases hst <;> rfl
    | startOauth providerKey state =>
      cases hst
      rfl
    | completeOauth providerKey state exchange id passwordHash caller =>
      exact absurd rfl (hl providerKey state exchange id passwordHash caller)
    | wait seconds =>
      cases hst
      rfl
  intro r hr
  rw [hnone] at hr
  cases hr

/-- A call leaves the agency safe exactly if it was vetted. -/
theorem safe_iff_vetted (hs : (signIns d).Reachable s) {l : Label Party}
    (hst : (signIns d).step s l = some t) : Safe d t ↔ Vetted d s l := by
  cases l with
  | completeOauth providerKey state exchange id passwordHash caller =>
    exact ⟨vetted_of_safe hs hst, safe_of_vetted hs hst⟩
  | register | verifyEmail | login | startOauth | wait =>
    exact iff_of_true (safe_of_other hst (by intros; nofun)) fun _ hclaim => nomatch hclaim

/-- **No account pre-hijacking through social sign-in, as far as earlier entrants are vetted.**
In a run of vetted calls no returned account has a stranger's credential on it; and a call that
is not vetted leaves one there. -/
theorem no_prehijacking (d : Deployment Party) :
    (∀ s, (signIns d).ReachVia (Vetted d) s → Safe d s) ∧
      ∀ s l t, (signIns d).Reachable s → (signIns d).step s l = some t →
        (Safe d t ↔ Vetted d s l) := by
  refine ⟨fun s hs => ?_, fun s l t hs hst => safe_iff_vetted hs hst⟩
  cases hs with
  | init hinit =>
    obtain rfl := hinit
    exact fun r hr => nomatch hr
  | step hr hg hst => exact (safe_iff_vetted hr.reachable hst).mpr hg

end Safety

/-! ### An address registered by someone else -/

/-- Who registers an address, and who reads its mail. -/
inductive Visitor where
  | registrant
  | owner
  deriving DecidableEq

/-- A password verifies against its own hash; one provider is configured. -/
def agency : Deployment Visitor where
  env :=
    { verifiers := ⟨fun password hash => hash = "argon2$" ++ password, fun _ _ _ => false⟩
      hashToken := id
      settings := default
      oauthProviders := ["google"] }
  tenantId := 7
  owner _ subject := if subject = "owner" then .owner else .registrant

/-- The registration, under an address and with a password of the registrant's choice. -/
def registered : List (Label Visitor) :=
  [.register .registrant 1
    { email := "owner@mail.test", passwordHash := "argon2$hunter2", role := .buyerRenter }
    "hunter2" false 100 { refreshToken := 1, familyId := 1 }]

/-- The owner signs in through a provider that verified the address. -/
def signedIn : List (Label Visitor) :=
  [.startOauth "google" 5,
    .completeOauth "google" 5
      (some { subject := "owner", email := some "owner@mail.test", emailVerified := true }) 2
      "argon2$random" { refreshToken := 2, familyId := 2 }]

/-- A run of vetted calls: the registrant redeems the code mailed to the address before the
owner signs in. -/
theorem no_prehijacking_redeemed : ∃ s, (signIns agency).ReachVia (Vetted agency) s ∧
    s.returned = some ⟨.owner, 1, "owner@mail.test"⟩ ∧ Holds agency s .registrant 1 ∧
    Safe agency s ∧
    ∀ l t, (signIns agency).step s l = some t → (Safe agency t ↔ Vetted agency s l) := by
  obtain ⟨s, hs, hp⟩ := Machine.exists_reachVia_of_run (M := signIns agency)
    (G := Vetted agency) (List.flatten [registered, [.verifyEmail .registrant 100], signedIn])
    (fun s => s.returned = some ⟨.owner, 1, "owner@mail.test"⟩ ∧
      (Visitor.registrant, 1) ∈ s.entered) rfl (by decide)
  obtain ⟨hreturned, hentered⟩ := of_decide_eq_true hp
  refine ⟨s, hs, hreturned, (holds_iff (sound_access hs.reachable)).mpr hentered, ?_, ?_⟩
  · exact (no_prehijacking agency).1 s hs
  · exact fun l t hst => (no_prehijacking agency).2 s l t hs.reachable hst

/-- **The owner is signed in to the account of whoever registered the address first**, who
never proved control of it and whose password still works. -/
theorem prehijacked : ¬∀ s, (signIns agency).Reachable s → Safe agency s := by
  obtain ⟨s, hs, hp⟩ := Machine.exists_reachable_of_run (M := signIns agency)
    (List.flatten [registered, signedIn])
    (fun s => s.returned = some ⟨.owner, 1, "owner@mail.test"⟩ ∧
      (Visitor.registrant, 1) ∈ s.entered ∧
      (Visitor.registrant, "owner@mail.test") ∉ s.proved) rfl (by decide)
  obtain ⟨hreturned, hentered, hproved⟩ := of_decide_eq_true hp
  intro hsafe
  refine hsafe s hs _ hreturned .registrant (by decide) hproved ?_
  exact (holds_iff (sound_access hs)).mpr hentered

end SignIns

end Auth

end RealEstate
