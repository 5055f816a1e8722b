import Mathlib.Logic.Relation
import RealEstate.Auth.SignIns

/-!
# Who can open which account

The sign-ins of an agency, told only with accounts, links and the credentials of
each party.

- `Access.Step`: an account is registered; or a party gets in with the account's
  password, through a link, or through a new link.
- `Access.Sound`: whoever was let in to an account has a password or a link that
  fits it, and nobody has a credential of an account it was not let in to.
- `step_access`: every call is a short run of these steps. `sound_access`: so
  `Sound` holds of every state reached.
-/

namespace RealEstate

namespace Auth

namespace SignIns

open RealEstate.Core Users Systems Login

variable {Party : Type} (d : Deployment Party)

/-! ### Who can open which account -/

/-- An active account of the agency, without a second factor. -/
structure Account.Plain (tenantId : Uuid) (a : Account) : Prop where
  tenant : a.tenantId = some tenantId
  active : a.status = .active
  kept : a.deletedAt = none
  noFactor : a.mfaEnabled = false

/-- Accounts, links, and the credentials each party has. -/
structure Access (Party : Type) where
  accounts : List Account
  links : List OAuthIdentity
  held : List (Party × Uuid × String)
  opened : List (Party × AuthSession)
  entered : List (Party × Uuid)

/-- What of a state bears on access. -/
def State.access (s : State Party) : Access Party where
  accounts := s.flows.db.users.map accountOf
  links := s.flows.db.oauthIdentities
  held := s.held
  opened := s.opened
  entered := s.entered

namespace Access

/-- An account more. -/
def create (x : Access Party) (a : Account) : Access Party :=
  { x with accounts := a :: x.accounts }

/-- An identity more. -/
def link (x : Access Party) (o : OAuthIdentity) : Access Party :=
  { x with links := o :: x.links }

/-- A password that a party knows. -/
def hold (x : Access Party) (party : Party) (userId : Uuid) (password : String) : Access Party :=
  { x with held := (party, userId, password) :: x.held }

/-- A session of a party. -/
def enter (x : Access Party) (party : Party) (row : AuthSession) : Access Party :=
  { x with opened := (party, row) :: x.opened, entered := (party, row.userId) :: x.entered }

/-- The account at a provider is linked by this row. -/
def linked (x : Access Party) (providerKey subject : String) : Option OAuthIdentity :=
  x.links.find? fun o =>
    o.tenantId = some d.tenantId ∧ o.provider = providerKey ∧ o.subject = subject

/-- Registration, and the three ways in: with the account's password, through a link, and
through a new link. -/
inductive Step (x : Access Party) : Access Party → Prop where
  | create (a : Account) (plain : a.Plain d.tenantId) (id : a.id ∉ x.accounts.map (·.id))
      (email : a.email ∉ x.accounts.map (·.email)) : Step x (x.create a)
  | password (party : Party) (a : Account) (row : AuthSession) (password : String)
      (mem : a ∈ x.accounts) (user : row.userId = a.id)
      (verified : d.env.verifiers.verifyPassword password a.passwordHash) :
      Step x ((x.enter party row).hold party a.id password)
  | linked (providerKey subject : String) (o : OAuthIdentity) (a : Account) (row : AuthSession)
      (configured : providerKey ∈ d.env.oauthProviders)
      (stored : x.linked d providerKey subject = some o) (mem : a ∈ x.accounts)
      (account : o.userId = a.id) (user : row.userId = a.id) :
      Step x (x.enter (d.owner providerKey subject) row)
  | link (o : OAuthIdentity) (a : Account) (row : AuthSession)
      (configured : o.provider ∈ d.env.oauthProviders) (tenant : o.tenantId = some d.tenantId)
      (absent : x.linked d o.provider o.subject = none) (mem : a ∈ x.accounts)
      (account : o.userId = a.id) (user : row.userId = a.id) :
      Step x ((x.link o).enter (d.owner o.provider o.subject) row)

/-- A credential of the party fits the account. -/
inductive Way (x : Access Party) (party : Party) (a : Account) : Prop where
  | password (password : String) (held : (party, a.id, password) ∈ x.held)
      (verified : d.env.verifiers.verifyPassword password a.passwordHash)
  | link (providerKey subject : String) (o : OAuthIdentity)
      (configured : providerKey ∈ d.env.oauthProviders)
      (stored : x.linked d providerKey subject = some o) (account : o.userId = a.id)
      (owned : d.owner providerKey subject = party)

/-- Every party has a way in to the accounts it was let in to, and credentials of no others. -/
structure Sound (x : Access Party) : Prop where
  ids : (x.accounts.map (·.id)).Nodup
  emails : (x.accounts.map (·.email)).Nodup
  plain : ∀ a ∈ x.accounts, a.Plain d.tenantId
  ways : ∀ entry ∈ x.entered, ∃ a ∈ x.accounts, a.id = entry.2 ∧ Way d x entry.1 a
  held : ∀ h ∈ x.held, (h.1, h.2.1) ∈ x.entered
  opened : ∀ o ∈ x.opened, (o.1, o.2.userId) ∈ x.entered
  links : ∀ providerKey subject o, x.linked d providerKey subject = some o →
    (d.owner providerKey subject, o.userId) ∈ x.entered

variable {d} {x y : Access Party}

/-- The lookup of an identity after one was linked. -/
theorem linked_link {o : OAuthIdentity} (tenant : o.tenantId = some d.tenantId)
    (providerKey subject : String) : (x.link o).linked d providerKey subject =
      if o.provider = providerKey ∧ o.subject = subject then some o
      else x.linked d providerKey subject := by
  unfold linked link
  rw [List.find?_cons]
  by_cases ho : o.provider = providerKey ∧ o.subject = subject
  · rw [if_pos ho, decide_eq_true ⟨tenant, ho⟩]
  · rw [if_neg ho, decide_eq_false fun h => ho h.2]

/-- A new link hides none. -/
theorem linked_of_link {o : OAuthIdentity} (tenant : o.tenantId = some d.tenantId)
    (absent : x.linked d o.provider o.subject = none) {providerKey subject : String}
    {o' : OAuthIdentity} (h : x.linked d providerKey subject = some o') :
    (x.link o).linked d providerKey subject = some o' := by
  rw [linked_link tenant]
  split
  · next ho =>
    rw [← ho.1, ← ho.2, absent] at h
    cases h
  · exact h

/-- More passwords and more links take no way in away. -/
theorem Way.mono {party : Party} {a : Account} (h : Way d x party a)
    (hheld : ∀ e ∈ x.held, e ∈ y.held)
    (hlinked : ∀ providerKey subject o, x.linked d providerKey subject = some o →
      y.linked d providerKey subject = some o) : Way d y party a := by
  cases h with
  | password password held verified => exact .password password (hheld _ held) verified
  | link providerKey subject o configured stored account owned =>
    exact .link providerKey subject o configured (hlinked _ _ _ stored) account owned

/-- A new account with a new address, of nobody but its owner. -/
theorem Sound.create (h : Sound d x) {a : Account} (plain : a.Plain d.tenantId)
    (id : a.id ∉ x.accounts.map (·.id)) (email : a.email ∉ x.accounts.map (·.email)) :
    Sound d (x.create a) where
  ids := List.nodup_cons.mpr ⟨id, h.ids⟩
  emails := List.nodup_cons.mpr ⟨email, h.emails⟩
  plain b hb := by
    rcases List.mem_cons.mp hb with rfl | hb
    · exact plain
    · exact h.plain b hb
  ways entry hentry := by
    obtain ⟨b, hb, hid, hway⟩ := h.ways entry hentry
    refine ⟨b, List.mem_cons_of_mem a hb, hid, ?_⟩
    exact hway.mono (fun _ he => he) fun _ _ _ ho => ho
  held := h.held
  opened := h.opened
  links := h.links

variable (d) in
/-- `y` is `x` with one more party let in to an account, by a credential recorded as its. -/
structure Admits (x y : Access Party) (party : Party) (a : Account) : Prop where
  mem : a ∈ x.accounts
  accounts : y.accounts = x.accounts
  entered : y.entered = (party, a.id) :: x.entered
  opened : ∀ o ∈ y.opened, o ∈ x.opened ∨ (o.1, o.2.userId) = (party, a.id)
  held : ∀ e ∈ y.held, e ∈ x.held ∨ (e.1, e.2.1) = (party, a.id)
  kept : ∀ e ∈ x.held, e ∈ y.held
  links : ∀ providerKey subject o, y.linked d providerKey subject = some o →
    x.linked d providerKey subject = some o ∨
      (d.owner providerKey subject, o.userId) = (party, a.id)
  linked : ∀ providerKey subject o, x.linked d providerKey subject = some o →
    y.linked d providerKey subject = some o
  way : Way d y party a

/-- A session or a password more, for a party that was admitted. -/
theorem Sound.admit (h : Sound d x) {party : Party} {a : Account}
    (ha : Admits d x y party a) : Sound d y where
  ids := ha.accounts ▸ h.ids
  emails := ha.accounts ▸ h.emails
  plain := ha.accounts ▸ h.plain
  -- Entries of before keep their way in; the new one has that of the account.
  ways entry hentry := by
    rw [ha.entered] at hentry
    rw [ha.accounts]
    rcases List.mem_cons.mp hentry with rfl | hentry
    · exact ⟨a, ha.mem, rfl, ha.way⟩
    · obtain ⟨b, hb, hid, hway⟩ := h.ways entry hentry
      exact ⟨b, hb, hid, hway.mono ha.kept ha.linked⟩
  held e he := by
    rw [ha.entered]
    rcases ha.held e he with hold | hnew
    · exact List.mem_cons_of_mem _ (h.held e hold)
    · exact hnew ▸ List.mem_cons_self
  opened o ho := by
    rw [ha.entered]
    rcases ha.opened o ho with hold | hnew
    · exact List.mem_cons_of_mem _ (h.opened o hold)
    · exact hnew ▸ List.mem_cons_self
  links providerKey subject o ho := by
    rw [ha.entered]
    rcases ha.links providerKey subject o ho with hold | hnew
    · exact List.mem_cons_of_mem _ (h.links providerKey subject o hold)
    · exact hnew ▸ List.mem_cons_self

/-- What `enter` adds to the sessions given out. -/
theorem mem_opened_enter {party : Party} {row : AuthSession} {userId : Uuid}
    (user : row.userId = userId) {o : Party × AuthSession}
    (ho : o ∈ (x.enter party row).opened) :
    o ∈ x.opened ∨ (o.1, o.2.userId) = (party, userId) := by
  rcases List.mem_cons.mp ho with rfl | ho
  · exact .inr (by rw [user])
  · exact .inl ho

/-- Whoever knows the password gets in. -/
theorem admits_password {party : Party} {a : Account} {row : AuthSession} {password : String}
    (mem : a ∈ x.accounts) (user : row.userId = a.id)
    (verified : d.env.verifiers.verifyPassword password a.passwordHash) :
    Admits d x ((x.enter party row).hold party a.id password) party a where
  mem := mem
  accounts := rfl
  entered := congrArg (fun i => (party, i) :: x.entered) user
  opened _ ho := mem_opened_enter user ho
  held e he := by
    rcases List.mem_cons.mp he with rfl | he
    · exact .inr rfl
    · exact .inl he
  kept _ he := List.mem_cons_of_mem _ he
  links _ _ _ ho := .inl ho
  linked _ _ _ ho := ho
  way := .password password List.mem_cons_self verified

/-- So does the owner of a linked identity. -/
theorem admits_linked {providerKey subject : String} {o : OAuthIdentity} {a : Account}
    {row : AuthSession} (configured : providerKey ∈ d.env.oauthProviders)
    (stored : x.linked d providerKey subject = some o) (mem : a ∈ x.accounts)
    (account : o.userId = a.id) (user : row.userId = a.id) :
    Admits d x (x.enter (d.owner providerKey subject) row) (d.owner providerKey subject) a where
  mem := mem
  accounts := rfl
  entered := congrArg (fun i => (d.owner providerKey subject, i) :: x.entered) user
  opened _ ho := mem_opened_enter user ho
  held _ he := .inl he
  kept _ he := he
  links _ _ _ ho := .inl ho
  linked _ _ _ ho := ho
  way := .link providerKey subject o configured stored account rfl

/-- Or of one that is linked now, to the account of its verified address. -/
theorem admits_link {o : OAuthIdentity} {a : Account} {row : AuthSession}
    (configured : o.provider ∈ d.env.oauthProviders) (tenant : o.tenantId = some d.tenantId)
    (absent : x.linked d o.provider o.subject = none) (mem : a ∈ x.accounts)
    (account : o.userId = a.id) (user : row.userId = a.id) :
    Admits d x ((x.link o).enter (d.owner o.provider o.subject) row)
      (d.owner o.provider o.subject) a where
  mem := mem
  accounts := rfl
  entered := congrArg (fun i => (d.owner o.provider o.subject, i) :: x.entered) user
  opened _ ho := mem_opened_enter user ho
  held _ he := .inl he
  kept _ he := he
  links providerKey subject o' ho' := by
    have hlinks : (x.link o).linked d providerKey subject = some o' := ho'
    rw [linked_link tenant] at hlinks
    split at hlinks
    · next hkey =>
      obtain rfl := Option.some.inj hlinks
      exact .inr (by rw [hkey.1, hkey.2, account])
    · exact .inl hlinks
  linked _ _ _ ho := linked_of_link tenant absent ho
  way := by
    refine .link o.provider o.subject o configured ?_ account rfl
    exact (linked_link tenant o.provider o.subject).trans (if_pos ⟨rfl, rfl⟩)

/-- Every step keeps the credentials and the accounts in agreement. -/
theorem Sound.step (h : Sound d x) (hst : Step d x y) : Sound d y := by
  cases hst with
  | create a plain id email => exact h.create plain id email
  | password party a row password mem user verified =>
    exact h.admit (admits_password mem user verified)
  | linked providerKey subject o a row configured stored mem account user =>
    exact h.admit (admits_linked configured stored mem account user)
  | link o a row configured tenant absent mem account user =>
    exact h.admit (admits_link configured tenant absent mem account user)

variable (d) in
/-- The steps a call makes. -/
abbrev Steps : Access Party → Access Party → Prop := Relation.ReflTransGen (Step d)

/-- Both kinds of steps keep it. -/
theorem Sound.steps (h : Sound d x) (hst : Steps d x y) : Sound d y := by
  induction hst with
  | refl => exact h
  | tail _ hlast ih => exact ih.step hlast

end Access

/-! ### Every call is a run of access steps -/

open Access

section Steps

variable {d} {s t : State Party}

theorem plain_of_mem (hS : Sound d s.access) {user : User} (h : user ∈ s.flows.db.users) :
    (accountOf user).Plain d.tenantId :=
  hS.plain _ (List.mem_map_of_mem h)

/-- The account `create_account` adds is a new one of the agency. -/
theorem create_step (hS : Sound d s.access) {id : Uuid} {data : NewAccount} {users : List User}
    {user : User} (hfresh : id ∉ s.flows.db.users.map (·.id))
    (h : createAccount s.flows.db.users id (some d.tenantId) data = .ok (users, user)) :
    users.map accountOf = accountOf user :: s.access.accounts ∧
      (accountOf user).passwordHash = data.passwordHash ∧
      Access.Step d s.access (s.access.create (accountOf user)) := by
  obtain ⟨rfl, haccount, hunique⟩ := accountOf_createAccount h
  refine ⟨rfl, by rw [haccount], .create _ ?_ ?_ ?_⟩
  · rw [haccount]
    exact ⟨rfl, rfl, rfl, rfl⟩
  · rw [haccount]
    intro hid
    obtain ⟨_, ha, rfl⟩ := List.mem_map.mp hid
    obtain ⟨u, hu, rfl⟩ := List.mem_map.mp ha
    exact hfresh (List.mem_map_of_mem hu)
  · rw [haccount]
    intro hemail
    obtain ⟨_, ha, hemail⟩ := List.mem_map.mp hemail
    obtain ⟨u, hu, rfl⟩ := List.mem_map.mp ha
    exact hunique u hu (plain_of_mem hS hu).tenant hemail

theorem access_vouch (party : Party) (profile : OAuthProfile) (identity : UserIdentity) :
    (s.vouch party profile identity).access = s.access := by
  unfold State.vouch
  split <;> rfl

/-- What the end of a call that returns an account leaves of the story. -/
theorem access_enter (after : Login.State) (party : Party) (identity : UserIdentity)
    (caller : Caller) :
    (s.enter d (issue d.env after identity caller) party identity caller).access =
      ({ s.access with
        accounts := after.db.users.map accountOf
        links := after.db.oauthIdentities } : Access Party).enter party
          (issueSession d.env.settings s.flows.redis.now identity caller.client
            (d.env.hashToken caller.refreshToken) caller.familyId) := rfl

/-- Registering creates the account of the party, or does nothing. -/
theorem register_access (hS : Sound d s.access) {party : Party} {id : Uuid} {data : NewAccount}
    {password : String} {breached : Bool} {token : Token} {caller : Caller}
    (hst : (signIns d).step s (.register party id data password breached token caller) = some t) :
    Steps d s.access t.access := by
  simp only [signIns] at hst
  split at hst
  · next hok =>
    obtain ⟨hfresh, hpassword⟩ := hok
    have hid : id ∉ s.flows.db.users.map (·.id) := by simpa [freshId] using hfresh
    obtain ⟨e, herror⟩ | ⟨users, user, hcreate, hissue⟩ :=
      register_cases d.env s.flows d.tenantId id data breached caller
    · rw [herror] at hst
      cases hst
      exact .refl
    · rw [hissue] at hst
      cases hst
      obtain ⟨hrows, hhash, hstep⟩ := create_step hS hid hcreate
      -- two steps: the account, and its first session
      refine (Relation.ReflTransGen.single hstep).tail ?_
      show Access.Step d _ ((State.enter d s _ _ _ _).access.hold party user.id password)
      rw [access_enter]
      dsimp only
      rw [hrows]
      exact .password party (accountOf user) _ password List.mem_cons_self rfl (hhash ▸ hpassword)
  · cases hst

/-- A login by password admits a party that knows it. -/
theorem login_access (hS : Sound d s.access) {party : Party} {email password : String}
    {locked : Bool} {mfaToken : Token} {caller : Caller}
    (hst : (signIns d).step s (.login party email password locked mfaToken caller) = some t) :
    Steps d s.access t.access := by
  simp only [signIns] at hst
  have hplain : ∀ user ∈ s.flows.db.users, user.mfaEnabled = false :=
    fun user hu => (plain_of_mem hS hu).noFactor
  obtain ⟨e, herror⟩ | ⟨users, user, hmem, hpassword, hrows, hissue⟩ :=
    login_cases hplain d.env (some d.tenantId) email password locked mfaToken caller
  · rw [herror] at hst
    cases hst
    exact .refl
  · rw [hissue] at hst
    cases hst
    refine .single ?_
    show Access.Step d _ ((State.enter d s _ _ _ _).access.hold party user.id password)
    rw [access_enter]
    dsimp only
    rw [hrows]
    exact .password party (accountOf user) _ password (List.mem_map_of_mem hmem) rfl hpassword

/-- A social sign-in fails, or lets in who owns the account at the provider. -/
theorem completeOauth_step {providerKey : String} {state : Token}
    {exchange : Option OAuthProfile} {id : Uuid} {passwordHash : String} {caller : Caller}
    (hst : (signIns d).step s
      (.completeOauth providerKey state exchange id passwordHash caller) = some t) :
    id ∉ s.flows.db.users.map (·.id) ∧ ((∃ after e,
        Login.completeOauth d.env s.flows d.tenantId providerKey state exchange id passwordHash
          caller = (after, .error e) ∧ t = s.settle (after, .error e)) ∨
      ∃ profile db identity, exchange = some profile ∧ providerKey ∈ d.env.oauthProviders ∧
        s.flows.redis.get (.oauthState (d.env.hashToken state)) =
          some (.oauthState (some d.tenantId) providerKey) ∧
        linkOrCreateOauthAccount s.flows.db s.flows.redis.now d.tenantId providerKey profile id
          passwordHash = .ok (db, identity) ∧
        t = (s.enter d (issue d.env { s.flows with
            db, redis := s.flows.redis.del (.oauthState (d.env.hashToken state)) } identity caller)
          (d.owner providerKey profile.subject) identity caller).vouch
            (d.owner providerKey profile.subject) profile identity) := by
  simp only [signIns] at hst
  split at hst
  · next hfresh =>
    refine ⟨by simpa [freshId] using hfresh, ?_⟩
    obtain ⟨after, e, herror⟩ | ⟨profile, db, identity, rfl, hprovider, hticket, hlink, hissue⟩ :=
      completeOauth_cases d.env s.flows d.tenantId providerKey state exchange id passwordHash
        caller
    · rw [herror] at hst
      refine .inl ⟨after, e, herror, ?_⟩
      cases exchange with
      | none => exact (Option.some.inj hst).symm
      | some profile => exact (Option.some.inj hst).symm
    · rw [hissue] at hst
      exact .inr ⟨profile, db, identity, rfl, hprovider, hticket, hlink,
        (Option.some.inj hst).symm⟩
  · cases hst

/-- A login at a provider admits the owner of the identity there. -/
theorem completeOauth_access (hS : Sound d s.access) {providerKey : String} {state : Token}
    {exchange : Option OAuthProfile} {id : Uuid} {passwordHash : String} {caller : Caller}
    (hst : (signIns d).step s
      (.completeOauth providerKey state exchange id passwordHash caller) = some t) :
    Steps d s.access t.access := by
  obtain ⟨hid, ⟨after, e, -, rfl⟩ | ⟨profile, db, identity, rfl, hprovider, -, hlink, rfl⟩⟩ :=
    completeOauth_step hst
  · exact .refl
  · rw [access_vouch, access_enter]
    dsimp only
    obtain ⟨link, hsubject, hidentity, rfl⟩ | ⟨habsent, ⟨hexisting, -, rfl⟩ |
      ⟨users, user, data, hcreate, -, rfl, rfl⟩⟩ := linkOrCreate_cases hlink
    · obtain ⟨user, hmem, -, huser, -, rfl⟩ := getIdentityIfActive_eq_some hidentity
      refine .single ?_
      exact .linked providerKey profile.subject link (accountOf user) _ hprovider hsubject
        (List.mem_map_of_mem hmem) huser.symm rfl
    · obtain ⟨user, hmem, rfl⟩ := row_of_identityByEmail hexisting
      -- who had the account before keeps it: nothing but the link is new
      refine .single ?_
      rw [accounts_linkAccount]
      exact .link (linkOf d.tenantId providerKey profile user.id) (accountOf user) _ hprovider
        rfl habsent (List.mem_map_of_mem hmem) rfl rfl
    · obtain ⟨hrows, -, hstep⟩ := create_step hS hid hcreate
      refine (Relation.ReflTransGen.single hstep).tail ?_
      rw [accounts_linkAccount]
      dsimp only
      rw [hrows]
      exact .link (linkOf d.tenantId providerKey profile user.id) (accountOf user) _ hprovider
        rfl habsent List.mem_cons_self rfl rfl

/-- **Every call is a run of access steps.** -/
theorem step_access (hS : Sound d s.access) {l : Label Party}
    (hst : (signIns d).step s l = some t) : Steps d s.access t.access := by
  cases l with
  | register party id data password breached token caller => exact register_access hS hst
  | verifyEmail party token =>
    simp only [signIns] at hst
    split at hst
    · cases hst
      exact .refl
    · next verifications users identity hverify =>
      cases hst
      have hrows : users.map accountOf = s.flows.db.users.map accountOf :=
        accounts_verifyEmail hverify
      show Steps d s.access { s.access with accounts := users.map accountOf }
      rw [hrows]
      exact .refl
  | login party email password locked mfaToken caller => exact login_access hS hst
  | startOauth providerKey state =>
    cases hst
    unfold Login.startOauth
    split
    · exact .refl
    · exact .refl
  | completeOauth providerKey state exchange id passwordHash caller =>
    exact completeOauth_access hS hst
  | wait seconds =>
    cases hst
    exact .refl

theorem sound_access (hs : (signIns d).Reachable s) : Sound d s.access := by
  refine Machine.Inductive.always (M := signIns d) (G := fun _ _ => True)
    (I := fun s => Sound d s.access) ⟨?_, ?_⟩ hs
  · rintro _ rfl
    refine ⟨List.nodup_nil, List.nodup_nil, fun _ h => absurd h List.not_mem_nil,
      fun _ h => absurd h List.not_mem_nil, fun _ h => absurd h List.not_mem_nil,
      fun _ h => absurd h List.not_mem_nil, ?_⟩
    intro providerKey subject o hlinked
    cases hlinked
  · exact fun _ _ _ hS _ hst => hS.steps (step_access hS hst)

end Steps

end SignIns

end Auth

end RealEstate
