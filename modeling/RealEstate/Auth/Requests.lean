import RealEstate.Auth.Sessions
import RealEstate.Systems.Machine
import RealEstate.Systems.Table

/-!
# Session requests, statement by statement

`modules/auth/service.py` under READ COMMITTED: sign-ins, refreshes and bulk
revocations run at the same time, and every statement of a request is a step of
its own.

- A refresh reads the presented row without a lock, reads the account, then
  flushes: the `UPDATE` of the presented row (by primary key, which waits for
  the row lock and does not look at `revoked_at` again), then the `INSERT` of
  the new row; then it commits.
- A bulk revocation takes its snapshot, then locks the rows of the snapshot one
  after the other and re-checks its `WHERE` clause on the version it locked. A
  detected reuse revokes the family on a transaction of its own.

`sessionRequests` is the machine, and there is one inversion lemma for each of
its steps.
-/

namespace RealEstate

namespace Auth

open RealEstate.Core Users Systems

/-! ### Requests in progress -/

/-- How far a request has come. -/
inductive Phase where
  | idle
  /-- A refresh with a token, before its first statement. -/
  | presented (tenantId : Option Uuid) (key : Digest)
  /-- The row was read and passed the checks. -/
  | found (tenantId : Option Uuid) (key : Digest) (session : AuthSession)
  /-- The account is active. -/
  | identified (key : Digest) (session : AuthSession) (identity : UserIdentity)
  /-- The presented row was updated. -/
  | stamped (key : Digest) (session : AuthSession) (identity : UserIdentity)
  /-- The new row was inserted. -/
  | rotated (key child : Digest)
  /-- A sign-in that inserted the first row of a family. -/
  | signedIn (key : Digest)
  /-- About to execute a bulk revocation. -/
  | revoke (scope : Scope)
  /-- Executing it: the rows it covered at its snapshot, and those still to lock. -/
  | revoking (scope : Scope) (before todo : List Digest)
  | finished
  deriving DecidableEq

/-- A committed bulk revocation: the sessions it covered at its snapshot, and the refresh
requests that had started when it committed. -/
structure Revocation where
  scope : Scope
  before : List Digest
  refreshes : List Nat

/-- The sessions table and the requests. The last four fields are history: which requests
started, each row's line of descent, the tokens redeemed, the revocations committed. -/
structure State where
  now : DateTime
  sessions : Table Digest AuthSession Nat
  requests : Nat → Phase
  families : List Uuid
  started : List Nat
  refreshes : List Nat
  lineage : Digest → List Digest
  redeemed : List Digest
  revocations : List Revocation

/-- No sessions. -/
def State.empty : State where
  now := 0
  sessions := Table.empty
  requests _ := .idle
  families := []
  started := []
  refreshes := []
  lineage _ := []
  redeemed := []
  revocations := []

/-- A step of a request, or time that passes. -/
inductive Label where
  | wait (seconds : Nat)
  /-- `_issue` of a sign-in; the token and the family id are new. -/
  | signIn (t : Nat) (identity : UserIdentity) (client : ClientInfo) (token : Token)
      (familyId : Uuid)
  | refresh (t : Nat) (tenantId : Option Uuid) (presented : Option Token)
  | read (t : Nat)
  /-- `get_identity_if_active` against the users table of that moment. -/
  | identify (t : Nat) (users : List User)
  | stamp (t : Nat)
  | insert (t : Nat) (client : ClientInfo) (token : Token)
  /-- `force_logout_user`, also as part of `logout_all` and `reset_password`. -/
  | forceLogout (t : Nat) (tenantId : Option Uuid) (userId : Uuid)
  | snapshot (t : Nat)
  | revokeRow (t : Nat) (key : Digest)
  | commit (t : Nat)
  /-- The request raises or dies; its transaction is rolled back. -/
  | abort (t : Nat)

/-- The request a step belongs to. -/
def Label.actor : Label → Option Nat
  | .wait _ => none
  | .signIn t _ _ _ _ | .refresh t _ _ | .read t | .identify t _ | .stamp t | .insert t _ _
  | .forceLogout t _ _ | .snapshot t | .revokeRow t _ | .commit t | .abort t => some t

namespace State

variable (s : State)

/-- Record the new phase of a request. -/
def goto (t : Nat) (phase : Phase) : State :=
  { s with requests := Function.update s.requests t phase }

/-- `_issue`, of a request that signed in. -/
def signIn (hashToken : Token → Digest) (settings : AuthSettings) (t : Nat)
    (identity : UserIdentity) (client : ClientInfo) (token : Token) (familyId : Uuid) :
    Option State :=
  match s.requests t with
  | .idle =>
    if familyId ∈ s.families then none
    else
      let key := hashToken token
      (s.sessions.insert t key
        (issueSession settings s.now identity client key familyId)).map fun sessions =>
        { s.goto t (.signedIn key) with
          sessions
          families := familyId :: s.families
          started := t :: s.started
          lineage := Function.update s.lineage key [key] }
  | _ => none

/-- `refresh` begins. -/
def refresh (hashToken : Token → Digest) (t : Nat) (tenantId : Option Uuid)
    (presented : Option Token) : Option State :=
  match s.requests t with
  | .idle =>
    let phase := match presented with
      | none => .finished
      | some token => .presented tenantId (hashToken token)
    some { s.goto t phase with
      started := t :: s.started
      refreshes := t :: s.refreshes }
  | _ => none

/-- `get_by_token_hash` and the checks. No lock is taken. -/
def read (t : Nat) : Option State :=
  match s.requests t with
  | .presented tenantId key =>
    let row := (s.sessions.visible t key).filter fun row => row.tenantId = tenantId
    match checkPresented s.now row with
    | .ok session => some (s.goto t (.found tenantId key session))
    | .error refusal =>
      match refusal.reuse with
      | some familyId => some (s.goto t (.revoke (.family tenantId familyId)))
      | none => some (s.goto t .finished)
  | _ => none

/-- It looks up the account of the session. -/
def identify (t : Nat) (users : List User) : Option State :=
  match s.requests t with
  | .found tenantId key session =>
    match getIdentityIfActive users tenantId session.userId with
    | none => some (s.goto t .finished)
    | some identity => some (s.goto t (.identified key session identity))
  | _ => none

/-- The `UPDATE`: it waits for the row lock and sets two columns of the latest version. -/
def stamp (t : Nat) : Option State :=
  match s.requests t with
  | .identified key session identity =>
    match s.sessions.visible t key with
    | none => none
    | some row =>
      (s.sessions.write t key (some (row.rotateAway s.now))).map fun sessions =>
        { s.goto t (.stamped key session identity) with sessions }
  | _ => none

/-- It inserts the child session. -/
def insert (hashToken : Token → Digest) (settings : AuthSettings) (t : Nat)
    (client : ClientInfo) (token : Token) : Option State :=
  match s.requests t with
  | .stamped key session identity =>
    let child := hashToken token
    (s.sessions.insert t child
      (issueSession settings s.now identity client child session.familyId)).map fun sessions =>
      { s.goto t (.rotated key child) with
        sessions
        lineage := Function.update s.lineage child (child :: s.lineage key) }
  | _ => none

/-- `force_logout_user` begins. -/
def forceLogout (t : Nat) (tenantId : Option Uuid) (userId : Uuid) : Option State :=
  match s.requests t with
  | .idle => some { s.goto t (.revoke (.user tenantId userId)) with started := t :: s.started }
  | _ => none

/-- The bulk `UPDATE` takes its snapshot. -/
def snapshot (t : Nat) : Option State :=
  match s.requests t with
  | .revoke scope =>
    some (s.goto t (.revoking scope (s.sessions.scan t scope.covers)
      (s.sessions.scan t scope.revokes)))
  | _ => none

/-- One row of the bulk `UPDATE`, once nobody else holds its lock. -/
def revokeRow (t : Nat) (key : Digest) : Option State :=
  match s.requests t with
  | .revoking scope before todo =>
    if key ∈ todo ∧ s.sessions.Free t key then
      match s.sessions.visible t key with
      | none => some (s.goto t (.revoking scope before (todo.erase key)))
      | some row =>
        if scope.revokes row then
          (s.sessions.write t key (some (row.revoke s.now))).map fun sessions =>
            { s.goto t (.revoking scope before (todo.erase key)) with sessions }
        else some (s.goto t (.revoking scope before (todo.erase key)))
    else none
  | _ => none

/-- A request commits. -/
def commit (t : Nat) : Option State :=
  match s.requests t with
  | .signedIn _ => some { s.goto t .finished with sessions := s.sessions.commit t }
  | .rotated key _ =>
    some { s.goto t .finished with
      sessions := s.sessions.commit t
      redeemed := s.redeemed ++ [key] }
  | .revoking scope before [] =>
    some { s.goto t .finished with
      sessions := s.sessions.commit t
      revocations := ⟨scope, before, s.refreshes⟩ :: s.revocations }
  | _ => none

/-- A request fails, and is rolled back. -/
def abort (t : Nat) : Option State :=
  match s.requests t with
  | .idle => none
  | .finished => none
  | _ => some { s.goto t .finished with sessions := s.sessions.rollback t }

end State

/-- One step of the machine. -/
def step (hashToken : Token → Digest) (settings : AuthSettings) (s : State) :
    Label → Option State
  | .wait seconds => some { s with now := s.now + seconds }
  | .signIn t identity client token familyId =>
    s.signIn hashToken settings t identity client token familyId
  | .refresh t tenantId presented => s.refresh hashToken t tenantId presented
  | .read t => s.read t
  | .identify t users => s.identify t users
  | .stamp t => s.stamp t
  | .insert t client token => s.insert hashToken settings t client token
  | .forceLogout t tenantId userId => s.forceLogout t tenantId userId
  | .snapshot t => s.snapshot t
  | .revokeRow t key => s.revokeRow t key
  | .commit t => s.commit t
  | .abort t => s.abort t

/-- Session requests over an initially empty table. -/
def sessionRequests (hashToken : Token → Digest) (settings : AuthSettings) :
    Machine State Label where
  init s := s = State.empty
  step := step hashToken settings

/-! ### What each step does -/

section Steps

variable {hashToken : Token → Digest} {settings : AuthSettings} {s s' : State} {t : Nat}

/-- A sign-in inserts the first session of a new family. -/
theorem signIn_eq_some {identity : UserIdentity} {client : ClientInfo} {token : Token}
    {familyId : Uuid}
    (h : s.signIn hashToken settings t identity client token familyId = some s') :
    s.requests t = .idle ∧ familyId ∉ s.families ∧ ∃ hk,
      s' = { s.goto t (.signedIn (hashToken token)) with
      sessions := s.sessions.inserted t (hashToken token) (issueSession settings s.now identity
        client (hashToken token) familyId) hk
      families := familyId :: s.families
      started := t :: s.started
      lineage := Function.update s.lineage (hashToken token) [hashToken token] } := by
  unfold State.signIn at h
  split at h
  · next hidle =>
    split at h
    · cases h
    · next hfresh =>
      dsimp only at h
      rw [Option.map_eq_some_iff] at h
      obtain ⟨tb, htb, rfl⟩ := h
      obtain ⟨hk, rfl⟩ := Table.insert_eq_some.mp htb
      exact ⟨hidle, hfresh, hk, rfl⟩
  · cases h

/-- A refresh begins with what was presented. -/
theorem refresh_eq_some {tenantId : Option Uuid} {presented : Option Token}
    (h : s.refresh hashToken t tenantId presented = some s') :
    s.requests t = .idle ∧ ∃ phase,
      (phase = .finished ∨ ∃ key, phase = .presented tenantId key) ∧
      s' = { s.goto t phase with
        started := t :: s.started
        refreshes := t :: s.refreshes } := by
  unfold State.refresh at h
  split at h
  · next hidle =>
    refine ⟨hidle, _, ?_, (Option.some.inj h).symm⟩
    cases presented with
    | none => exact .inl rfl
    | some token => exact .inr ⟨_, rfl⟩
  · cases h

/-- It finds a live session, or a used one whose family it revokes, or nothing. -/
theorem read_eq_some (h : s.read t = some s') :
    ∃ tenantId key, s.requests t = .presented tenantId key ∧
      ((∃ session, s.sessions.visible t key = some session ∧ session.tenantId = tenantId ∧
          s' = s.goto t (.found tenantId key session)) ∨
        (∃ familyId, s' = s.goto t (.revoke (.family tenantId familyId))) ∨
          s' = s.goto t .finished) := by
  unfold State.read at h
  split at h
  · next tenantId key hphase =>
    refine ⟨tenantId, key, hphase, ?_⟩
    dsimp only at h
    split at h
    · next session hok =>
      obtain ⟨hrow, -, -⟩ := checkPresented_ok hok
      rw [Option.filter_eq_some_iff] at hrow
      exact .inl ⟨session, hrow.1, of_decide_eq_true hrow.2, (Option.some.inj h).symm⟩
    · split at h
      · exact .inr (.inl ⟨_, (Option.some.inj h).symm⟩)
      · exact .inr (.inr (Option.some.inj h).symm)
  · cases h

theorem identify_eq_some {users : List User} (h : s.identify t users = some s') :
    ∃ tenantId key session, s.requests t = .found tenantId key session ∧
      (s' = s.goto t .finished ∨ ∃ identity, identity.id = session.userId ∧
        identity.tenantId = tenantId ∧ s' = s.goto t (.identified key session identity)) := by
  unfold State.identify at h
  split at h
  · next tenantId key session hphase =>
    refine ⟨tenantId, key, session, hphase, ?_⟩
    split at h
    · exact .inl (Option.some.inj h).symm
    · next identity hident =>
      obtain ⟨user, -, hten, hid, -, rfl⟩ := getIdentityIfActive_eq_some hident
      exact .inr ⟨_, hid, hten, (Option.some.inj h).symm⟩
  · cases h

/-- The presented row is rotated away. -/
theorem stamp_eq_some (h : s.stamp t = some s') :
    ∃ key session identity row hk, s.requests t = .identified key session identity ∧
      s.sessions.visible t key = some row ∧
      s' = { s.goto t (.stamped key session identity) with
        sessions := s.sessions.written t key (some (row.rotateAway s.now)) hk } := by
  unfold State.stamp at h
  split at h
  · next key session identity hphase =>
    split at h
    · cases h
    · next row hrow =>
      rw [Option.map_eq_some_iff] at h
      obtain ⟨tb, htb, rfl⟩ := h
      obtain ⟨hk, rfl⟩ := Table.write_eq_some.mp htb
      exact ⟨key, session, identity, row, hk, hphase, hrow, rfl⟩
  · cases h

/-- The child is of the same family. -/
theorem insert_eq_some {client : ClientInfo} {token : Token}
    (h : s.insert hashToken settings t client token = some s') :
    ∃ key session identity hk, s.requests t = .stamped key session identity ∧
      s' = { s.goto t (.rotated key (hashToken token)) with
        sessions := s.sessions.inserted t (hashToken token) (issueSession settings s.now
          identity client (hashToken token) session.familyId) hk
        lineage := Function.update s.lineage (hashToken token)
          (hashToken token :: s.lineage key) } := by
  unfold State.insert at h
  split at h
  · next key session identity hphase =>
    dsimp only at h
    rw [Option.map_eq_some_iff] at h
    obtain ⟨tb, htb, rfl⟩ := h
    obtain ⟨hk, rfl⟩ := Table.insert_eq_some.mp htb
    exact ⟨key, session, identity, hk, hphase, rfl⟩
  · cases h

theorem forceLogout_eq_some {tenantId : Option Uuid} {userId : Uuid}
    (h : s.forceLogout t tenantId userId = some s') :
    s.requests t = .idle ∧ s' =
      { s.goto t (.revoke (.user tenantId userId)) with started := t :: s.started } := by
  unfold State.forceLogout at h
  split at h
  · next hidle => exact ⟨hidle, (Option.some.inj h).symm⟩
  · cases h

/-- The snapshot finds the rows of its scope. -/
theorem snapshot_eq_some (h : s.snapshot t = some s') :
    ∃ scope, s.requests t = .revoke scope ∧
      s' = s.goto t (.revoking scope (s.sessions.scan t scope.covers)
        (s.sessions.scan t scope.revokes)) := by
  unfold State.snapshot at h
  split at h
  · next scope hphase => exact ⟨scope, hphase, (Option.some.inj h).symm⟩
  · cases h

/-- A row of the snapshot is revoked, unless it is revoked already. -/
theorem revokeRow_eq_some {key : Digest} (h : s.revokeRow t key = some s') :
    ∃ scope before todo, s.requests t = .revoking scope before todo ∧ key ∈ todo ∧
      s.sessions.Free t key ∧
      ((∀ row, s.sessions.visible t key = some row → scope.revokes row = false) ∧
          s' = s.goto t (.revoking scope before (todo.erase key)) ∨
        ∃ row hk, s.sessions.visible t key = some row ∧ scope.revokes row = true ∧
          s' = { s.goto t (.revoking scope before (todo.erase key)) with
            sessions := s.sessions.written t key (some (row.revoke s.now)) hk }) := by
  unfold State.revokeRow at h
  split at h
  · next scope before todo hphase =>
    split at h
    · next hkey =>
      refine ⟨scope, before, todo, hphase, hkey.1, hkey.2, ?_⟩
      split at h
      · next hnone =>
        refine .inl ⟨fun row hrow => ?_, (Option.some.inj h).symm⟩
        rw [hnone] at hrow
        cases hrow
      · next row hrow =>
        split at h
        · -- A row that is covered and not revoked yet is written.
          next hrev =>
          rw [Option.map_eq_some_iff] at h
          obtain ⟨tb, htb, rfl⟩ := h
          obtain ⟨hk, rfl⟩ := Table.write_eq_some.mp htb
          exact .inr ⟨row, hk, hrow, hrev, rfl⟩
        · next hrev =>
          refine .inl ⟨fun row' hrow' => ?_, (Option.some.inj h).symm⟩
          rw [← Option.some.inj (hrow.symm.trans hrow')]
          exact eq_false_of_ne_true hrev
    · cases h
  · cases h

/-- What a request in this phase may commit, and what the commit records. -/
inductive Commits (s : State) : Phase → List Digest → List Revocation → Prop where
  | signedIn {key : Digest} : Commits s (.signedIn key) [] []
  | rotated {key child : Digest} : Commits s (.rotated key child) [key] []
  | revoking {scope : Scope} {before : List Digest} :
    Commits s (.revoking scope before []) [] [⟨scope, before, s.refreshes⟩]

theorem commit_eq_some (h : s.commit t = some s') :
    ∃ redeemed revocations, Commits s (s.requests t) redeemed revocations ∧
      s' = { s.goto t .finished with
        sessions := s.sessions.commit t
        redeemed := s.redeemed ++ redeemed
        revocations := revocations ++ s.revocations } := by
  unfold State.commit at h
  split at h
  · next hphase =>
    rw [hphase, ← Option.some.inj h]
    exact ⟨[], [], .signedIn, by simp [State.goto]⟩
  · next hphase =>
    rw [hphase, ← Option.some.inj h]
    exact ⟨_, [], .rotated, by simp [State.goto]⟩
  · next hphase =>
    rw [hphase, ← Option.some.inj h]
    exact ⟨[], _, .revoking, by simp [State.goto]⟩
  · cases h

theorem abort_eq_some (h : s.abort t = some s') :
    s.requests t ≠ .idle ∧
      s' = { s.goto t .finished with sessions := s.sessions.rollback t } := by
  unfold State.abort at h
  split at h
  · cases h
  · cases h
  · next hidle _ => exact ⟨hidle, (Option.some.inj h).symm⟩

end Steps

/-! ### Statements of typical requests -/

/-- A signed-in person of tenant 1. -/
def sampleUser : User :=
  { id := 7, tenantId := some 1, email := "agent@agency.dz", passwordHash := "", role := .agent }

/-- A sign-in that was handed token 1, committed. -/
def signedInRun : List Label :=
  [.signIn 0 sampleUser.toIdentity {} 1 90, .commit 0]

/-- The statements of a refresh after its row was read. -/
def redeemRun (t : Nat) (token : Token) : List Label :=
  [.identify t [sampleUser], .stamp t, .insert t {} token, .commit t]

end Auth

end RealEstate
