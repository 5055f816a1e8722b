import RealEstate.Favorites.Models
import RealEstate.Leads.Models
import RealEstate.Systems.Machine
import RealEstate.Users.Service

/-!
# Erasure of a data subject

`request_erasure` and `execute_erasure` of `modules/compliance/service.py`, with the
boundary functions they fan out to: `anonymize_account`, `anonymize_subject` and the
two `erase_for_user`. `lower` is the database's and Python's `lower`.

- `machine`: the accounts and the erasure requests of an agency; what its other
  tables hold is left to the other modules.
- `Inv`: a pending request names an account, with the account's own e-mail.
- `Complete`: nothing of the subject is left where the erasure looks for it, and a
  second run finds nothing to do.
- `complete_iff`: the two things the erasure does not see, an address that looks
  like its own tombstone and the saved searches of the bare address.
- `signup_outlives_erasure`: a search saved before the account was opened.
-/

namespace RealEstate

namespace Compliance

namespace Erasure

open RealEstate.Core Users Leads Favorites Systems

/-- `DsrKind`. -/
inductive DsrKind where
  | export
  | erasure
  deriving DecidableEq

/-- `DsrStatus`. -/
inductive DsrStatus where
  | pending
  | completed
  | cancelled
  deriving DecidableEq

/-- A row of `dsr_requests`. `result` counts the account and the contacts anonymized. -/
structure DsrRequest where
  id : Uuid
  tenantId : Uuid
  userId : Uuid
  subjectEmail : Option String
  kind : DsrKind
  status : DsrStatus := .pending
  purgeScheduledAt : Option DateTime := none
  completedAt : Option DateTime := none
  result : Option (Nat × Option Nat) := none
  ip : Option String := none

/-- A row of `notifications`, `notification_preferences` or `notification_digest_items`. -/
structure NotificationRow where
  id : Uuid
  tenantId : Uuid
  userId : Uuid
  deriving DecidableEq

/-- The tables that an erasure touches. -/
structure State where
  users : List User
  crm : Crm
  favorites : List Favorite
  savedSearches : List SavedSearch
  notifications : List NotificationRow
  preferences : List NotificationRow
  digestItems : List NotificationRow
  dsrs : List DsrRequest

/-- `ERASURE_PURGE_DELAY_DAYS`, in seconds. -/
def erasurePurgeDelay : Seconds := 30 * 24 * 3600

/-! ### The boundaries -/

/-- `anonymize_account`: the table, and the address the account had. -/
def anonymizeAccount (users : List User) (tenantId : Option Uuid) (userId : Uuid)
    (passwordHash : String) : List User × Option String :=
  match users.find? fun u => u.tenantId = tenantId ∧ u.id = userId with
  | none => (users, none)
  | some user =>
    if user.email.startsWith "deleted+" then (users, none)
    else (updateUser users user.id (·.anonymize passwordHash), some user.email)

section Boundaries

variable (lower : String → String)

/-- `contacts_by_email` finds the contact. -/
def hasEmail (tenantId : Uuid) (email : String) (c : Contact) : Bool :=
  c.tenantId = tenantId ∧ c.email.map lower = some (lower email)

/-- The loop of `anonymize_subject`, for one row of the table. -/
def anonymizeIf (tenantId : Uuid) (email : String) (c : Contact) : Contact :=
  if hasEmail lower tenantId email c then anonymizeContact c else c

theorem anonymizeIf_id (tenantId : Uuid) (email : String) (c : Contact) :
    (anonymizeIf lower tenantId email c).id = c.id := by
  unfold anonymizeIf
  split <;> rfl

/-- `anonymize_subject`: the tables, and the number of contacts anonymized. -/
def anonymizeSubject (crm : Crm) (tenantId : Uuid) (email : String) : Crm × Nat :=
  (crm.mapContacts (anonymizeIf lower tenantId email) (anonymizeIf_id lower tenantId email),
    crm.contacts.countP (hasEmail lower tenantId email))

/-! ### The two requests -/

/-- `execute_erasure`. -/
def executeErasure (s : State) (dsr : DsrRequest) (passwordHash : String) (now : DateTime) :
    State :=
  let account := anonymizeAccount s.users (some dsr.tenantId) dsr.userId passwordHash
  -- The address on the request is used if the account has none.
  let email := if truthy account.2 then account.2 else dsr.subjectEmail
  let contacts :=
    if truthy email then
      let anonymized := anonymizeSubject lower s.crm dsr.tenantId (email.getD "")
      (anonymized.1, some anonymized.2)
    else (s.crm, none)
  let result := (if truthy account.2 then 1 else 0, contacts.2)
  { users := account.1
    crm := contacts.1
    favorites := s.favorites.filter fun f => ¬ (f.tenantId = dsr.tenantId ∧ f.userId = dsr.userId)
    savedSearches := s.savedSearches.filter fun r =>
      ¬ (r.tenantId = dsr.tenantId ∧ r.owner = .user dsr.userId)
    notifications := s.notifications.filter fun n =>
      ¬ (n.tenantId = dsr.tenantId ∧ n.userId = dsr.userId)
    preferences := s.preferences.filter fun n =>
      ¬ (n.tenantId = dsr.tenantId ∧ n.userId = dsr.userId)
    digestItems := s.digestItems.filter fun n =>
      ¬ (n.tenantId = dsr.tenantId ∧ n.userId = dsr.userId)
    dsrs := s.dsrs.map fun d =>
      if d.id = dsr.id then
        { d with status := .completed, completedAt := some now, result := some result }
      else d }

/-- `pending_erasure_for_user` finds the request. -/
def DsrRequest.pendingFor (tenantId userId : Uuid) (d : DsrRequest) : Bool :=
  d.tenantId = tenantId ∧ d.userId = userId ∧ d.kind = .erasure ∧ d.status = .pending

/-- `request_erasure`; an error leaves everything as it was. -/
def requestErasure (s : State) (id tenantId userId : Uuid) (now : DateTime) (ip : Option String) :
    State :=
  match s.dsrs.find? (DsrRequest.pendingFor tenantId userId) with
  | some _ => s
  | none =>
    match get s.users (some tenantId) userId with
    | none => s
    | some user =>
      let request : DsrRequest :=
        { id, tenantId, userId, subjectEmail := some user.email, kind := .erasure
          purgeScheduledAt := some (now + erasurePurgeDelay), ip }
      { s with
        users := updateUser s.users user.id fun u => { u with deletedAt := some now }
        dsrs := request :: s.dsrs }

end Boundaries

/-! ### Runs -/

/-- A request, or a run of the purge. `tables` is whatever the other modules make of their
rows. -/
inductive Label where
  | createAccount (id : Uuid) (tenantId : Option Uuid) (data : NewAccount)
  | login (tenantId : Option Uuid) (email password : String) (now : DateTime)
  | account (tenantId : Option Uuid) (userId : Uuid) (change : AccountChange) (now : DateTime)
  | tables (crm : Crm) (favorites : List Favorite) (savedSearches : List SavedSearch)
      (notifications preferences digestItems : List NotificationRow)
  | requestErasure (id tenantId userId : Uuid) (now : DateTime) (ip : Option String)
  | executeErasure (dsr : Uuid) (passwordHash : String) (now : DateTime)

/-- Only the purge anonymizes an account. -/
def anonymizes : AccountChange → Bool
  | .anonymizeAccount _ => true
  | _ => false

/-- Empty tables. -/
def State.empty : State where
  users := []
  crm := ⟨[], [], List.nodup_nil⟩
  favorites := []
  savedSearches := []
  notifications := []
  preferences := []
  digestItems := []
  dsrs := []

/-- `list_erasures_due` finds the request. -/
def DsrRequest.due (now : DateTime) (d : DsrRequest) : Bool :=
  d.kind = .erasure ∧ d.status = .pending ∧ d.purgeScheduledAt.any (· ≤ now)

/-- Ids are drawn fresh, and an `EmailStr` is not empty. -/
def machine (v : Verifiers) (lower : String → String) : Machine State Label where
  init s := s = .empty
  step s
    | .createAccount id tenantId data =>
      if id ∈ s.users.map (·.id) ∨ data.email = "" then none
      else (createAccount s.users id tenantId data).toOption.map fun r => { s with users := r.1 }
    | .login tenantId email password now =>
      (verifyCredentials v s.users now tenantId email password).map fun r =>
        { s with users := r.1 }
    | .account tenantId userId change now =>
      if anonymizes change then none
      else (change.apply v s.users now tenantId userId).toOption.map fun users =>
        { s with users }
    | .tables crm favorites savedSearches notifications preferences digestItems =>
      some { s with crm, favorites, savedSearches, notifications, preferences, digestItems }
    | .requestErasure id tenantId userId now ip =>
      if id ∈ s.dsrs.map (·.id) then none else some (requestErasure s id tenantId userId now ip)
    | .executeErasure dsr passwordHash now =>
      (s.dsrs.find? fun d => d.id = dsr && d.due now).map fun d =>
        executeErasure lower s d passwordHash now

/-- Who the accounts are, and their addresses. -/
def addressBook (users : List User) : List (Uuid × Option Uuid × String) :=
  users.map fun u => (u.id, u.tenantId, u.email)

/-- The account a pending request is about is still there, under the address on record. -/
def Named (book : List (Uuid × Option Uuid × String)) (d : DsrRequest) : Prop :=
  ∃ email, (d.userId, some d.tenantId, email) ∈ book ∧ d.subjectEmail = some email

/-- Ids are unique, and no address is empty. -/
structure Inv (s : State) : Prop where
  ids : UniqueIds s.users
  addresses : ∀ entry ∈ addressBook s.users, entry.2.2 ≠ ""
  dsrIds : (s.dsrs.map (·.id)).Nodup
  kinds : ∀ d ∈ s.dsrs, d.kind = .erasure
  named : ∀ d ∈ s.dsrs, d.status = .pending → Named (addressBook s.users) d
  onePending : ∀ d ∈ s.dsrs, ∀ d' ∈ s.dsrs, d.status = .pending → d'.status = .pending →
    d.userId = d'.userId → d = d'

/-! ### The accounts keep their addresses -/

section Addresses

variable {v : Verifiers} {users users' : List User}

theorem addressBook_updateUser (userId : Uuid) {f : User → User}
    (hf : ∀ u, (f u).id = u.id ∧ (f u).tenantId = u.tenantId ∧ (f u).email = u.email) :
    addressBook (updateUser users userId f) = addressBook users := by
  unfold addressBook updateUser
  rw [List.map_map]
  refine List.map_congr_left fun u _ => ?_
  show (fun u : User => (u.id, u.tenantId, u.email)) (if u.id = userId then f u else u) = _
  split
  · obtain ⟨hid, htenant, hemail⟩ := hf u
    exact Prod.ext hid (Prod.ext htenant hemail)
  · rfl

theorem addressBook_updateOr404 {tenantId : Option Uuid} {userId : Uuid} {f : User → User}
    (h : updateOr404 users tenantId userId f = .ok users')
    (hf : ∀ u, (f u).id = u.id ∧ (f u).tenantId = u.tenantId ∧ (f u).email = u.email) :
    addressBook users' = addressBook users := by
  unfold updateOr404 at h
  split at h
  · cases h
  · cases h
    exact addressBook_updateUser _ hf

/-- No account change but the anonymization touches an address. -/
theorem addressBook_apply {now : DateTime} {tenantId : Option Uuid} {userId : Uuid}
    {change : AccountChange} (hchange : anonymizes change = false)
    (h : change.apply v users now tenantId userId = .ok users') :
    addressBook users' = addressBook users := by
  cases change with
  | beginMfaEnrolment secret => exact addressBook_updateOr404 h fun _ => ⟨rfl, rfl, rfl⟩
  | updateProfile firstName lastName phone locale =>
    exact addressBook_updateOr404 h fun _ => ⟨rfl, rfl, rfl⟩
  | confirmMfaEnrolment code =>
    simp only [AccountChange.apply] at h
    split at h
    · cases h
    · split at h
      · cases h
      · split at h
        · cases h
        · cases h
          exact addressBook_updateUser _ fun _ => ⟨rfl, rfl, rfl⟩
  | disableMfa password =>
    simp only [AccountChange.apply] at h
    split at h
    · cases h
    · exact addressBook_updateOr404 h fun _ => ⟨rfl, rfl, rfl⟩
  | setPassword passwordHash =>
    simp only [AccountChange.apply] at h
    split at h
    · cases h
    · exact addressBook_updateOr404 h fun _ => ⟨rfl, rfl, rfl⟩
  | verifyEmail =>
    simp only [AccountChange.apply] at h
    split at h
    · cases h
    · cases h
      unfold markEmailVerified
      split
      · rfl
      · exact addressBook_updateUser _ fun _ => ⟨rfl, rfl, rfl⟩
  | adminUpdate actorId role status =>
    simp only [AccountChange.apply] at h
    split at h
    · cases h
    · split at h
      · cases h
      · cases h
        exact addressBook_updateUser _ fun _ => ⟨rfl, rfl, rfl⟩
  | softDelete actorId =>
    simp only [AccountChange.apply] at h
    split at h
    · cases h
    · exact addressBook_updateOr404 h fun _ => ⟨rfl, rfl, rfl⟩
  | anonymizeAccount passwordHash => cases hchange

theorem addressBook_verifyCredentials {now : DateTime} {tenantId : Option Uuid}
    {email password : String} {identity : UserIdentity}
    (h : verifyCredentials v users now tenantId email password = some (users', identity)) :
    addressBook users' = addressBook users := by
  rw [verifyCredentials, Option.bind_eq_some_iff] at h
  obtain ⟨user, -, h⟩ := h
  split at h
  · cases h
    exact addressBook_updateUser _ fun _ => ⟨rfl, rfl, rfl⟩
  · cases h

/-- A new account, a new entry. -/
theorem addressBook_createAccount {id : Uuid} {tenantId : Option Uuid} {data : NewAccount}
    {user : User} (h : createAccount users id tenantId data = .ok (users', user)) :
    addressBook users' = (id, tenantId, data.email) :: addressBook users := by
  unfold createAccount at h
  split at h
  · cases h
  · split at h
    · cases h
    · split at h
      · cases h
      · cases h
        rfl

/-- Ids are those of the address book. -/
theorem uniqueIds_iff : UniqueIds users ↔ ((addressBook users).map Prod.fst).Nodup := by
  have hids : (addressBook users).map Prod.fst = users.map (·.id) := by
    unfold addressBook
    rw [List.map_map]
    rfl
  rw [UniqueIds, hids]

/-- Every user is in the address book. -/
theorem mem_addressBook {user : User} (h : user ∈ users) :
    (user.id, user.tenantId, user.email) ∈ addressBook users := List.mem_map_of_mem h

/-- An id stands for one account. -/
theorem eq_of_mem_addressBook (hu : UniqueIds users) {id : Uuid}
    {x y : Option Uuid × String} (hx : (id, x) ∈ addressBook users)
    (hy : (id, y) ∈ addressBook users) : x = y := by
  have heq := List.inj_on_of_nodup_map (uniqueIds_iff.1 hu) hx hy rfl
  exact (Prod.mk.inj heq).2

theorem get_mem {tenantId : Uuid} {userId : Uuid} {user : User}
    (h : get users (some tenantId) userId = some user) :
    user ∈ users ∧ user.id = userId ∧ user.tenantId = some tenantId := by
  have hpred := List.find?_some h
  simp only [decide_eq_true_eq] at hpred
  exact ⟨List.mem_of_find?_eq_some h, hpred.2.1, hpred.1⟩

/-- The address of an erased account says so. -/
theorem startsWith_tombstone (user : User) (passwordHash : String) :
    (user.anonymize passwordHash).email.startsWith "deleted+" = true := by
  rw [String.startsWith_string_iff]
  show _ <+: (toString "deleted+" ++ toString user.id ++ toString "@anonymized.invalid").toList
  simp only [String.toList_append, List.append_assoc]
  exact List.prefix_append _ _

theorem ne_empty_of_startsWith {email : String} (h : email.startsWith "deleted+" = true) :
    email ≠ "" := by
  rintro rfl
  revert h
  decide

/-- What `anonymize_account` does to the table: nothing, or the row found gets its
tombstone. -/
theorem anonymizeAccount_cases (users : List User) (tenantId : Option Uuid) (userId : Uuid)
    (passwordHash : String) :
    (anonymizeAccount users tenantId userId passwordHash).1 = users ∨
      (anonymizeAccount users tenantId userId passwordHash).1 =
        updateUser users userId (·.anonymize passwordHash) := by
  unfold anonymizeAccount
  split
  · exact .inl rfl
  · next user huser =>
    have hpred := List.find?_some huser
    simp only [decide_eq_true_eq] at hpred
    split
    · exact .inl rfl
    · rw [hpred.2]
      exact .inr rfl

/-- Only the account itself gets another address. -/
theorem mem_addressBook_updateUser {userId : Uuid} {f : User → User}
    {entry : Uuid × Option Uuid × String} (h : entry ∈ addressBook users)
    (hne : entry.1 ≠ userId) : entry ∈ addressBook (updateUser users userId f) := by
  obtain ⟨u, hu, rfl⟩ := List.mem_map.1 h
  refine List.mem_map.2 ⟨u, List.mem_map.2 ⟨u, hu, ?_⟩, rfl⟩
  exact if_neg hne

/-- An erased account has an address too. -/
theorem ne_empty_of_mem_tombstoned {userId : Uuid} {passwordHash : String}
    (hbook : ∀ entry ∈ addressBook users, entry.2.2 ≠ "") :
    ∀ entry ∈ addressBook (updateUser users userId (·.anonymize passwordHash)),
      entry.2.2 ≠ "" := by
  intro entry h
  obtain ⟨u, hu, rfl⟩ := List.mem_map.1 h
  obtain ⟨user, huser, rfl⟩ := List.mem_map.1 hu
  dsimp only
  split
  · exact ne_empty_of_startsWith (startsWith_tombstone user passwordHash)
  · exact hbook _ (mem_addressBook huser)

end Addresses

/-! ### Pending requests stay true -/

section Runs

variable {v : Verifiers} {lower : String → String} {s t : State}

/-- Writes that leave the addresses and the requests alone. -/
theorem Inv.congr (h : Inv s) (hbook : addressBook t.users = addressBook s.users)
    (hdsrs : t.dsrs = s.dsrs) : Inv t where
  ids := by
    rw [uniqueIds_iff, hbook]
    exact uniqueIds_iff.1 h.ids
  addresses := hbook ▸ h.addresses
  dsrIds := hdsrs ▸ h.dsrIds
  kinds := hdsrs ▸ h.kinds
  named := by
    rw [hdsrs, hbook]
    exact h.named
  onePending := hdsrs ▸ h.onePending

/-- A new account with an address. -/
theorem Inv.createAccount (h : Inv s) {id : Uuid} {tenantId : Option Uuid} {data : NewAccount}
    {users : List User} {user : User} (hfresh : id ∉ s.users.map (·.id)) (hemail : data.email ≠ "")
    (hcreate : createAccount s.users id tenantId data = .ok (users, user)) :
    Inv { s with users } where
  ids := h.ids.createAccount hfresh hcreate
  addresses := by
    rw [addressBook_createAccount hcreate]
    intro entry hentry
    rcases List.mem_cons.1 hentry with rfl | hold
    · exact hemail
    · exact h.addresses entry hold
  dsrIds := h.dsrIds
  kinds := h.kinds
  named d hd hpending := by
    obtain ⟨email, hmem, hon⟩ := h.named d hd hpending
    refine ⟨email, ?_, hon⟩
    rw [addressBook_createAccount hcreate]
    exact List.mem_cons_of_mem _ hmem
  onePending := h.onePending

/-- Two requests about the account of one user are about one agency. -/
theorem Inv.pendingFor (h : Inv s) {d : DsrRequest} (hd : d ∈ s.dsrs)
    (hpending : d.status = .pending) {tenantId : Uuid} {user : User}
    (hget : get s.users (some tenantId) d.userId = some user) :
    d.pendingFor tenantId d.userId = true := by
  obtain ⟨hmem, hid, htenant⟩ := get_mem hget
  obtain ⟨email, hentry, -⟩ := h.named d hd hpending
  have hrow := mem_addressBook hmem
  rw [hid, htenant] at hrow
  have hsame : d.tenantId = tenantId :=
    Option.some.inj (Prod.mk.inj (eq_of_mem_addressBook h.ids hentry hrow)).1
  simp [DsrRequest.pendingFor, hsame, h.kinds d hd, hpending]

/-- A request is a row more. -/
theorem Inv.requestErasure (h : Inv s) {id tenantId userId : Uuid} {now : DateTime}
    {ip : Option String} (hfresh : id ∉ s.dsrs.map (·.id)) :
    Inv (requestErasure s id tenantId userId now ip) := by
  unfold Erasure.requestErasure
  split
  · exact h
  · next hnone =>
    split
    · exact h
    · next user hget =>
      obtain ⟨hmem, hid, htenant⟩ := get_mem hget
      have hbook : addressBook (updateUser s.users user.id fun u =>
          { u with deletedAt := some now }) = addressBook s.users :=
        addressBook_updateUser _ fun _ => ⟨rfl, rfl, rfl⟩
      -- the account had no pending request before this one
      have hfirst : ∀ d ∈ s.dsrs, d.status = .pending → d.userId ≠ userId := by
        rintro d hd hpending rfl
        exact List.find?_eq_none.1 hnone d hd (h.pendingFor hd hpending hget)
      constructor
      · rw [uniqueIds_iff, hbook]
        exact uniqueIds_iff.1 h.ids
      · rw [hbook]
        exact h.addresses
      · exact List.nodup_cons.2 ⟨hfresh, h.dsrIds⟩
      · intro d hd
        rcases List.mem_cons.1 hd with rfl | hd
        · rfl
        · exact h.kinds d hd
      · intro d hd hpending
        rw [hbook]
        rcases List.mem_cons.1 hd with rfl | hd
        · refine ⟨user.email, ?_, rfl⟩
          rw [← hid, ← htenant]
          exact mem_addressBook hmem
        · exact h.named d hd hpending
      · intro d hd d' hd' hpending hpending' hsame
        rcases List.mem_cons.1 hd with rfl | hd
        · rcases List.mem_cons.1 hd' with rfl | hd'
          · rfl
          · exact absurd hsame.symm (hfirst d' hd' hpending')
        · rcases List.mem_cons.1 hd' with rfl | hd'
          · exact absurd hsame (hfirst d hd hpending)
          · exact h.onePending d hd d' hd' hpending hpending' hsame

/-- A request as the purge leaves it; the others stay as they were. -/
theorem mem_dsrs_executeErasure {dsr d : DsrRequest} {passwordHash : String} {now : DateTime}
    (h : d ∈ (executeErasure lower s dsr passwordHash now).dsrs) (hpending : d.status = .pending) :
    d ∈ s.dsrs ∧ d.id ≠ dsr.id := by
  obtain ⟨d₀, hd₀, rfl⟩ := List.mem_map.1 h
  by_cases hid : d₀.id = dsr.id
  · simp [hid] at hpending
  · rw [if_neg hid]
    exact ⟨hd₀, hid⟩

/-- An erasure changes the address of one account. -/
theorem Inv.executeErasure (h : Inv s) {dsr : DsrRequest} (hdsr : dsr ∈ s.dsrs)
    (hdue : dsr.status = .pending) {passwordHash : String} {now : DateTime} :
    Inv (executeErasure lower s dsr passwordHash now) := by
  have hother : ∀ d ∈ (Erasure.executeErasure lower s dsr passwordHash now).dsrs,
      d.status = .pending → d ∈ s.dsrs ∧ d.userId ≠ dsr.userId := by
    intro d hd hpending
    obtain ⟨hmem, hne⟩ := mem_dsrs_executeErasure hd hpending
    refine ⟨hmem, fun hsame => hne ?_⟩
    rw [h.onePending d hmem dsr hdsr hpending hdue hsame]
  have husers := anonymizeAccount_cases s.users (some dsr.tenantId) dsr.userId passwordHash
  have hids : (Erasure.executeErasure lower s dsr passwordHash now).dsrs.map (·.id) =
      s.dsrs.map (·.id) := by
    unfold Erasure.executeErasure
    rw [List.map_map]
    refine List.map_congr_left fun d _ => ?_
    simp only [Function.comp_apply]
    split <;> rfl
  constructor
  · show UniqueIds (anonymizeAccount s.users _ _ passwordHash).1
    rcases husers with heq | heq
    · rw [heq]
      exact h.ids
    · rw [heq]
      exact h.ids.updateUser _ fun _ => rfl
  · show ∀ entry ∈ addressBook (anonymizeAccount s.users _ _ passwordHash).1, entry.2.2 ≠ ""
    rcases husers with heq | heq
    · rw [heq]
      exact h.addresses
    · rw [heq]
      exact ne_empty_of_mem_tombstoned h.addresses
  · rw [hids]
    exact h.dsrIds
  · intro d hd
    obtain ⟨d₀, hd₀, rfl⟩ := List.mem_map.1 hd
    dsimp only
    split
    · exact h.kinds d₀ hd₀
    · exact h.kinds d₀ hd₀
  · intro d hd hpending
    obtain ⟨hmem, hne⟩ := hother d hd hpending
    obtain ⟨email, hentry, hon⟩ := h.named d hmem hpending
    refine ⟨email, ?_, hon⟩
    show _ ∈ addressBook (anonymizeAccount s.users _ _ passwordHash).1
    rcases husers with heq | heq
    · rw [heq]
      exact hentry
    · rw [heq]
      exact mem_addressBook_updateUser hentry hne
  · intro d hd d' hd' hpending hpending' hsame
    exact h.onePending d (hother d hd hpending).1 d' (hother d' hd' hpending').1 hpending hpending'
      hsame

/-- One step keeps the invariant. -/
theorem Inv.step {l : Label} (h : Inv s) (hst : (machine v lower).step s l = some t) : Inv t := by
  cases l with
  | createAccount id tenantId data =>
    obtain ⟨hguard, hst⟩ := Option.ite_none_left_eq_some.mp hst
    obtain ⟨⟨users, user⟩, hcreate, rfl⟩ := Option.map_eq_some_iff.mp hst
    rw [not_or] at hguard
    exact h.createAccount hguard.1 hguard.2 (toOption_eq_some hcreate)
  | login tenantId email password now =>
    obtain ⟨⟨users, identity⟩, hverify, rfl⟩ := Option.map_eq_some_iff.mp hst
    exact h.congr (addressBook_verifyCredentials hverify) rfl
  | account tenantId userId change now =>
    obtain ⟨hchange, hst⟩ := Option.ite_none_left_eq_some.mp hst
    obtain ⟨users, happly, rfl⟩ := Option.map_eq_some_iff.mp hst
    rw [Bool.not_eq_true] at hchange
    exact h.congr (addressBook_apply hchange (toOption_eq_some happly)) rfl
  | tables =>
    cases hst
    exact h.congr rfl rfl
  | requestErasure id tenantId userId now ip =>
    obtain ⟨hfresh, hst⟩ := Option.ite_none_left_eq_some.mp hst
    cases hst
    exact h.requestErasure hfresh
  | executeErasure dsr passwordHash now =>
    obtain ⟨d, hfind, rfl⟩ := Option.map_eq_some_iff.mp hst
    have hpred := List.find?_some hfind
    simp only [DsrRequest.due, Bool.and_eq_true, decide_eq_true_eq] at hpred
    have hmem := List.mem_of_find?_eq_some hfind
    have hpending := hpred.2.2.1
    exact h.executeErasure hmem hpending

/-- In every reachable state. -/
theorem inv (h : (machine v lower).Reachable s) : Inv s := by
  refine Machine.Inductive.always (G := fun _ _ => True) ⟨?_, ?_⟩ h
  · rintro _ rfl
    constructor
    · exact List.nodup_nil
    · exact fun _ h => absurd h List.not_mem_nil
    · exact List.nodup_nil
    · exact fun _ h => absurd h List.not_mem_nil
    · exact fun _ h => absurd h List.not_mem_nil
    · exact fun _ h => absurd h List.not_mem_nil
  · exact fun _ _ _ hI _ hst => hI.step hst

end Runs

/-! ### What is left of the subject -/

/-- The kept row holds nothing of the person, and no row of the agency leads back to the
account or to its address. -/
structure Erased (lower : String → String) (s : State) (dsr : DsrRequest) (email : String) :
    Prop where
  row : ∀ user ∈ s.users, user.id = dsr.userId →
    user.email ≠ email ∧ user.firstName = none ∧ user.lastName = none ∧ user.phone = none
  favorites : ∀ f ∈ s.favorites, f.tenantId = dsr.tenantId → f.userId ≠ dsr.userId
  savedSearches : ∀ r ∈ s.savedSearches, r.tenantId = dsr.tenantId →
    r.owner ≠ .user dsr.userId
  notifications : ∀ n ∈ s.notifications ++ s.preferences ++ s.digestItems,
    n.tenantId = dsr.tenantId → n.userId ≠ dsr.userId
  contacts : ∀ c ∈ s.crm.contacts, c.tenantId = dsr.tenantId →
    c.email.map lower ≠ some (lower email)
  addresses : ∀ r ∈ s.savedSearches, r.tenantId = dsr.tenantId →
    ∀ address, r.owner = .email address → lower address ≠ lower email

/-- The rows an erasure touches are the same in both states. -/
structure SameRows (s s' : State) : Prop where
  users : s'.users = s.users
  contacts : s'.crm.contacts = s.crm.contacts
  favorites : s'.favorites = s.favorites
  savedSearches : s'.savedSearches = s.savedSearches
  notifications : s'.notifications = s.notifications
  preferences : s'.preferences = s.preferences
  digestItems : s'.digestItems = s.digestItems

/-- The erasure leaves nothing of the subject, and a second run changes nothing. -/
structure Complete (lower : String → String) (s : State) (dsr : DsrRequest) (email : String)
    (passwordHash passwordHash' : String) (now now' : DateTime) : Prop where
  erased : Erased lower (executeErasure lower s dsr passwordHash now) dsr email
  again : SameRows (executeErasure lower s dsr passwordHash now)
    (executeErasure lower (executeErasure lower s dsr passwordHash now) dsr passwordHash' now')

section Subject

variable {lower : String → String} {s : State} {dsr : DsrRequest} {account : User}
  {passwordHash : String} {now : DateTime}

/-- The address the erasure looks for is the account's. -/
theorem erasure_email (h : Inv s) (hdsr : dsr ∈ s.dsrs) (hpending : dsr.status = .pending)
    (haccount : account ∈ s.users) (hid : account.id = dsr.userId) :
    account.tenantId = some dsr.tenantId ∧ dsr.subjectEmail = some account.email ∧
      account.email ≠ "" := by
  obtain ⟨email, hentry, hon⟩ := h.named dsr hdsr hpending
  have hrow := mem_addressBook haccount
  rw [hid] at hrow
  obtain ⟨htenant, hemail⟩ := Prod.mk.inj (eq_of_mem_addressBook h.ids hentry hrow)
  refine ⟨htenant.symm, by rw [hon, hemail], ?_⟩
  exact h.addresses _ hrow

/-- `anonymize_account` on the account of the request. -/
theorem anonymizeAccount_eq (passwordHash : String) (h : UniqueIds s.users)
    (haccount : account ∈ s.users)
    (htenant : account.tenantId = some dsr.tenantId) (hid : account.id = dsr.userId) :
    anonymizeAccount s.users (some dsr.tenantId) dsr.userId passwordHash =
      if account.email.startsWith "deleted+" then (s.users, none)
      else (updateUser s.users dsr.userId (·.anonymize passwordHash), some account.email) := by
  have hfind : (s.users.find? fun u => u.tenantId = some dsr.tenantId ∧ u.id = dsr.userId) =
      some account :=
    find?_of_nodup_map h haccount (decide_eq_true ⟨htenant, hid⟩) fun _ hr =>
      (of_decide_eq_true hr).2.trans hid.symm
  rw [anonymizeAccount, hfind]
  dsimp only
  rw [hid]

/-- The contacts an erasure leaves. -/
theorem executeErasure_contacts {email : String} (hemail : email ≠ "")
    (hfound : dsr.subjectEmail = some email)
    (haccount : (anonymizeAccount s.users (some dsr.tenantId) dsr.userId passwordHash).2 =
        some email ∨
      (anonymizeAccount s.users (some dsr.tenantId) dsr.userId passwordHash).2 = none) :
    (executeErasure lower s dsr passwordHash now).crm.contacts =
      s.crm.contacts.map (anonymizeIf lower dsr.tenantId email) := by
  have htruthy : truthy (some email) = true := by simpa [truthy] using hemail
  unfold executeErasure
  rcases haccount with heq | heq
  · simp only [heq, htruthy, if_true, Option.getD_some]
    rfl
  · have hnone : truthy none = false := rfl
    simp only [heq, hnone, Bool.false_eq_true, if_false, hfound, htruthy, if_true,
      Option.getD_some]
    rfl

/-- An anonymized contact has no address to be found by. -/
theorem hasEmail_anonymizeIf (tenantId : Uuid) (email : String) (c : Contact) :
    hasEmail lower tenantId email (anonymizeIf lower tenantId email c) = false := by
  unfold anonymizeIf
  split
  · simp [hasEmail, anonymizeContact]
  · next h => exact Bool.eq_false_iff.2 h

/-- An account under a tombstone is left alone. -/
theorem anonymizeAccount_of_tombstone {users : List User}
    (h : ∀ user ∈ users, user.id = dsr.userId → user.email.startsWith "deleted+" = true) :
    anonymizeAccount users (some dsr.tenantId) dsr.userId passwordHash = (users, none) := by
  unfold anonymizeAccount
  split
  · rfl
  · next user huser =>
    have hpred := List.find?_some huser
    simp only [decide_eq_true_eq] at hpred
    exact if_pos (h user (List.mem_of_find?_eq_some huser) hpred.2)

/-- The rows of the account after it was anonymized. -/
theorem of_mem_anonymized {users : List User} {userId : Uuid} {user : User}
    (h : user ∈ updateUser users userId (·.anonymize passwordHash)) (hid : user.id = userId) :
    user.email.startsWith "deleted+" = true ∧ user.firstName = none ∧ user.lastName = none ∧
      user.phone = none := by
  obtain ⟨u, -, rfl⟩ := List.mem_map.1 h
  by_cases hu : u.id = userId
  · dsimp only
    rw [if_pos hu]
    exact ⟨startsWith_tombstone u passwordHash, rfl, rfl, rfl⟩
  · dsimp only at hid
    rw [if_neg hu] at hid
    exact absurd hid hu

/-- The rows an erasure deletes are gone; the account, the contacts and the searches of a bare
address are what is left to check. -/
theorem erased_executeErasure {email : String} (hlooks : email.startsWith "deleted+" = false)
    (hrow : ∀ user ∈ (executeErasure lower s dsr passwordHash now).users,
      user.id = dsr.userId → user.email.startsWith "deleted+" = true ∧ user.firstName = none ∧
        user.lastName = none ∧ user.phone = none)
    (hcontacts : ∀ c ∈ (executeErasure lower s dsr passwordHash now).crm.contacts,
      hasEmail lower dsr.tenantId email c = false)
    (hsearches : ∀ r ∈ s.savedSearches, r.tenantId = dsr.tenantId → ∀ address,
      r.owner = .email address → lower address ≠ lower email) :
    Erased lower (executeErasure lower s dsr passwordHash now) dsr email := by
  constructor
  · intro user huser huserId
    obtain ⟨htombstone, hnames⟩ := hrow user huser huserId
    refine ⟨fun hsame => ?_, hnames⟩
    rw [hsame, hlooks] at htombstone
    -- The new address marks the account as deleted, which the old one did not.
    cases htombstone
  · intro f hf htenant huser
    have hpred := (List.mem_filter.1 hf).2
    simp [htenant, huser] at hpred
  · intro r hr htenant howner
    have hpred := (List.mem_filter.1 hr).2
    simp [htenant, howner] at hpred
  · intro n hn htenant huser
    simp only [List.mem_append] at hn
    rcases hn with (hn | hn) | hn
    all_goals
      have hpred := (List.mem_filter.1 hn).2
      simp [htenant, huser] at hpred
  · intro c hc htenant hmatch
    have hfalse := hcontacts c hc
    simp [hasEmail, htenant, hmatch] at hfalse
  · intro r hr
    exact hsearches r (List.mem_filter.1 hr).1

/-- What a first run filtered out, a second does not find. -/
theorem filter_again {α : Type} (p : α → Bool) (rows : List α) :
    (rows.filter p).filter p = rows.filter p := by
  rw [List.filter_filter]
  exact List.filter_congr fun a _ => Bool.and_self (p a)

/-- A second run finds the account under its tombstone, and no row to delete or strip. -/
theorem sameRows_again {email : String} (hemail : email ≠ "")
    (hfound : dsr.subjectEmail = some email) {s' : State}
    (hrow : ∀ user ∈ s'.users, user.id = dsr.userId →
      user.email.startsWith "deleted+" = true)
    (hcontacts : ∀ c ∈ s'.crm.contacts, hasEmail lower dsr.tenantId email c = false)
    (hs' : s' = executeErasure lower s dsr passwordHash now) {passwordHash' : String}
    {now' : DateTime} : SameRows s' (executeErasure lower s' dsr passwordHash' now') := by
  have haccount : anonymizeAccount s'.users (some dsr.tenantId) dsr.userId passwordHash' =
      (s'.users, none) := anonymizeAccount_of_tombstone hrow
  constructor
  · show (anonymizeAccount s'.users _ _ passwordHash').1 = s'.users
    rw [haccount]
  · rw [executeErasure_contacts hemail hfound (.inr (by rw [haccount]))]
    have hsame : ∀ c ∈ s'.crm.contacts, anonymizeIf lower dsr.tenantId email c = c := by
      intro c hc
      rw [anonymizeIf, if_neg (by simp [hcontacts c hc])]
    exact (List.map_congr_left hsame).trans (List.map_id' _)
  all_goals
    subst hs'
    exact filter_again _ _

end Subject

/-- **The erasure is complete** just when the account's address does not look like a
tombstone already, and no search is saved under the bare address. -/
theorem complete_iff {v : Verifiers} {lower : String → String} {s : State}
    (h : (machine v lower).Reachable s) {dsr : DsrRequest} (hdsr : dsr ∈ s.dsrs)
    (hpending : dsr.status = .pending) {account : User} (haccount : account ∈ s.users)
    (hid : account.id = dsr.userId) (passwordHash passwordHash' : String) (now now' : DateTime) :
    Complete lower s dsr account.email passwordHash passwordHash' now now' ↔
      account.email.startsWith "deleted+" = false ∧
        ∀ r ∈ s.savedSearches, r.tenantId = dsr.tenantId → ∀ address,
          r.owner = .email address → lower address ≠ lower account.email := by
  have hI := inv h
  obtain ⟨htenant, hfound, hemail⟩ := erasure_email hI hdsr hpending haccount hid
  have hanonymized := anonymizeAccount_eq passwordHash hI.ids haccount htenant hid
  constructor
  · intro hcomplete
    constructor
    · rw [← Bool.not_eq_true]
      intro hlooks
      rw [if_pos hlooks] at hanonymized
      -- the account's row is still what it was
      have hkept : account ∈ (executeErasure lower s dsr passwordHash now).users := by
        show account ∈ (anonymizeAccount s.users _ _ passwordHash).1
        rw [hanonymized]
        exact haccount
      exact (hcomplete.erased.row account hkept hid).1 rfl
    · intro r hr htenant' address howner
      have hkept : r ∈ (executeErasure lower s dsr passwordHash now).savedSearches := by
        refine List.mem_filter.2 ⟨hr, ?_⟩
        simp [howner]
      exact hcomplete.erased.addresses r hkept htenant' address howner
  · rintro ⟨hlooks, hsearches⟩
    rw [if_neg (by simp [hlooks])] at hanonymized
    have husers : (executeErasure lower s dsr passwordHash now).users =
        updateUser s.users dsr.userId (·.anonymize passwordHash) := by
      show (anonymizeAccount s.users _ _ passwordHash).1 = _
      rw [hanonymized]
    have hcontacts : (executeErasure lower s dsr passwordHash now).crm.contacts =
        s.crm.contacts.map (anonymizeIf lower dsr.tenantId account.email) :=
      executeErasure_contacts hemail hfound (.inl (by rw [hanonymized]))
    have hclean : ∀ c ∈ (executeErasure lower s dsr passwordHash now).crm.contacts,
        hasEmail lower dsr.tenantId account.email c = false := by
      intro c hc
      rw [hcontacts] at hc
      obtain ⟨c₀, -, rfl⟩ := List.mem_map.1 hc
      exact hasEmail_anonymizeIf dsr.tenantId account.email c₀
    have hrow : ∀ user ∈ (executeErasure lower s dsr passwordHash now).users,
        user.id = dsr.userId → user.email.startsWith "deleted+" = true ∧
          user.firstName = none ∧ user.lastName = none ∧ user.phone = none := by
      intro user huser huserId
      rw [husers] at huser
      exact of_mem_anonymized huser huserId
    constructor
    · exact erased_executeErasure hlooks hrow hclean hsearches
    · exact sameRows_again hemail hfound (fun user huser huserId => (hrow user huser huserId).1)
        hclean rfl

/-! ### A search saved before the account was opened -/

/-- Accepts everything. -/
def anyVerifier : Verifiers := ⟨fun _ _ => true, fun _ _ _ => true⟩

/-- A buyer's account, closed at instant 10. -/
def closedAccount : User where
  id := 1
  tenantId := some 7
  email := "buyer@mail.test"
  passwordHash := "h"
  role := .buyerRenter
  deletedAt := some 10

/-- The buyer's erasure request. -/
def closingRequest : DsrRequest where
  id := 5
  tenantId := 7
  userId := 1
  subjectEmail := some "buyer@mail.test"
  kind := .erasure
  purgeScheduledAt := some (10 + erasurePurgeDelay)

/-- A search alert for the bare address. -/
def bareSearch : SavedSearch where
  id := 3
  tenantId := 7
  owner := .email "buyer@mail.test"
  createdAt := 0

/-- The buyer leaves an agency that holds these searches. -/
def leaving (searches : List SavedSearch) : State :=
  { State.empty with
    users := [closedAccount], savedSearches := searches, dsrs := [closingRequest] }

theorem reachable_leaving (searches : List SavedSearch) :
    (machine anyVerifier id).Reachable (leaving searches) := by
  have hrun : (machine anyVerifier id).run .empty
      [.tables ⟨[], [], List.nodup_nil⟩ [] searches [] [] [],
        .createAccount 1 (some 7)
          { email := "buyer@mail.test", passwordHash := "h", role := .buyerRenter },
        .requestErasure 5 7 1 10 none] = some (leaving searches) := rfl
  exact Machine.Reachable.of_run (Machine.Reachable.init rfl) hrun

/-- **A search alert outlives the erasure**: it is stored under the address, and only the
searches of the account are deleted. -/
theorem signup_outlives_erasure :
    (machine anyVerifier id).Reachable (leaving [bareSearch]) ∧
      ¬ Complete id (leaving [bareSearch]) closingRequest closedAccount.email "r" "r'" 20 21 := by
  refine ⟨reachable_leaving _, fun h => ?_⟩
  have hkept : bareSearch ∈
      (executeErasure id (leaving [bareSearch]) closingRequest "r" 20).savedSearches :=
    List.mem_filter.2 ⟨List.mem_singleton_self _, by decide⟩
  exact h.erased.addresses bareSearch hkept rfl "buyer@mail.test" rfl rfl

/-- Without the alert the erasure is complete. -/
theorem complete_without_alert :
    Complete id (leaving []) closingRequest closedAccount.email "r" "r'" 20 21 :=
  (complete_iff (reachable_leaving []) (List.mem_singleton_self _) rfl (List.mem_singleton_self _)
    rfl "r" "r'" 20 21).2 ⟨by decide +kernel, fun r hr => absurd hr List.not_mem_nil⟩

end Erasure

end Compliance

end RealEstate
