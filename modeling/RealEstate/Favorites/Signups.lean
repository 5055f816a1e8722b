import RealEstate.Favorites.Delivery

/-!
# Alerts without an account (`modules/favorites/service.py`)

A visitor without an account asks for alerts and gets a code by e-mail. The code, which works once,
turns the search on; a link in every alert turns it off.

- `signupRow`, `confirmable`, `SearchUpdate.apply`: what the requests check and write.
- `machine`: signups, confirmations, opt-outs, sweeps and the searches of accounts. A request
  takes its code from Redis, reads the row and writes it in steps of their own.
- `Permits`: whoever holds the code of a search is the only one, and has not used it.
-/

namespace RealEstate

namespace Favorites

namespace Signups

open RealEstate.Core Systems
open Digests (SearchUpdate SearchUpdate.apply entries mem_entries)

/-! ### Requests -/

/-- `SavedSearchSignupIn`. -/
structure SignupIn where
  email : String
  filters : JsonObject
  locale : Option String
  frequency : AlertFrequency
  hp : String

/-- The row that `signup` adds; none if the honeypot is filled. -/
def signupRow (id tenantId : Uuid) (data : SignupIn) (fallbackLocale : String) (now : DateTime) :
    Option SavedSearch :=
  if data.hp ≠ "" then none
  else some {
    id
    tenantId
    owner := .email data.email
    filters := data.filters
    locale := data.locale.getD fallbackLocale
    frequency := data.frequency
    createdAt := now
    isActive := false }

/-- `SearchOwner.email`, or none: the address of a row. -/
def email (row : SavedSearch) : Option String :=
  match row.owner with
  | .email address => some address
  | .user _ => none

/-- The `WHERE` of an account's requests. -/
def ownedBy (tenantId userId : Uuid) (row : SavedSearch) : Bool :=
  row.tenantId = tenantId && row.owner = .user userId

/-- `MAX_SAVED_SEARCHES_PER_USER`. -/
def maxSavedSearchesPerUser : Nat := 20

/-- What a sweep writes to a row. -/
inductive Mark where
  /-- Its filters are no filters any more. -/
  | deactivate
  | ran (now : DateTime)

/-- What a mark writes. -/
def Mark.apply : Mark → SavedSearch → SavedSearch
  | .deactivate, row => { row with isActive := false }
  | .ran now, row => { row with lastRunAt := some now }

/-- The `UPDATE` of one row; it fails if the row is gone. -/
def update (searches : Rows Uuid SavedSearch) (id : Uuid) (f : SavedSearch → SavedSearch) :
    Option (Rows Uuid SavedSearch) :=
  (searches.row id).map fun row => searches.put id (f row)

/-- The `UPDATE`s of a sweep. -/
def markAll (searches : Rows Uuid SavedSearch) : List (Uuid × Mark) → Option (Rows Uuid SavedSearch)
  | [] => some searches
  | (id, mark) :: marks => (update searches id mark.apply).bind fun searches =>
    markAll searches marks

/-! ### The machine -/

/-- Where a request or a sweep stands. -/
inductive Phase where
  /-- The row is inserted and its code is in Redis. -/
  | signingUp (row : SavedSearch)
  /-- The code was taken from Redis. -/
  | confirming (tenantId id : Uuid)
  /-- The row was read, and was not active. -/
  | activating (id tenantId : Uuid) (address : String)
  /-- The row was read, and was active. -/
  | unsubscribing (id : Uuid)
  | sweeping (instant : Bool) (todo : List (Uuid × SavedSearch)) (marks : List (Uuid × Mark))

/-- A lead or a consent record; the rows name the address, not the search. -/
structure OptIn where
  tenantId : Uuid
  email : String
  searchId : Uuid
  deriving DecidableEq

/-- The searches, the codes in Redis and the requests under way. -/
structure State where
  searches : Rows Uuid SavedSearch
  /-- Ids that were ever given to a row. -/
  ids : List Uuid
  /-- `favorites:confirm:*`: the codes in Redis. -/
  codes : Nat → Option Uuid
  leads : List OptIn
  consents : List OptIn
  /-- The searches that alerts were sent for, with the owner they went to. -/
  alerts : List (Uuid × SearchOwner)
  requests : Nat → Option Phase

/-- A step of a request, or a code that expires. -/
inductive Label where
  | signup (t code id tenantId : Nat) (data : SignupIn) (locale : String) (now : DateTime)
  /-- The code of a signup is past its time to live. -/
  | expire (code : Nat)
  /-- `GETDEL`. -/
  | confirm (t tenantId code : Nat)
  | read (t : Nat)
  /-- A link with a valid signature. -/
  | unsubscribe (t tenantId id : Nat)
  /-- `list_active_by_frequency`. -/
  | sweep (t tenantId : Nat) (frequencies : List AlertFrequency)
  /-- The next row of a sweep: whether it has listings to show and a recipient. -/
  | alert (t : Nat) (found : Bool) (now : DateTime)
  | commit (t : Nat)
  | abort (t : Nat)
  | create (id tenantId userId : Nat) (row : SavedSearch)
  | edit (id tenantId userId : Nat) (patch : SearchUpdate)
  | delete (id tenantId userId : Nat)

/-- A request goes on. -/
def State.request (s : State) (t : Nat) (phase : Option Phase) : State :=
  { s with requests := Function.update s.requests t phase }

variable (valid : JsonObject → Bool)

/-- The commit of a request. -/
def State.commit (s : State) (t : Nat) : Phase → Option State
  | .signingUp row => some { s.request t none with searches := s.searches.put row.id row }
  | .activating id tenantId address =>
    (update s.searches id fun row => { row with isActive := true }).map fun searches =>
      { s.request t none with
        searches
        leads := ⟨tenantId, address, id⟩ :: s.leads
        consents := ⟨tenantId, address, id⟩ :: s.consents }
  | .unsubscribing id =>
    (update s.searches id fun row => { row with isActive := false }).map fun searches =>
      { s.request t none with searches }
  | .sweeping _ [] marks =>
    (markAll s.searches marks).map fun searches => { s.request t none with searches }
  | _ => none

/-- One step. -/
def State.step (s : State) : Label → Option State
  | .signup t code id tenantId data locale now =>
    if (s.requests t).isSome ∨ id ∈ s.ids then none
    else (signupRow id tenantId data locale now).map fun row =>
      { s.request t (some (.signingUp row)) with
        ids := id :: s.ids
        codes := Function.update s.codes code (some id) }
  | .expire code => some { s with codes := Function.update s.codes code none }
  | .confirm t tenantId code =>
    if (s.requests t).isSome then none
    else (s.codes code).map fun id =>
      { s.request t (some (.confirming tenantId id)) with
        codes := Function.update s.codes code none }
  | .read t =>
    match s.requests t with
    | some (.confirming tenantId id) =>
      ((s.searches.row id).filter (·.tenantId = tenantId)).bind fun row =>
        (email row).map fun address =>
          s.request t (if row.isActive then none else some (.activating id row.tenantId address))
    | _ => none
  | .unsubscribe t tenantId id =>
    if (s.requests t).isSome then none
    else ((s.searches.row id).filter fun row => row.tenantId = tenantId && row.isActive).map
      fun _ => s.request t (some (.unsubscribing id))
  | .sweep t tenantId frequencies =>
    if (s.requests t).isSome then none
    else
      let due (row : SavedSearch) : Bool :=
        row.tenantId = tenantId && row.isActive && frequencies.contains row.frequency
      some (s.request t (some (.sweeping (frequencies == [.instant]) (entries s.searches due) [])))
  | .alert t found now =>
    match s.requests t with
    | some (.sweeping instant ((id, row) :: todo) marks) =>
      if !valid row.filters then
        some (s.request t (some (.sweeping instant todo (marks ++ [(id, .deactivate)]))))
      else
        -- the digest moves the watermark in any case, the instant alert when it was sent
        let marks := if instant && !found then marks else marks ++ [(id, .ran now)]
        some { s.request t (some (.sweeping instant todo marks)) with
          alerts := if found then (id, row.owner) :: s.alerts else s.alerts }
    | _ => none
  | .commit t => (s.requests t).bind (s.commit t)
  | .abort t => some (s.request t none)
  | .create id tenantId userId row =>
    if id ∈ s.ids ∨ maxSavedSearchesPerUser ≤
        (entries s.searches (ownedBy tenantId userId)).length then none
    else some { s with
      ids := id :: s.ids
      searches := s.searches.put id { row with id, tenantId, owner := .user userId } }
  | .edit id tenantId userId patch =>
    ((s.searches.row id).filter (ownedBy tenantId userId)).map fun row =>
      { s with searches := s.searches.put id (patch.apply row) }
  | .delete id tenantId userId =>
    ((s.searches.row id).filter (ownedBy tenantId userId)).map fun _ =>
      { s with searches := s.searches.delete id }

/-- No searches. -/
def State.start : State := ⟨.empty, [], fun _ => none, [], [], [], fun _ => none⟩

/-- The saved searches of all tenants, from empty tables on. -/
def machine : Machine State Label where
  init s := s = .start
  step := State.step valid

/-! ### Codes are held by one -/

/-- The search whose code a request took. -/
def Phase.held : Phase → Option Uuid
  | .confirming _ id | .activating id _ _ => some id
  | _ => none

/-- The search that a request adds. -/
def Phase.signing : Phase → Option Uuid
  | .signingUp row => some row.id
  | _ => none

/-- The row that a request is about to write. -/
def State.held (s : State) (t : Nat) : Option Uuid := (s.requests t).bind Phase.held

/-- The row that a confirmation is about to create. -/
def State.signing (s : State) (t : Nat) : Option Uuid := (s.requests t).bind Phase.signing

/-- The searches that were confirmed. -/
def State.confirmed (s : State) : List Uuid := s.consents.map OptIn.searchId

variable {valid} {s s' : State} {t : Nat} {id : Uuid}

theorem bind_update {requests : Nat → Option Phase} {phase : Option Phase} {t' : Nat}
    {f : Phase → Option Uuid} (h : (Function.update requests t phase t').bind f = some id) :
    (t' = t ∧ phase.bind f = some id) ∨ (t' ≠ t ∧ (requests t').bind f = some id) := by
  by_cases ht : t' = t
  · subst ht
    rw [Function.update_self] at h
    exact .inl ⟨rfl, h⟩
  · rw [Function.update_of_ne ht] at h
    exact .inr ⟨ht, h⟩

/-- The code of a search is in Redis or with one request, and until it is used the search is not
confirmed. -/
structure Permits (s : State) : Prop where
  code : ∀ code id, s.codes code = some id → id ∈ s.ids ∧ id ∉ s.confirmed
  held : ∀ t id, s.held t = some id → id ∈ s.ids ∧ id ∉ s.confirmed
  code_unique : ∀ code code' id, s.codes code = some id → s.codes code' = some id → code = code'
  held_unique : ∀ t t' id, s.held t = some id → s.held t' = some id → t = t'
  apart : ∀ code t id, s.codes code = some id → s.held t ≠ some id

/-- Codes may go, and requests may let go of them. -/
theorem Permits.weaken (h : Permits s) (hids : ∀ id ∈ s.ids, id ∈ s'.ids)
    (hcodes : ∀ code id, s'.codes code = some id → s.codes code = some id)
    (hheld : ∀ t id, s'.held t = some id → s.held t = some id)
    (hconsents : s'.consents = s.consents) : Permits s' := by
  have hconfirmed : s'.confirmed = s.confirmed := congrArg (List.map OptIn.searchId) hconsents
  refine ⟨fun code id hc => ?_, fun t id ht => ?_, fun code code' id hc hc' => ?_,
    fun t t' id ht ht' => ?_, fun code t id hc ht => ?_⟩
  · rw [hconfirmed]
    exact (h.code code id (hcodes code id hc)).imp_left (hids id)
  · rw [hconfirmed]
    exact (h.held t id (hheld t id ht)).imp_left (hids id)
  · exact h.code_unique code code' id (hcodes code id hc) (hcodes code' id hc')
  · exact h.held_unique t t' id (hheld t id ht) (hheld t' id ht')
  · exact h.apart code t id (hcodes code id hc) (hheld t id ht)

/-- A request that holds no code goes on to hold none. -/
theorem held_of_request {phase : Option Phase} (hphase : phase.bind Phase.held = none) :
    ∀ t' id, (s.request t phase).held t' = some id → s.held t' = some id := by
  intro t' id h
  rcases bind_update h with ⟨-, hnew⟩ | ⟨-, hold⟩
  · cases hphase.symm.trans hnew
  · exact hold

/-- A new code, of a new search. -/
theorem Permits.mint (h : Permits s) {code : Nat} (hid : id ∉ s.ids)
    (hids : ∀ j, j ∈ s'.ids ↔ j = id ∨ j ∈ s.ids)
    (hcodes : s'.codes = Function.update s.codes code (some id))
    (hheld : ∀ t j, s'.held t = some j → s.held t = some j) (hconsents : s'.consents = s.consents)
    (hconfirmed : id ∉ s.confirmed) : Permits s' := by
  have hsame : s'.confirmed = s.confirmed := congrArg (List.map OptIn.searchId) hconsents
  have hcases : ∀ c j, s'.codes c = some j → (c = code ∧ j = id) ∨ s.codes c = some j := by
    intro c j hc
    rw [hcodes] at hc
    rcases Machine.update_cases hc with ⟨rfl, heq⟩ | ⟨-, hold⟩
    · exact .inl ⟨rfl, (Option.some.inj heq).symm⟩
    · exact .inr hold
  have hnot : ∀ c, s.codes c ≠ some id := fun c hc => hid (h.code c id hc).1
  refine ⟨fun c j hc => ?_, fun t j ht => ?_, fun c c' j hc hc' => ?_, fun t t' j ht ht' => ?_,
    fun c t j hc ht => ?_⟩
  · rw [hsame, hids]
    rcases hcases c j hc with ⟨-, rfl⟩ | hold
    · exact ⟨.inl rfl, hconfirmed⟩
    · exact (h.code c j hold).imp_left .inr
  · rw [hsame, hids]
    exact (h.held t j (hheld t j ht)).imp_left .inr
  · rcases hcases c j hc with ⟨rfl, rfl⟩ | hold
    · rcases hcases c' j hc' with ⟨rfl, -⟩ | hold'
      · rfl
      · exact absurd hold' (hnot c')
    · rcases hcases c' j hc' with ⟨rfl, rfl⟩ | hold'
      · exact absurd hold (hnot c)
      · exact h.code_unique c c' j hold hold'
  · exact h.held_unique t t' j (hheld t j ht) (hheld t' j ht')
  · rcases hcases c j hc with ⟨-, rfl⟩ | hold
    · exact hid (h.held t j (hheld t j ht)).1
    · exact h.apart c t j hold (hheld t j ht)

/-- A code goes from Redis to one request. -/
theorem Permits.take (h : Permits s) {code tenantId : Nat} (hcode : s.codes code = some id)
    (hids : s'.ids = s.ids) (hcodes : s'.codes = Function.update s.codes code none)
    (hrequests : s'.requests = Function.update s.requests t (some (.confirming tenantId id)))
    (hconsents : s'.consents = s.consents) : Permits s' := by
  have hsame : s'.confirmed = s.confirmed := congrArg (List.map OptIn.searchId) hconsents
  have hold : ∀ c j, s'.codes c = some j → c ≠ code ∧ s.codes c = some j := by
    intro c j hc
    rw [hcodes] at hc
    exact Machine.old_of_update hc (Option.some_ne_none j).symm
  -- Who holds an id held it before, or is the request that took the code.
  have hcases : ∀ u j, s'.held u = some j → (u = t ∧ j = id) ∨ s.held u = some j := by
    intro u j hu
    rw [State.held, hrequests] at hu
    rcases bind_update hu with ⟨rfl, heq⟩ | ⟨-, hu⟩
    · exact .inl ⟨rfl, (Option.some.inj heq).symm⟩
    · exact .inr hu
  have hnot : ∀ u, s.held u ≠ some id := fun u => h.apart code u id hcode
  refine ⟨fun c j hc => ?_, fun u j hu => ?_, fun c c' j hc hc' => ?_, fun u u' j hu hu' => ?_,
    fun c u j hc hu => ?_⟩
  · rw [hids, hsame]
    exact h.code c j (hold c j hc).2
  · rw [hids, hsame]
    rcases hcases u j hu with ⟨-, rfl⟩ | hu
    · exact h.code code j hcode
    · exact h.held u j hu
  · exact h.code_unique c c' j (hold c j hc).2 (hold c' j hc').2
  · rcases hcases u j hu with ⟨rfl, rfl⟩ | hu
    · rcases hcases u' j hu' with ⟨rfl, -⟩ | hu'
      · rfl
      · exact absurd hu' (hnot u')
    · rcases hcases u' j hu' with ⟨rfl, rfl⟩ | hu'
      · exact absurd hu (hnot u)
      · exact h.held_unique u u' j hu hu'
  · obtain ⟨hne, hc⟩ := hold c j hc
    rcases hcases u j hu with ⟨-, rfl⟩ | hu
    · -- A second code of the id held would be the code taken.
      exact hne (h.code_unique c code j hc hcode)
    · exact h.apart c u j hc hu

/-- The request that used its code lets go of it, and nobody else had it. -/
theorem Permits.use (h : Permits s) (hheld : s.held t = some id) (hids : s'.ids = s.ids)
    (hcodes : s'.codes = s.codes) (hrequests : s'.requests = Function.update s.requests t none)
    {optIn : OptIn} (hid : optIn.searchId = id) (hconsents : s'.consents = optIn :: s.consents) :
    Permits s' := by
  have hconfirmed : ∀ j, j ∉ s.confirmed → j ≠ id → j ∉ s'.confirmed := by
    intro j hj hne hmem
    rw [State.confirmed, hconsents, List.map_cons, hid] at hmem
    exact (List.mem_cons.1 hmem).elim hne hj
  have hold : ∀ u j, s'.held u = some j → u ≠ t ∧ s.held u = some j := by
    intro u j hu
    rw [State.held, hrequests] at hu
    rcases bind_update hu with ⟨-, heq⟩ | hu
    · cases heq
    · exact hu
  refine ⟨fun c j hc => ?_, fun u j hu => ?_, fun c c' j hc hc' => ?_, fun u u' j hu hu' => ?_,
    fun c u j hc hu => ?_⟩
  · rw [hcodes] at hc
    obtain ⟨hmem, hnot⟩ := h.code c j hc
    -- No code is left of the id confirmed, for its holder had taken it.
    exact ⟨hids ▸ hmem, hconfirmed j hnot fun heq => h.apart c t j hc (heq ▸ hheld)⟩
  · obtain ⟨hne, hu⟩ := hold u j hu
    obtain ⟨hmem, hnot⟩ := h.held u j hu
    exact ⟨hids ▸ hmem, hconfirmed j hnot fun heq => hne (h.held_unique u t j hu (heq ▸ hheld))⟩
  · rw [hcodes] at hc hc'
    exact h.code_unique c c' j hc hc'
  · exact h.held_unique u u' j (hold u j hu).2 (hold u' j hu').2
  · rw [hcodes] at hc
    exact h.apart c u j hc (hold u j hu).2

end Signups

end Favorites

end RealEstate
