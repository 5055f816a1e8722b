import RealEstate.Auth.Login
import RealEstate.Systems.Machine
import RealEstate.Systems.Uuid

/-!
# The tickets of the second factor

Password logins and `verify_mfa` calls of any number of parties, one Redis command or check a
step (`AuthService.login`, `_start_mfa_challenge`, `verify_mfa`). `Auth.Login` runs the same
requests one after the other; here the ticket is the text that Redis keeps.

- `ticketValue`, `redeem`: what is stored, and what a redemption makes of a stored text.
- `Traced`: where the ticket of every password step is.
- `checks_accounted`: each TOTP check consumes a ticket of its own, minted for the account
  it checks.
-/

namespace RealEstate

namespace Auth

namespace Tickets

open RealEstate.Core Systems

/-- An account, as a ticket names it. -/
structure Account where
  tenantId : Option UUID
  id : UUID
  deriving DecidableEq

/-- `str(tenant_id) if tenant_id is not None else ""`. -/
def tenantPart : Option UUID → Text
  | none => []
  | some tenantId => uuidText tenantId

/-- `f"{tenant_part}:{identity.id}"`. -/
def ticketValue (account : Account) : Text :=
  tenantPart account.tenantId ++ ':' :: uuidText account.id

/-- How a request fails: with an error of its own, or with one nobody expects. -/
inductive Failure where
  | raised (error : AppError)
  | valueError
  deriving DecidableEq

/-- A 401. -/
def unauthorized (detail : String) : Failure := .raised ⟨.unauthorized, detail⟩

/-- `verify_mfa` between `GETDEL` and the code: the account whose code is to be checked. -/
def redeem (tenantId : Option UUID) (raw : Option Text) : Except Failure UUID :=
  match raw with
  | none => .error (unauthorized "The verification session has expired. Please sign in again.")
  | some value =>
    let (tenant, _, user) := partition ':' value
    if tenant ≠ tenantPart tenantId then
      .error (unauthorized "The verification session is invalid.")
    else
      match parseUuid user with
      | none => .error .valueError
      | some userId => .ok userId

/-- `verify_mfa` from the code on: the answers of `verify_mfa_code` and
`get_identity_if_active`. -/
def checkCode (accepted active : Bool) : Except Failure Unit :=
  if !accepted then .error (unauthorized "That code is not valid. Please sign in again.")
  else if !active then .error (unauthorized "The verification session is invalid.")
  else .ok ()

/-! ### The machine -/

/-- A stored ticket, with the login that minted it, which nothing reads. -/
structure Ticket where
  value : Text
  mintedBy : Nat
  deriving DecidableEq

/-- The hash, and how long a ticket lives. -/
structure Env where
  hashToken : Token → Digest
  mfaPendingTokenTtlSeconds : Nat := 300

/-- A request that mints or redeems a ticket. -/
inductive Request where
  /-- The password was right, and `SET` is ahead. -/
  | minting (account : Account)
  /-- `GETDEL` has answered. -/
  | redeemed (tenantId : Option UUID) (ticket : Option Ticket)
  | answered (reply : Except Failure Unit)

/-- A TOTP check, the request that made it, and the ticket it had got. -/
structure Check where
  request : Nat
  account : Account
  ticket : Ticket

/-- The logs are newest first, and nothing reads them. -/
structure State where
  redis : Store Digest Ticket
  requests : Nat → Option Request
  /-- The successful password steps. -/
  passwords : List (Nat × Account)
  /-- The tickets that `GETDEL` returned. -/
  redeemed : List (Nat × Ticket)
  checks : List Check

/-- `identity` is what `verify_credentials` answers, with `mfa_enabled`. -/
inductive Label where
  | password (n : Nat) (identity : Option (Account × Bool))
  | mint (n : Nat) (token : Token)
  | getdel (n : Nat) (tenantId : Option UUID) (token : Token)
  | check (n : Nat) (accepted active : Bool)
  | wait (seconds : Nat)

variable (env : Env)

/-- One step: `SET` and `GETDEL` are one command each. -/
def step (s : State) : Label → Option State
  | .password n identity =>
    match s.requests n with
    | some _ => none
    | none =>
      match identity with
      | none =>
        let reply := .error (.raised Login.badCredentials)
        some { s with requests := Function.update s.requests n (some (.answered reply)) }
      | some (account, mfaEnabled) =>
        let request := if mfaEnabled then .minting account else .answered (.ok ())
        some { s with
          requests := Function.update s.requests n (some request)
          passwords := (n, account) :: s.passwords }
  | .mint n token =>
    match s.requests n with
    | some (.minting account) =>
      some { s with
        redis := s.redis.set (env.hashToken token) ⟨ticketValue account, n⟩
          (some env.mfaPendingTokenTtlSeconds)
        requests := Function.update s.requests n (some (.answered (.ok ()))) }
    | _ => none
  | .getdel n tenantId token =>
    match s.requests n with
    | some _ => none
    | none =>
      -- One `GETDEL`: the ticket is read and gone.
      let ticket := s.redis.get (env.hashToken token)
      some { s with
        redis := s.redis.del (env.hashToken token)
        requests := Function.update s.requests n (some (.redeemed tenantId ticket))
        redeemed := (ticket.map ((n, ·))).toList ++ s.redeemed }
  | .check n accepted active =>
    match s.requests n with
    | some (.redeemed tenantId ticket) =>
      match ticket, redeem tenantId (ticket.map Ticket.value) with
      | some ticket, .ok userId =>
        -- The ticket is of the tenant that asks.
        let reply := checkCode accepted active
        some { s with
          requests := Function.update s.requests n (some (.answered reply))
          checks := ⟨n, ⟨tenantId, userId⟩, ticket⟩ :: s.checks }
      | _, .error e =>
        some { s with requests := Function.update s.requests n (some (.answered (.error e))) }
      | none, .ok _ => none
    | _ => none
  | .wait seconds => some { s with redis := s.redis.wait seconds }

/-- The requests of any number of parties, from a store without tickets on. -/
def machine : Machine State Label where
  init s := s.redis.entries = (fun _ => none) ∧ s.requests = (fun _ => none) ∧
    s.passwords = [] ∧ s.redeemed = [] ∧ s.checks = []
  step := step env

/-- The TOTP checks, accounted for. -/
structure Accounted (s : State) : Prop where
  /-- A check had consumed a ticket, -/
  consumed : ∀ c ∈ s.checks, (c.request, c.ticket) ∈ s.redeemed
  /-- minted by a password step for the account and the tenant of the check, -/
  minted : ∀ c ∈ s.checks, (c.ticket.mintedBy, c.account) ∈ s.passwords
  /-- another one for each check. -/
  distinct : (s.checks.map fun c => c.ticket.mintedBy).Nodup
  redeemedOnce : (s.redeemed.map fun r => r.2.mintedBy).Nodup
  count : s.checks.length ≤ s.passwords.length

/-! ### Tickets as texts -/

theorem not_mem_tenantPart (tenantId : Option UUID) : ':' ∉ tenantPart tenantId := by
  cases tenantId with
  | none => exact List.not_mem_nil
  | some tenantId => exact not_mem_uuidText (by decide) (by decide) tenantId

/-- The value of a ticket is split at its first colon, which no tenant holds. -/
theorem partition_ticketValue (account : Account) : partition ':' (ticketValue account) =
    (tenantPart account.tenantId, [':'], uuidText account.id) :=
  partition_append (not_mem_tenantPart account.tenantId) _

theorem tenantPart_injective : Function.Injective tenantPart := by
  intro s t h
  cases s with
  | none =>
    cases t with
    | none => rfl
    | some t =>
      have hread := parseUuid_uuidText t
      rw [show uuidText t = [] from h.symm] at hread
      cases hread
  | some s =>
    cases t with
    | none =>
      have hread := parseUuid_uuidText s
      rw [show uuidText s = [] from h] at hread
      cases hread
    | some t => rw [uuidText_injective h]

/-- A ticket is good for the account it was minted for, and for the tenant of that account. -/
theorem redeem_ticketValue {account : Account} {tenantId : Option UUID} {userId : UUID} :
    redeem tenantId (some (ticketValue account)) = .ok userId ↔ account = ⟨tenantId, userId⟩ := by
  simp only [redeem, partition_ticketValue, parseUuid_uuidText]
  obtain ⟨tenant, id⟩ := account
  by_cases htenant : tenant = tenantId
  · subst htenant
    simp
  · have hpart : tenantPart tenant ≠ tenantPart tenantId := fun h =>
      htenant (tenantPart_injective h)
    simp [hpart, htenant]

/-- The value of a ticket says whose it is. -/
theorem ticketValue_injective : Function.Injective ticketValue := by
  intro a b h
  exact redeem_ticketValue.1 (h ▸ redeem_ticketValue.2 rfl)

/-! ### Where the tickets are -/

/-- Where the ticket of a password step is. -/
inductive Place where
  | minting
  | stored (key : Digest)
  | redeemed (request : Nat)
  deriving DecidableEq

/-- The ticket is that of a password step. -/
def Genuine (s : State) (ticket : Ticket) : Prop :=
  ∃ account, (ticket.mintedBy, account) ∈ s.passwords ∧ ticket.value = ticketValue account

/-- Every ticket is genuine, and in one place only. -/
structure Traced (place : Nat → Place) (s : State) : Prop where
  started : ∀ p ∈ s.passwords, s.requests p.1 ≠ none
  minting : ∀ {n account}, s.requests n = some (.minting account) →
    (n, account) ∈ s.passwords ∧ place n = .minting
  stored : ∀ {key e}, s.redis.entries key = some e →
    Genuine s e.value ∧ place e.value.mintedBy = .stored key
  got : ∀ {n tenantId ticket}, s.requests n = some (.redeemed tenantId (some ticket)) →
    (n, ticket) ∈ s.redeemed
  redeemed : ∀ r ∈ s.redeemed, Genuine s r.2 ∧ place r.2.mintedBy = .redeemed r.1 ∧
    s.requests r.1 ≠ none
  redeemedOnce : (s.redeemed.map Prod.fst).Nodup
  checked : ∀ c ∈ s.checks, (c.request, c.ticket) ∈ s.redeemed ∧
    c.ticket.value = ticketValue c.account ∧ ∃ reply, s.requests c.request = some (.answered reply)
  checkedOnce : (s.checks.map Check.request).Nodup
  passwordsOnce : (s.passwords.map Prod.fst).Nodup

variable {env} {s t : State} {place : Nat → Place} {n : Nat}

/-- A genuine ticket was minted by a request. -/
theorem Genuine.started {ticket : Ticket} (h : Genuine s ticket) (hs : Traced place s) :
    s.requests ticket.mintedBy ≠ none := by
  obtain ⟨account, hmem, -⟩ := h
  exact hs.started _ hmem

theorem ne_none_of_update {requests : Nat → Option Request} {m : Nat} {r : Request}
    (h : requests m ≠ none) : Function.update requests n (some r) m ≠ none := by
  intro hnone
  rcases Machine.update_cases hnone with ⟨-, hsome⟩ | ⟨-, hold⟩
  · cases hsome
  · exact h hold

/-- The request moves on, and no ticket does. -/
theorem Traced.answer (h : Traced place s) (reply : Except Failure Unit) :
    Traced place { s with requests := Function.update s.requests n (some (.answered reply)) } where
  started p hp := ne_none_of_update (h.started p hp)
  minting hm := by
    rcases Machine.update_cases hm with ⟨-, hsome⟩ | ⟨-, hold⟩
    · cases hsome
    · exact h.minting hold
  stored := h.stored
  got hg := by
    rcases Machine.update_cases hg with ⟨-, hsome⟩ | ⟨-, hold⟩
    · cases hsome
    · exact h.got hold
  redeemed r hr := by
    obtain ⟨hgenuine, hplace, hne⟩ := h.redeemed r hr
    exact ⟨hgenuine, hplace, ne_none_of_update hne⟩
  redeemedOnce := h.redeemedOnce
  checked c hc := by
    obtain ⟨hr, hvalue, reply', hreply⟩ := h.checked c hc
    refine ⟨hr, hvalue, ?_⟩
    by_cases hn : c.request = n
    · refine ⟨reply, ?_⟩
      show Function.update s.requests n _ c.request = _
      rw [hn, Function.update_self]
    · exact ⟨reply', (Function.update_of_ne hn ..).trans hreply⟩
  checkedOnce := h.checkedOnce
  passwordsOnce := h.passwordsOnce

/-- A right password: the ticket it will mint is on its way. -/
theorem Traced.password (h : Traced place s) (hn : s.requests n = none) (account : Account)
    {request : Request}
    (hrequest : request = .minting account ∨ ∃ reply, request = .answered reply) :
    Traced (Function.update place n .minting) { s with
      requests := Function.update s.requests n (some request)
      passwords := (n, account) :: s.passwords } := by
  -- Tickets that are around were minted by requests that had begun, so not by `n`.
  have hgenuine : ∀ {ticket}, Genuine s ticket → ticket.mintedBy ≠ n := by
    rintro ticket hticket rfl
    exact hticket.started h hn
  have hgenuine' : ∀ {ticket}, Genuine s ticket → ∃ account',
      (ticket.mintedBy, account') ∈ (n, account) :: s.passwords ∧
        ticket.value = ticketValue account' := by
    rintro ticket ⟨account', hmem, hvalue⟩
    exact ⟨account', List.mem_cons_of_mem _ hmem, hvalue⟩
  constructor
  case started =>
    intro p hp
    rcases List.mem_cons.1 hp with rfl | hp
    · show Function.update s.requests n _ n ≠ none
      rw [Function.update_self]
      exact Option.some_ne_none _
    · exact ne_none_of_update (h.started p hp)
  case minting =>
    intro m account' hm
    rcases Machine.update_cases hm with ⟨rfl, hsome⟩ | ⟨hne, hold⟩
    · rcases hrequest with rfl | ⟨reply, rfl⟩
      · cases hsome
        exact ⟨List.mem_cons_self, Function.update_self ..⟩
      · cases hsome
    · obtain ⟨hmem, hplace⟩ := h.minting hold
      exact ⟨List.mem_cons_of_mem _ hmem, (Function.update_of_ne hne ..).trans hplace⟩
  case stored =>
    intro key e he
    obtain ⟨hg, hplace⟩ := h.stored he
    exact ⟨hgenuine' hg, (Function.update_of_ne (hgenuine hg) ..).trans hplace⟩
  case got =>
    intro m tenantId ticket hm
    rcases Machine.update_cases hm with ⟨rfl, hsome⟩ | ⟨-, hold⟩
    · rcases hrequest with rfl | ⟨reply, rfl⟩ <;> cases hsome
    · exact h.got hold
  case redeemed =>
    intro r hr
    obtain ⟨hg, hplace, hne⟩ := h.redeemed r hr
    exact ⟨hgenuine' hg, (Function.update_of_ne (hgenuine hg) ..).trans hplace,
      ne_none_of_update hne⟩
  case redeemedOnce => exact h.redeemedOnce
  case checked =>
    intro c hc
    obtain ⟨hr, hvalue, reply, hreply⟩ := h.checked c hc
    refine ⟨hr, hvalue, reply, (Function.update_of_ne ?_ ..).trans hreply⟩
    rintro rfl
    cases hn.symm.trans hreply
  case checkedOnce => exact h.checkedOnce
  case passwordsOnce =>
    refine List.nodup_cons.2 ⟨fun hmem => ?_, h.passwordsOnce⟩
    -- `n` has passed no password check before.
    obtain ⟨p, hp, rfl⟩ := List.mem_map.1 hmem
    exact h.started p hp hn

/-- `SET`: the ticket is in the store, and replaces what was under its key. -/
theorem Traced.mint (h : Traced place s) {account : Account}
    (hn : s.requests n = some (.minting account)) (key : Digest) (ttl : Option Nat)
    (reply : Except Failure Unit) :
    Traced (Function.update place n (.stored key)) { s with
      redis := s.redis.set key ⟨ticketValue account, n⟩ ttl
      requests := Function.update s.requests n (some (.answered reply)) } := by
  obtain ⟨hmem, hminting⟩ := h.minting hn
  have hanswer := h.answer reply (n := n)
  -- whatever is elsewhere was not minted by this login
  have hplace : ∀ {m p}, place m = p → p ≠ .minting →
      Function.update place n (.stored key) m = p := by
    intro m p hm hp
    refine (Function.update_of_ne ?_ ..).trans hm
    rintro rfl
    exact hp (hm.symm.trans hminting)
  exact {
    started := hanswer.started
    minting := fun {m account'} hm => by
      rcases Machine.update_cases hm with ⟨-, hsome⟩ | ⟨hne, hold⟩
      · cases hsome
      · obtain ⟨hmem', hplace'⟩ := h.minting hold
        exact ⟨hmem', (Function.update_of_ne hne ..).trans hplace'⟩
    stored := fun {key' e} he => by
      rcases Machine.update_cases he with ⟨rfl, hsome⟩ | ⟨-, hold⟩
      · cases hsome
        exact ⟨⟨account, hmem, rfl⟩, Function.update_self ..⟩
      · obtain ⟨hg, hplace'⟩ := h.stored hold
        exact ⟨hg, hplace hplace' nofun⟩
    got := hanswer.got
    redeemed := fun r hr => by
      obtain ⟨hg, hplace', hne⟩ := hanswer.redeemed r hr
      exact ⟨hg, hplace hplace' nofun, hne⟩
    redeemedOnce := h.redeemedOnce
    checked := hanswer.checked
    checkedOnce := h.checkedOnce
    passwordsOnce := h.passwordsOnce }

/-- Deleting a key loses a ticket. -/
theorem Traced.del (h : Traced place s) (key : Digest) :
    Traced place { s with redis := s.redis.del key } where
  started := h.started
  minting := h.minting
  stored he := by
    rcases Machine.update_cases he with ⟨-, hsome⟩ | ⟨-, hold⟩
    · cases hsome
    · exact h.stored hold
  got := h.got
  redeemed := h.redeemed
  redeemedOnce := h.redeemedOnce
  checked := h.checked
  checkedOnce := h.checkedOnce
  passwordsOnce := h.passwordsOnce

/-- The request receives a ticket that is in the store no more, or none. -/
theorem Traced.receive (h : Traced place s) (hn : s.requests n = none) (tenantId : Option UUID)
    (ticket : Option Ticket)
    (hticket : ∀ x, ticket = some x → Genuine s x ∧
      ∃ key, place x.mintedBy = .stored key ∧ s.redis.entries key = none) :
    ∃ place', Traced place' { s with
      requests := Function.update s.requests n (some (.redeemed tenantId ticket))
      redeemed := (ticket.map ((n, ·))).toList ++ s.redeemed } := by
  obtain ⟨place', hnew, hplace⟩ : ∃ place' : Nat → Place,
      (∀ x, ticket = some x → place' x.mintedBy = .redeemed n) ∧
      ∀ {m p}, place m = p → (∀ key, s.redis.entries key = none → p ≠ .stored key) →
        place' m = p := by
    cases ticket with
    | none => exact ⟨place, fun _ hx => (nomatch hx), fun hm _ => hm⟩
    | some x =>
      -- The ticket moves from its key to the request.
      obtain ⟨-, key, hstored, hfree⟩ := hticket x rfl
      refine ⟨Function.update place x.mintedBy (.redeemed n), ?_, fun {m p} hm hp => ?_⟩
      · rintro x ⟨⟩
        exact Function.update_self ..
      · refine (Function.update_of_ne ?_ ..).trans hm
        rintro rfl
        exact hp key hfree (hm.symm.trans hstored)
  -- A redemption on record is this one, or an earlier one.
  have hlog : ∀ {r}, r ∈ (ticket.map ((n, ·))).toList ++ s.redeemed →
      (∃ x, ticket = some x ∧ r = (n, x)) ∨ r ∈ s.redeemed := by
    intro r hr
    rcases List.mem_append.1 hr with hr | hr
    · rw [Option.mem_toList, Option.map_eq_some_iff] at hr
      obtain ⟨x, hx, rfl⟩ := hr
      exact .inl ⟨x, hx, rfl⟩
    · exact .inr hr
  have hold : ∀ {m request}, Function.update s.requests n (some (.redeemed tenantId ticket)) m =
      some request → request ≠ .redeemed tenantId ticket → s.requests m = some request := by
    intro m request hm hne
    rcases Machine.update_cases hm with ⟨-, hsome⟩ | ⟨-, hold⟩
    · exact absurd (Option.some.inj hsome).symm hne
    · exact hold
  refine ⟨place', ?_⟩
  constructor
  case started => exact fun p hp => ne_none_of_update (h.started p hp)
  case minting =>
    intro m account hm
    obtain ⟨hmem, hminting⟩ := h.minting (hold hm nofun)
    exact ⟨hmem, hplace hminting nofun⟩
  case stored =>
    intro key e he
    obtain ⟨hg, hstored⟩ := h.stored he
    refine ⟨hg, hplace hstored ?_⟩
    -- The deleted key holds nothing, so no stored ticket was there.
    rintro key' hfree ⟨⟩
    cases hfree.symm.trans he
  case got =>
    intro m tenantId' x hm
    rcases Machine.update_cases hm with ⟨rfl, hsome⟩ | ⟨-, hm⟩
    · cases hsome
      exact List.mem_append_left _ List.mem_cons_self
    · exact List.mem_append_right _ (h.got hm)
  case redeemed =>
    intro r hr
    rcases hlog hr with ⟨x, hx, rfl⟩ | hr
    · refine ⟨(hticket x hx).1, hnew x hx, ?_⟩
      show Function.update s.requests n _ n ≠ none
      rw [Function.update_self]
      exact Option.some_ne_none _
    · obtain ⟨hg, hredeemed, hne⟩ := h.redeemed r hr
      exact ⟨hg, hplace hredeemed nofun, ne_none_of_update hne⟩
  case redeemedOnce =>
    cases ticket with
    | none => exact h.redeemedOnce
    | some x =>
      refine List.nodup_cons.2 ⟨fun hmem => ?_, h.redeemedOnce⟩
      -- `n` has redeemed nothing before.
      obtain ⟨r, hr, rfl⟩ := List.mem_map.1 hmem
      exact (h.redeemed r hr).2.2 hn
  case checked =>
    intro c hc
    obtain ⟨hr, hvalue, reply, hreply⟩ := h.checked c hc
    refine ⟨List.mem_append_right _ hr, hvalue, reply, (Function.update_of_ne ?_ ..).trans hreply⟩
    rintro rfl
    cases hn.symm.trans hreply
  case checkedOnce => exact h.checkedOnce
  case passwordsOnce => exact h.passwordsOnce

/-- `GETDEL`. -/
theorem Traced.getdel (h : Traced place s) (hn : s.requests n = none) (tenantId : Option UUID)
    (key : Digest) :
    ∃ place', Traced place' { s with
      redis := s.redis.del key
      requests := Function.update s.requests n (some (.redeemed tenantId (s.redis.get key)))
      redeemed := ((s.redis.get key).map ((n, ·))).toList ++ s.redeemed } := by
  refine (h.del key).receive hn tenantId (s.redis.get key) fun x hx => ?_
  obtain ⟨e, he, hread⟩ := Option.bind_eq_some_iff.1 hx
  obtain ⟨hg, hplace⟩ := h.stored he
  have hvalue : e.value = x := Entry.eq_of_read hread
  subst hvalue
  exact ⟨hg, key, hplace, Function.update_self ..⟩

/-- The code is checked, for the account of the ticket. -/
theorem Traced.check (h : Traced place s) {tenantId : Option UUID} {ticket : Ticket} {userId : UUID}
    (hn : s.requests n = some (.redeemed tenantId (some ticket)))
    (hredeem : redeem tenantId (some ticket.value) = .ok userId) (reply : Except Failure Unit) :
    Traced place { s with
      requests := Function.update s.requests n (some (.answered reply))
      checks := ⟨n, ⟨tenantId, userId⟩, ticket⟩ :: s.checks } := by
  have hanswer := h.answer reply (n := n)
  have hgot := h.got hn
  obtain ⟨⟨account, -, hvalue⟩, -⟩ := h.redeemed _ hgot
  -- The value names the account that the ticket was minted for.
  have haccount : account = ⟨tenantId, userId⟩ := redeem_ticketValue.1 (hvalue ▸ hredeem)
  exact {
    started := hanswer.started
    minting := hanswer.minting
    stored := h.stored
    got := hanswer.got
    redeemed := hanswer.redeemed
    redeemedOnce := h.redeemedOnce
    checked := fun c hc => by
      rcases List.mem_cons.1 hc with rfl | hc
      · exact ⟨hgot, haccount ▸ hvalue, reply, Function.update_self ..⟩
      · exact hanswer.checked c hc
    checkedOnce := by
      refine List.nodup_cons.2 ⟨fun hmem => ?_, h.checkedOnce⟩
      -- A request that was checked has its answer; this one has none yet.
      obtain ⟨c, hc, rfl⟩ := List.mem_map.1 hmem
      obtain ⟨-, -, reply', hreply⟩ := h.checked c hc
      cases hn.symm.trans hreply
    passwordsOnce := h.passwordsOnce }

theorem Traced.wait (h : Traced place s) (seconds : Nat) :
    Traced place { s with redis := s.redis.wait seconds } :=
  ⟨h.started, h.minting, h.stored, h.got, h.redeemed, h.redeemedOnce, h.checked, h.checkedOnce,
    h.passwordsOnce⟩

/-- One step keeps every ticket traced. -/
theorem traced_step {l : Label} (h : Traced place s) (hst : step env s l = some t) :
    ∃ place', Traced place' t := by
  cases l with
  | password n identity =>
    simp only [step] at hst
    split at hst
    · cases hst
    · next hn =>
      split at hst
      · cases hst
        exact ⟨place, h.answer _⟩
      · next account mfaEnabled =>
        cases hst
        refine ⟨_, h.password hn account ?_⟩
        cases mfaEnabled with
        | true => exact .inl rfl
        | false => exact .inr ⟨_, rfl⟩
  | mint n token =>
    simp only [step] at hst
    split at hst
    · next account hn =>
      cases hst
      exact ⟨_, h.mint hn _ _ _⟩
    · cases hst
  | getdel n tenantId token =>
    simp only [step] at hst
    split at hst
    · cases hst
    · next hn =>
      cases hst
      exact h.getdel hn tenantId _
  | check n accepted active =>
    simp only [step] at hst
    split at hst
    · next tenantId ticket hn =>
      split at hst
      · next ticket userId hredeem =>
        cases hst
        exact ⟨place, h.check hn hredeem _⟩
      · cases hst
        exact ⟨place, h.answer _⟩
      · cases hst
    · cases hst
  | wait seconds =>
    cases hst
    exact ⟨place, h.wait seconds⟩

theorem traced (h : (machine env).Reachable s) : ∃ place, Traced place s := by
  induction h with
  | init hs =>
    obtain ⟨hentries, hrequests, hpasswords, hredeemed, hchecks⟩ := hs
    refine ⟨fun _ => .minting, ?_⟩
    constructor <;> simp [hentries, hrequests, hpasswords, hredeemed, hchecks]
  | step _ _ hst ih =>
    obtain ⟨place, hplace⟩ := ih
    exact traced_step hplace hst

/-- What is traced is accounted for. -/
theorem Traced.accounted (h : Traced place s) : Accounted s := by
  have hminted : ∀ c ∈ s.checks, (c.ticket.mintedBy, c.account) ∈ s.passwords := by
    intro c hc
    obtain ⟨hr, hvalue, -⟩ := h.checked c hc
    obtain ⟨⟨account, hmem, hvalue'⟩, -⟩ := h.redeemed _ hr
    rw [ticketValue_injective (hvalue.symm.trans hvalue')]
    exact hmem
  have hdistinct : (s.checks.map fun c => c.ticket.mintedBy).Nodup := by
    -- Tickets have places, and different requests are different places.
    refine List.Nodup.of_map place ?_
    have hplace : (s.checks.map fun c => c.ticket.mintedBy).map place =
        (s.checks.map Check.request).map Place.redeemed := by
      rw [List.map_map, List.map_map]
      exact List.map_congr_left fun c hc => (h.redeemed _ (h.checked c hc).1).2.1
    rw [hplace]
    exact h.checkedOnce.map fun m n hmn => Place.redeemed.inj hmn
  refine ⟨fun c hc => (h.checked c hc).1, hminted, hdistinct, ?_, ?_⟩
  · refine List.Nodup.of_map place ?_
    have hplace : (s.redeemed.map fun r => r.2.mintedBy).map place =
        (s.redeemed.map Prod.fst).map Place.redeemed := by
      rw [List.map_map, List.map_map]
      exact List.map_congr_left fun r hr => (h.redeemed r hr).2.1
    rw [hplace]
    exact h.redeemedOnce.map fun m n hmn => Place.redeemed.inj hmn
  · -- Each check is paid for by a password check of its own.
    have hsub : (s.checks.map fun c => c.ticket.mintedBy) ⊆ s.passwords.map Prod.fst := by
      intro n hn
      obtain ⟨c, hc, rfl⟩ := List.mem_map.1 hn
      exact List.mem_map_of_mem (hminted c hc)
    have hle := (hdistinct.subperm hsub).length_le
    rwa [List.length_map, List.length_map] at hle

/-- **Tickets.** Each TOTP check consumes a ticket of its own, minted by a password step for
the account and the tenant it is made for. -/
theorem checks_accounted (h : (machine env).Reachable s) : Accounted s := by
  obtain ⟨place, hplace⟩ := traced h
  exact hplace.accounted

/-- Two logins for two accounts; the second ticket is redeemed, the first is lost under another
tenant, and a third request finds neither. -/
def redemptions : List Label :=
  [.password 0 (some (⟨some 5, 7⟩, true)), .password 1 (some (⟨some 6, 8⟩, true)), .mint 1 101,
    .mint 0 100, .getdel 2 (some 6) 101, .getdel 3 (some 6) 100, .check 3 true true,
    .getdel 4 (some 6) 101, .check 2 true true, .check 4 true true]

/-- No tickets yet. -/
def quiet : State where
  redis := Store.empty
  requests _ := none
  passwords := []
  redeemed := []
  checks := []

theorem redemptions_accounted :
    ∃ s, (machine ⟨id, 300⟩).Reachable s ∧ s.checks.length = 1 ∧ Accounted s := by
  obtain ⟨s, hs, hp⟩ := Machine.exists_reachable_of_run (M := machine ⟨id, 300⟩) (s := quiet)
    redemptions (fun s => s.checks.length = 1) ⟨rfl, rfl, rfl, rfl, rfl⟩ (by decide)
  exact ⟨s, hs, of_decide_eq_true hp, checks_accounted hs⟩

end Tickets

end Auth

end RealEstate
