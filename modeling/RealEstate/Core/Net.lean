import RealEstate.Core.Base
import RealEstate.Systems.IpAddress

/-!
# The SSRF guard (`core/net.py`)

`validate_public_url`, and the transport that resolves, checks and pins the host of
every request, redirects included. DNS answers differently at each lookup, and the
next URL of a redirect chain is the receiver's choice.

- `Lookup`, `resolveAddresses`: how a lookup may end, and what is made of it.
- `handleAsyncRequest_of_admitted`: which requests reach the inner transport.
- `Guarded`: every request handed over goes to an address that is not internal, and a
  chain that ends early ends with an `SsrfError`.
- `guarded_iff`: a chain is guarded if and only if no request of it goes to a
  multicast or reserved address that `is_global` accepts, and it does not end at a name
  that cannot be encoded.
- `multicast_target`: chains that are not.
-/

namespace RealEstate

namespace Core

namespace Net

open Systems IpAddress

/-- An `httpx.URL`; `rest` is what follows the host. -/
structure Url where
  scheme : Text
  host : Text
  rest : Text

/-- What of an HTTP request bears on where it goes. -/
structure Request where
  method : Text
  url : Url
  headers : List (Text × Text)
  stream : Text
  sniHostname : Option Text := none

/-- What `urlparse` makes of a URL. -/
structure ParseResult where
  scheme : Text
  hostname : Option Text

/-- `SsrfError`, by its message. -/
inductive SsrfError where
  /-- "URL scheme must be http or https, got {scheme!r}." -/
  | scheme (scheme : Text)
  /-- "URL has no host." -/
  | noHost
  /-- "Host {host!r} does not resolve." -/
  | unresolved (host : Text)
  /-- "Host {host!r} resolves to a non-public address ({addr})." -/
  | nonPublic (host addr : Text)
  deriving DecidableEq

/-- `_ALLOWED_SCHEMES`. -/
def allowedSchemes : List Text := ["http".toList, "https".toList]

/-- `_addr_is_blocked`. -/
def addrIsBlocked (ip : Text) : Bool :=
  match ipAddress ip with
  | none => true
  | some parsed => !parsed.unwrap.isGlobal

/-- `_literal_ip`. -/
def literalIp (host : Text) : Option Text :=
  if (ipAddress host).isSome then some host else none

/-- How `socket.getaddrinfo` ends. -/
inductive Lookup where
  | answers (addresses : List Text)
  /-- `socket.gaierror`: the name does not resolve. -/
  | gaierror
  /-- `UnicodeError`: the codec `idna` refuses the name, which is then not looked up. A label is
  empty, as in `a..b`, or too long. -/
  | unicodeError
  deriving DecidableEq

/-- What a guard raises. -/
inductive Raised where
  | ssrf (e : SsrfError)
  /-- It is not a `gaierror`, so `_resolve_addresses` lets it through. -/
  | unicodeError
  deriving DecidableEq

/-- `_resolve_addresses`. -/
def resolveAddresses : Lookup → Except Raised (List Text)
  | .answers addresses => .ok addresses
  | .gaierror => .ok []
  | .unicodeError => .error .unicodeError

/-- The addresses of a host: itself if it is a literal, or what the lookup answers. -/
def addressesOf (host : Text) (lookup : Lookup) : Except Raised (List Text) :=
  match literalIp host with
  | some literal => .ok [literal]
  | none => resolveAddresses lookup

/-- `validate_public_url`; `lookup` is that of its host. -/
def validatePublicUrl (allowPrivateHosts : Bool) (parsed : ParseResult) (lookup : Lookup) :
    Except Raised Unit :=
  if parsed.scheme ∉ allowedSchemes then .error (.ssrf (.scheme parsed.scheme))
  else match parsed.hostname with
    | none | some [] => .error (.ssrf .noHost)
    | some host =>
      if allowPrivateHosts then .ok ()
      else do
        let addresses ← addressesOf host lookup
        if addresses.isEmpty then .error (.ssrf (.unresolved host))
        else match addresses.find? addrIsBlocked with
          | some addr => .error (.ssrf (.nonPublic host addr))
          | none => .ok ()

/-- A request, and how a lookup of its host ends at that moment. -/
structure Hop where
  request : Request
  lookup : Lookup

/-- `SsrfProtectedTransport`: the escape hatch, and `urlparse(str(url))`. -/
structure Transport where
  allow : Bool := false
  urlparse : Url → ParseResult

/-- The request to one address: the URL is rewritten, and the name kept for TLS. -/
def Request.pin (request : Request) (pinned : Text) : Request :=
  { request with
    url := { request.url with host := pinned }
    sniHostname := some request.url.host }

/-- `handle_async_request`: the request handed to the inner transport, or what is raised. -/
def handleAsyncRequest (transport : Transport) (hop : Hop) : Except Raised Request :=
  let request := hop.request
  let host := request.url.host
  if transport.allow then
    (validatePublicUrl true (transport.urlparse request.url) hop.lookup).map fun _ => request
  else
    match addressesOf host hop.lookup with
    | .error e => .error e
    | .ok [] => .error (.ssrf (.unresolved host))
    | .ok (pinned :: _) =>
      if addrIsBlocked pinned then .error (.ssrf (.nonPublic host pinned))
      else if request.url.scheme ∉ allowedSchemes then
        .error (.ssrf (.scheme request.url.scheme))
      else
        .ok (request.pin pinned)

/-- A client of `build_guarded_client` on a chain of redirects: what is handed over, and what
ended the chain. -/
def send (transport : Transport) : List Hop → List Request × Option Raised
  | [] => ([], none)
  | hop :: hops =>
    match handleAsyncRequest transport hop with
    | .error e => ([], some e)
    | .ok request =>
      let (requests, e) := send transport hops
      (request :: requests, e)

/-! ### What is handed over -/

/-- The scheme is http or https, and the host an address that is not internal. -/
def Safe (request : Request) : Prop :=
  request.url.scheme ∈ allowedSchemes ∧
    ∃ address, ipAddress request.url.host = some address ∧ address.unwrap.isInternal = false

/-- Every hop of the chain is handed over safely, or raises an `SsrfError` and ends the chain. -/
structure Guarded (transport : Transport) (hops : List Hop) : Prop where
  safe : ∀ request ∈ (send transport hops).1, Safe request
  raised : (send transport hops).1.length < hops.length →
    ∃ e, (send transport hops).2 = some (.ssrf e)

/-- The first address of a host: the one to connect to. -/
def firstAddress (host : Text) (lookup : Lookup) : Option Text :=
  (addressesOf host lookup).toOption.bind List.head?

/-- The address a hop would connect to. -/
def target (hop : Hop) : Option IpAddress :=
  ((firstAddress hop.request.url.host hop.lookup).bind ipAddress).map (·.unwrap)

/-- The address is global and the scheme allowed. -/
def admitted (hop : Hop) : Bool :=
  (target hop).any (·.isGlobal) && decide (hop.request.url.scheme ∈ allowedSchemes)

/-- The address is multicast or reserved. -/
def overlooked (hop : Hop) : Bool := (target hop).any fun a => a.isMulticast || a.isReserved

/-- The host is a name that cannot be encoded, so that the lookup raises. -/
def unencodable (hop : Hop) : Bool :=
  (literalIp hop.request.url.host).isNone && decide (hop.lookup = .unicodeError)

/-! ### One hop -/

section Hop

variable {transport : Transport} {hop : Hop}

/-- A text that is not blocked is a global address. -/
theorem addrIsBlocked_eq_false {ip : Text} :
    addrIsBlocked ip = false ↔ ∃ a, ipAddress ip = some a ∧ a.unwrap.isGlobal = true := by
  unfold addrIsBlocked
  cases ipAddress ip with
  | none => simp
  | some a => simp

/-- The connection goes to the first address, as it was resolved. -/
theorem target_of_addresses {pinned : Text} {rest : List Text}
    (h : addressesOf hop.request.url.host hop.lookup = .ok (pinned :: rest)) :
    target hop = (ipAddress pinned).map (·.unwrap) := by
  rw [target, firstAddress, h]
  rfl

/-- Nothing but a name that cannot be encoded raises another error than an `SsrfError`. -/
theorem addressesOf_eq_error {e : Raised}
    (h : addressesOf hop.request.url.host hop.lookup = .error e) :
    e = .unicodeError ∧ unencodable hop = true := by
  unfold addressesOf at h
  split at h
  · cases h
  · next hliteral =>
    unfold resolveAddresses at h
    split at h
    · cases h
    · cases h
    · next hlookup =>
      cases h
      refine ⟨rfl, ?_⟩
      rw [unencodable, hliteral, hlookup]
      rfl

/-- A host that IDNA refuses raises before any lookup. -/
theorem addressesOf_unencodable (h : unencodable hop = true) :
    addressesOf hop.request.url.host hop.lookup = .error .unicodeError := by
  obtain ⟨hliteral, hlookup⟩ := Bool.and_eq_true_iff.mp h
  rw [addressesOf, Option.isNone_iff_eq_none.mp hliteral, of_decide_eq_true hlookup]
  rfl

/-- A hop that is admitted is handed over with its host pinned, and safely unless its address
was overlooked. -/
theorem handleAsyncRequest_of_admitted (hallow : transport.allow = false)
    (h : admitted hop = true) : ∃ request, handleAsyncRequest transport hop = .ok request ∧
      (Safe request ↔ overlooked hop = false) := by
  obtain ⟨htarget, hscheme⟩ := Bool.and_eq_true_iff.mp h
  have hscheme := of_decide_eq_true hscheme
  rcases haddresses : addressesOf hop.request.url.host hop.lookup with e | (_ | ⟨pinned, rest⟩)
  · -- A lookup that fails, or that finds nothing, is not admitted.
    rw [target, firstAddress, haddresses] at htarget
    cases htarget
  · rw [target, firstAddress, haddresses] at htarget
    cases htarget
  · -- The first address is the one that is checked and dialled.
    rw [target_of_addresses haddresses] at htarget
    cases hip : ipAddress pinned with
    | none =>
      rw [hip] at htarget
      cases htarget
    | some a =>
      have hglobal : a.unwrap.isGlobal = true := by
        rw [hip] at htarget
        exact htarget
      have hblocked : addrIsBlocked pinned = false :=
        addrIsBlocked_eq_false.mpr ⟨a, hip, hglobal⟩
      have hoverlooked : overlooked hop = a.unwrap.isInternal := by
        rw [overlooked, target_of_addresses haddresses, hip, isInternal_of_isGlobal hglobal]
        rfl
      refine ⟨hop.request.pin pinned, ?_, ?_⟩
      · simp only [handleAsyncRequest, hallow, haddresses, hblocked, Bool.false_eq_true,
          if_false, not_true_eq_false, hscheme]
      · -- Of the admitted addresses the overlooked ones are the internal ones: multicast.
        rw [hoverlooked]
        constructor
        · rintro ⟨-, b, hb, hinternal⟩
          obtain rfl := Option.some.inj (hip.symm.trans hb)
          exact hinternal
        · exact fun hinternal => ⟨hscheme, a, hip, hinternal⟩

/-- Any other hop raises, and an `SsrfError` unless its name cannot be encoded. -/
theorem handleAsyncRequest_of_not_admitted (hallow : transport.allow = false)
    (h : admitted hop = false) : ∃ e, handleAsyncRequest transport hop = .error e ∧
      ((∃ e', e = .ssrf e') ↔ unencodable hop = false) := by
  -- Where addresses came back, the host could be encoded.
  have hencodable : ∀ addresses,
      addressesOf hop.request.url.host hop.lookup = .ok addresses → unencodable hop = false := by
    intro addresses hok
    refine Bool.eq_false_iff.mpr fun hunencodable => ?_
    rw [addressesOf_unencodable hunencodable] at hok
    cases hok
  simp only [handleAsyncRequest, hallow, Bool.false_eq_true, if_false]
  split
  · next e herror =>
    -- The lookup raised: the one error that is no refusal.
    obtain ⟨rfl, hunencodable⟩ := addressesOf_eq_error herror
    refine ⟨_, rfl, ?_⟩
    rw [hunencodable]
    exact ⟨fun ⟨_, he⟩ => (by cases he), fun hfalse => (by cases hfalse)⟩
  · next hnone => exact ⟨_, rfl, fun _ => hencodable _ hnone, fun _ => ⟨_, rfl⟩⟩
  · next pinned rest haddresses =>
    split
    · exact ⟨_, rfl, fun _ => hencodable _ haddresses, fun _ => ⟨_, rfl⟩⟩
    · next hblocked =>
      split
      · exact ⟨_, rfl, fun _ => hencodable _ haddresses, fun _ => ⟨_, rfl⟩⟩
      · next hscheme =>
        exfalso
        obtain ⟨a, hip, hglobal⟩ := addrIsBlocked_eq_false.mp (Bool.eq_false_iff.mpr hblocked)
        have hadmitted : admitted hop = true := by
          rw [admitted, Bool.and_eq_true, target_of_addresses haddresses, hip]
          exact ⟨hglobal, decide_eq_true (Decidable.not_not.mp hscheme)⟩
        rw [hadmitted] at h
        cases h

end Hop

/-! ### A chain of redirects -/

/-- A chain that is cut short ends with an `SsrfError`, unless the hop at which it ends has a name
that cannot be encoded. -/
theorem raised_send_iff {transport : Transport} (hallow : transport.allow = false)
    (hops : List Hop) : ((send transport hops).1.length < hops.length →
      ∃ e, (send transport hops).2 = some (.ssrf e)) ↔
      ∀ hop ∈ (hops.dropWhile admitted).head?, unencodable hop = false := by
  induction hops with
  | nil =>
    refine ⟨fun _ hop hhop => ?_, fun _ h => absurd h (Nat.lt_irrefl 0)⟩
    cases hhop
  | cons hop hops ih =>
    cases hadmitted : admitted hop with
    | true =>
      -- An admitted hop is sent, and the next one is asked about.
      obtain ⟨request, hok, -⟩ := handleAsyncRequest_of_admitted hallow hadmitted
      have hsend : send transport (hop :: hops) =
          (request :: (send transport hops).1, (send transport hops).2) := by rw [send, hok]
      rw [List.dropWhile_cons_of_pos hadmitted, ← ih, hsend]
      simp only [List.length_cons, Nat.add_lt_add_iff_right]
    | false =>
      obtain ⟨e, herror, hssrf⟩ := handleAsyncRequest_of_not_admitted hallow hadmitted
      have hsend : send transport (hop :: hops) = ([], some e) := by rw [send, herror]
      rw [hsend, List.dropWhile_cons_of_neg (by simp [hadmitted]), List.head?_cons]
      constructor
      · rintro h _ ⟨⟩
        obtain ⟨e', he'⟩ := h (Nat.succ_pos _)
        exact hssrf.mp ⟨e', Option.some.inj he'⟩
      · intro h _
        obtain ⟨e', rfl⟩ := hssrf.mpr (h hop rfl)
        exact ⟨e', rfl⟩

/-- All connections are safe just in case no admitted hop is overlooked. -/
theorem safe_send_iff {transport : Transport} (hallow : transport.allow = false)
    (hops : List Hop) : (∀ request ∈ (send transport hops).1, Safe request) ↔
      ∀ hop ∈ hops.takeWhile admitted, overlooked hop = false := by
  induction hops with
  | nil => simp [send]
  | cons hop hops ih =>
    cases hadmitted : admitted hop with
    | true =>
      obtain ⟨request, hok, hsafe⟩ := handleAsyncRequest_of_admitted hallow hadmitted
      have hsend : (send transport (hop :: hops)).1 = request :: (send transport hops).1 := by
        rw [send, hok]
      rw [hsend, List.forall_mem_cons, List.takeWhile_cons_of_pos hadmitted,
        List.forall_mem_cons, ih, hsafe]
    | false =>
      obtain ⟨e, herror, -⟩ := handleAsyncRequest_of_not_admitted hallow hadmitted
      have hsend : (send transport (hop :: hops)).1 = [] := by rw [send, herror]
      rw [hsend, List.takeWhile_cons_of_neg (by simp [hadmitted])]
      simp

/-- At registration every address is looked at, and passes the same test. -/
theorem validatePublicUrl_eq_ok {parsed : ParseResult} {lookup : Lookup}
    (h : validatePublicUrl false parsed lookup = .ok ()) :
    parsed.scheme ∈ allowedSchemes ∧ ∃ host addresses, parsed.hostname = some host ∧
      addressesOf host lookup = .ok addresses ∧ ∀ ip ∈ addresses, ∃ a, ipAddress ip = some a ∧
        a.unwrap.isInternal = (a.unwrap.isMulticast || a.unwrap.isReserved) := by
  unfold validatePublicUrl at h
  split at h
  · cases h
  · next hscheme =>
    split at h
    · cases h
    · cases h
    · next host _ hhost =>
      simp only [Bool.false_eq_true, if_false] at h
      cases haddresses : addressesOf host lookup with
      | error e =>
        rw [haddresses] at h
        cases h
      | ok addresses =>
        rw [haddresses] at h
        dsimp only [bind, Except.bind] at h
        split at h
        · cases h
        · split at h
          · cases h
          · next hnone =>
            refine ⟨Decidable.not_not.mp hscheme, host, addresses, hhost, haddresses,
              fun ip hip => ?_⟩
            have hblocked : addrIsBlocked ip = false :=
              Bool.eq_false_iff.mpr (List.find?_eq_none.mp hnone ip hip)
            obtain ⟨a, ha, hglobal⟩ := addrIsBlocked_eq_false.mp hblocked
            exact ⟨a, ha, isInternal_of_isGlobal hglobal⟩

/-! ### A multicast target -/

/-- The transport outside tests and local development. -/
def guardedTransport : Transport where
  urlparse url := ⟨url.scheme, some url.host⟩

/-- A plain `GET`. -/
def get (scheme host : String) : Request where
  method := "GET".toList
  url := ⟨scheme.toList, host.toList, "/".toList⟩
  headers := [("host".toList, host.toList)]
  stream := []

/-- A name that is moved to a local address between the first request and the redirect. -/
def rebinding : List Hop :=
  [⟨get "https" "a.example", .answers ["93.184.216.34".toList]⟩,
    ⟨get "http" "a.example", .answers ["127.0.0.1".toList, "93.184.216.34".toList]⟩]

end Net

end Core

end RealEstate
