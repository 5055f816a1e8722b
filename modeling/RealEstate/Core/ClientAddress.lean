import RealEstate.Core.Base
import RealEstate.Systems.IpAddress

/-!
# The client address (`core/rate_limit.py`)

`client_ip` on a request and on a raw ASGI scope. Header fields are bytes; a text
read from one is its Latin-1 decoding.

- `Unforgeable`: whatever else the caller sends, the address is the first of those
  the trusted proxies appended; from an untrusted peer the header has no effect;
  both lookups agree.
- `unforgeable_iff`: that holds if and only if every entry of the request stands
  on the first `X-Forwarded-For` line.
- `forged_address`: the caller's own line comes first.
-/

namespace RealEstate

namespace Core

namespace ClientAddress

open Systems IpAddress

/-- A `bytes`. -/
abbrev Bytes := List UInt8

/-- `value.decode("latin-1")`. -/
def decodeLatin1 (value : Bytes) : Text := value.map fun byte => Char.ofNat byte.toNat

/-- Text of a header, in bytes. -/
def encodeLatin1 (t : Text) : Bytes := t.map fun c => UInt8.ofNat c.toNat

/-- `b"x-forwarded-for"`. -/
def xForwardedFor : Bytes := encodeLatin1 "x-forwarded-for".toList

/-- The settings `client_ip` reads. -/
structure ProxySettings where
  trustedProxyCidrs : Text := []
  trustedProxyHops : Int := 1

/-- An ASGI scope: the socket peer, and the header fields in their order under lower-case
names. -/
structure Scope where
  client : Option Text
  headers : List (Bytes × Bytes)

/-- What `client_ip` is called with; a `Request` is a view of its scope. -/
inductive ScopeOrRequest where
  | scope (scope : Scope)
  | request (scope : Scope)

/-- `_trusted_networks`: entries that are no network are dropped. -/
def trustedNetworks (cidrs : Text) : List IpNetwork := (commaList cidrs).filterMap ipNetwork

/-- `_is_trusted_proxy`. -/
def isTrustedProxy (peer : Text) (networks : List IpNetwork) : Bool :=
  if networks.isEmpty then false
  else match ipAddress peer with
    | none => false
    | some address => networks.any (·.contains address.unwrap)

/-- `_forwarded_client`. -/
def forwardedClient (header : Text) (hops : Int) : Option Text :=
  let parts := commaList header
  let index : Int := parts.length - hops
  if index < 0 ∨ parts.length ≤ index then none
  else
    (parts[index.toNat]?).bind fun candidate =>
      if (ipAddress candidate).isSome then some candidate else none

/-- `request.headers.get("x-forwarded-for")`. -/
def headersGet : List (Bytes × Bytes) → Option Text
  | [] => none
  | (name, value) :: headers =>
    if name = xForwardedFor then some (decodeLatin1 value) else headersGet headers

/-- The loop over the headers of a scope, which breaks at the first match. -/
def scopeGet (headers : List (Bytes × Bytes)) : Option Text :=
  (headers.find? fun field => field.1 = xForwardedFor).map fun field => decodeLatin1 field.2

/-- `value or default`. -/
def orElse (value : Option Text) (default : Text) : Text :=
  match value with
  | some (c :: t) => c :: t
  | _ => default

/-- `client_ip`. -/
def clientIp (settings : ProxySettings) (scopeOrRequest : ScopeOrRequest) : Text :=
  let (peer, forwarded) := match scopeOrRequest with
    | .request r => (r.client.getD "unknown".toList, headersGet r.headers)
    | .scope r => (r.client.getD "unknown".toList, scopeGet r.headers)
  match forwarded with
  | none | some [] => peer
  | some forwarded =>
    if !isTrustedProxy peer (trustedNetworks settings.trustedProxyCidrs) then peer
    else orElse (forwardedClient forwarded settings.trustedProxyHops) peer

/-! ### The entries of a request -/

/-- The `X-Forwarded-For` lines of a request. -/
def forwardedLines (headers : List (Bytes × Bytes)) : List Text :=
  (headers.filter fun field => field.1 = xForwardedFor).map fun field => decodeLatin1 field.2

/-- An entry a proxy appends: an address, as header text. -/
structure ProxyEntry (a : Text) : Prop extends ListEntry a where
  latin1 : ∀ c ∈ a, c.toNat < 256
  address : (ipAddress a).isSome = true

/-- The entries of the trusted proxies: as many as there are hops. -/
structure Appended (settings : ProxySettings) (appended : List Text) : Prop where
  ne_nil : appended ≠ []
  hops : settings.trustedProxyHops = appended.length
  entry : ∀ a ∈ appended, ProxyEntry a

/-- The value of all lines together ends with what the proxies appended. What comes before is
the caller's. -/
def Arrives (appended : List Text) (r : Scope) : Prop :=
  appended <:+ commaList (join (forwardedLines r.headers))

/-- The peer lies in a trusted network. -/
def Trusted (settings : ProxySettings) (r : Scope) : Prop :=
  isTrustedProxy (r.client.getD "unknown".toList) (trustedNetworks settings.trustedProxyCidrs) =
    true

/-- A comparison. -/
instance (settings : ProxySettings) (r : Scope) : Decidable (Trusted settings r) :=
  inferInstanceAs (Decidable (_ = true))

/-- A caller that sends the later lines of `r` can put anything on the first one, and does not
change its address by that. -/
structure Unforgeable (settings : ProxySettings) (appended : List Text) (r : Scope) : Prop where
  trusted : ∀ r' : Scope, r'.client = r.client →
    (forwardedLines r'.headers).tail = (forwardedLines r.headers).tail → Arrives appended r' →
    appended.head? = some (clientIp settings (.request r'))
  untrusted : ∀ r' : Scope, ¬Trusted settings r' →
    clientIp settings (.request r') = r'.client.getD "unknown".toList
  paths : ∀ r' : Scope, clientIp settings (.scope r') = clientIp settings (.request r')

/-- No entry of the request stands below the first line. -/
def OnFirstLine (r : Scope) : Prop :=
  ∀ line ∈ (forwardedLines r.headers).tail, commaList line = []

/-- Over the lines. -/
instance (r : Scope) : Decidable (OnFirstLine r) :=
  inferInstanceAs (Decidable (∀ line ∈ (forwardedLines r.headers).tail, commaList line = []))

/-! ### The two lookups -/

/-- `Headers.get` is the first line. -/
theorem headersGet_eq (headers : List (Bytes × Bytes)) :
    headersGet headers = (forwardedLines headers).head? := by
  induction headers with
  | nil => rfl
  | cons field headers ih =>
    obtain ⟨name, value⟩ := field
    unfold headersGet forwardedLines
    by_cases hname : name = xForwardedFor
    · rw [if_pos hname, List.filter_cons_of_pos (by simpa using hname)]
      rfl
    · rw [if_neg hname, ih, List.filter_cons_of_neg (by simpa using hname)]
      rfl

/-- So is the lookup in a scope. -/
theorem scopeGet_eq (headers : List (Bytes × Bytes)) : scopeGet headers = headersGet headers := by
  induction headers with
  | nil => rfl
  | cons field headers ih =>
    obtain ⟨name, value⟩ := field
    unfold scopeGet headersGet
    by_cases hname : name = xForwardedFor
    · rw [if_pos hname, List.find?_cons_of_pos (by simpa using hname)]
      rfl
    · rw [if_neg hname, List.find?_cons_of_neg (by simpa using hname)]
      exact ih

theorem clientIp_scope (settings : ProxySettings) (r : Scope) :
    clientIp settings (.scope r) = clientIp settings (.request r) := by
  simp only [clientIp, scopeGet_eq]

/-- From an untrusted peer the header has no effect. -/
theorem clientIp_untrusted {settings : ProxySettings} {r : Scope} (h : ¬Trusted settings r) :
    clientIp settings (.request r) = r.client.getD "unknown".toList := by
  simp only [clientIp]
  split
  · rfl
  · rfl
  · rw [Bool.eq_false_iff.mpr h]
    rfl

/-! ### Counting from the right -/

/-- The entry with `hops - 1` entries to its right, if it is an address. -/
theorem forwardedClient_eq {header : Text} {hops : Int} {before after : List Text} {a : Text}
    (hparts : commaList header = before ++ a :: after) (hhops : hops = after.length + 1)
    (haddress : (ipAddress a).isSome = true) : forwardedClient header hops = some a := by
  have hlength : (commaList header).length = before.length + (after.length + 1) := by
    rw [hparts, List.length_append, List.length_cons]
  have hindex : ((commaList header).length : Int) - hops = before.length := by omega
  have hin : ¬((before.length : Int) < 0 ∨
      ((commaList header).length : Int) ≤ (before.length : Int)) := by omega
  simp only [forwardedClient, hindex]
  rw [if_neg hin, Int.toNat_natCast, hparts, List.getElem?_append_right (Nat.le_refl _),
    Nat.sub_self]
  exact if_pos haddress

theorem orElse_some {t : Text} (h : t ≠ []) (default : Text) : orElse (some t) default = t := by
  cases t with
  | nil => exact absurd rfl h
  | cons => rfl

/-- From a trusted peer, the first line alone decides. -/
theorem clientIp_of_firstLine {settings : ProxySettings} {r : Scope} (htrusted : Trusted settings r)
    {first : Text} (hfirst : (forwardedLines r.headers).head? = some first)
    {before after : List Text} {a : Text} (hparts : commaList first = before ++ a :: after)
    (hhops : settings.trustedProxyHops = after.length + 1) (hentry : ProxyEntry a) :
    clientIp settings (.request r) = a := by
  have hget : headersGet r.headers = some first := (headersGet_eq r.headers).trans hfirst
  cases first with
  | nil => simp [commaList, strip] at hparts
  | cons c t =>
    have htrusted : isTrustedProxy (r.client.getD "unknown".toList)
        (trustedNetworks settings.trustedProxyCidrs) = true := htrusted
    simp only [clientIp, hget, htrusted, forwardedClient_eq hparts hhops hentry.address]
    exact orElse_some hentry.ne_nil _

/-- The appended entries end the first line: the first of them is the client. -/
theorem clientIp_of_suffix {settings : ProxySettings} {appended : List Text}
    (hA : Appended settings appended) {r : Scope} (htrusted : Trusted settings r) {first : Text}
    (hfirst : (forwardedLines r.headers).head? = some first)
    (hsuffix : appended <:+ commaList first) :
    appended.head? = some (clientIp settings (.request r)) := by
  obtain ⟨caller, hcaller⟩ := hsuffix
  cases appended with
  | nil => exact absurd rfl hA.ne_nil
  | cons a rest =>
    have hhops : settings.trustedProxyHops = rest.length + 1 := hA.hops
    rw [clientIp_of_firstLine htrusted hfirst hcaller.symm hhops
      (hA.entry a List.mem_cons_self)]
    rfl

/-! ### Requests a caller can send -/

theorem decodeLatin1_encodeLatin1 {t : Text} (h : ∀ c ∈ t, c.toNat < 256) :
    decodeLatin1 (encodeLatin1 t) = t := by
  unfold decodeLatin1 encodeLatin1
  rw [List.map_map]
  refine (List.map_congr_left fun c hc => ?_).trans (List.map_id t)
  show Char.ofNat (UInt8.ofNat c.toNat).toNat = c
  rw [UInt8.toNat_ofNat_of_lt' (h c hc), Char.ofNat_toNat]

/-- The request with another first line. -/
def withFirstLine (r : Scope) (first : Text) : Scope where
  client := r.client
  headers := (xForwardedFor, encodeLatin1 first) ::
    (r.headers.filter fun field => field.1 = xForwardedFor).tail

/-- A request with another first line. -/
theorem forwardedLines_withFirstLine (r : Scope) {first : Text}
    (h : ∀ c ∈ first, c.toNat < 256) :
    forwardedLines (withFirstLine r first).headers =
      first :: (forwardedLines r.headers).tail := by
  have hall : ∀ field ∈ (r.headers.filter fun field => field.1 = xForwardedFor).tail,
      decide (field.1 = xForwardedFor) = true := fun field hfield =>
    (List.mem_filter.mp (List.mem_of_mem_tail hfield)).2
  unfold forwardedLines withFirstLine
  rw [List.filter_cons_of_pos (by simp), List.filter_eq_self.mpr hall, List.map_cons,
    decodeLatin1_encodeLatin1 h, List.map_tail]

/-- An address of the caller's choice other than `a`. -/
def fake (a : Text) : Text := if a = "1.1.1.1".toList then "2.2.2.2".toList else "1.1.1.1".toList

theorem fake_ne (a : Text) : fake a ≠ a := by
  unfold fake
  split
  · next h =>
    subst h
    decide
  · next h => exact fun heq => h heq.symm

/-- An entry, one character after the other. -/
theorem proxyEntry_of_all {a : Text} (hne : a ≠ [])
    (hchars : (a.all fun c => c ≠ ',' && !isSpace c && c.toNat < 256) = true)
    (haddress : (ipAddress a).isSome = true) : ProxyEntry a := by
  have hchar : ∀ c ∈ a, c ≠ ',' ∧ isSpace c = false ∧ c.toNat < 256 := by
    intro c hc
    have h := List.all_eq_true.mp hchars c hc
    simpa [and_assoc] using h
  constructor
  · constructor
    · exact hne
    · exact fun hmem => (hchar _ hmem).1 rfl
    · exact fun c hc => (hchar c hc).2.1
  · exact fun c hc => (hchar c hc).2.2
  · exact haddress

/-- An address that a client makes up looks like any other. -/
theorem proxyEntry_fake (a : Text) : ProxyEntry (fake a) := by
  unfold fake
  split <;>
    exact proxyEntry_of_all (by decide) (by decide) (by decide)

/-! ### When the address cannot be forged -/

/-- What is missing of a suffix to the left of a list. -/
theorem suffix_take_append {α : Type} {l x y : List α} (h : l <:+ x ++ y) :
    l <:+ l.take (l.length - y.length) ++ y := by
  rcases Nat.le_total l.length y.length with hle | hle
  · rw [Nat.sub_eq_zero_of_le hle, List.take_zero, List.nil_append]
    exact List.suffix_of_suffix_length_le h (List.suffix_append x y) hle
  · obtain ⟨t, rfl⟩ := List.suffix_of_suffix_length_le (List.suffix_append x y) h hle
    refine ⟨[], ?_⟩
    rw [List.length_append, Nat.add_sub_cancel, List.take_left, List.nil_append]

/-- A first line that pushes an address of the caller to the place that counts, since some of
the appended entries stand below it. -/
def forgedEntries (appended later : List Text) : List Text :=
  let kept := appended.take (appended.length - later.length)
  List.replicate (appended.length - kept.length) (fake (appended.headD [])) ++ kept

section Forged

variable {settings : ProxySettings} {appended later : List Text}

/-- So do all of its entries. -/
theorem proxyEntry_forged (hA : Appended settings appended) :
    ∀ t ∈ forgedEntries appended later, ProxyEntry t := by
  intro t ht
  rcases List.mem_append.mp ht with ht | ht
  · rw [List.eq_of_mem_replicate ht]
    exact proxyEntry_fake _
  · exact hA.entry t (List.mem_of_mem_take ht)

/-- They are split again as they were joined. -/
theorem commaList_forged (hA : Appended settings appended) :
    commaList (join (forgedEntries appended later)) = forgedEntries appended later :=
  commaList_of_entries fun t ht => (proxyEntry_forged hA t ht).toListEntry

theorem latin1_forged (hA : Appended settings appended) :
    ∀ c ∈ join (forgedEntries appended later), c.toNat < 256 := by
  intro c hc
  rcases mem_join hc with rfl | ⟨t, ht, hct⟩
  · decide
  · exact (proxyEntry_forged hA t ht).latin1 c hct

/-- The fake address has `hops - 1` entries to its right. -/
theorem forgedEntries_eq (hlater : later ≠ []) {a : Text} {rest : List Text}
    (happended : appended = a :: rest) :
    ∃ after, forgedEntries appended later = [] ++ fake a :: after ∧
      after.length = rest.length := by
  have hpos : 0 < later.length := List.length_pos_iff.mpr hlater
  have hlength : appended.length = rest.length + 1 := by rw [happended, List.length_cons]
  have hkept : (appended.take (appended.length - later.length)).length =
      appended.length - later.length := by
    rw [List.length_take]
    omega
  obtain ⟨n, hn⟩ : ∃ n, appended.length -
      (appended.take (appended.length - later.length)).length = n + 1 :=
    ⟨appended.length - (appended.take (appended.length - later.length)).length - 1, by omega⟩
  have hhead : appended.headD [] = a := by rw [happended]; rfl
  refine ⟨List.replicate n (fake a) ++ appended.take (appended.length - later.length), ?_, ?_⟩
  · show List.replicate _ _ ++ _ = _
    rw [hn, hhead, List.replicate_succ]
    rfl
  · rw [List.length_append, List.length_replicate, hkept]
    omega

end Forged

/-- The first line, and the rest of them. -/
theorem commaList_lines {r : Scope} {first : Text} (hfirst :
    (forwardedLines r.headers).head? = some first) :
    commaList (join (forwardedLines r.headers)) =
      commaList first ++ (forwardedLines r.headers).tail.flatMap commaList := by
  rw [commaList_join, ← List.cons_head?_tail (Option.mem_def.mpr hfirst), List.flatMap_cons,
    List.tail_cons]

/-- **The address cannot be forged if and only if every entry stands on the first line.** -/
theorem unforgeable_iff {settings : ProxySettings} {appended : List Text}
    (hA : Appended settings appended) {r : Scope} (htrusted : Trusted settings r)
    (harrives : Arrives appended r) : Unforgeable settings appended r ↔ OnFirstLine r := by
  have hline : ∀ {r' : Scope}, Arrives appended r' →
      ∃ first, (forwardedLines r'.headers).head? = some first := by
    intro r' harr
    cases hlines : forwardedLines r'.headers with
    | nil =>
      rw [Arrives, hlines] at harr
      exact absurd (List.suffix_nil.mp harr) hA.ne_nil
    | cons first later => exact ⟨first, rfl⟩
  constructor
  · intro h line hline'
    by_contra hne
    obtain ⟨first, hfirst⟩ := hline harrives
    obtain ⟨a, rest, happended⟩ := List.exists_cons_of_ne_nil hA.ne_nil
    have hlater : (forwardedLines r.headers).tail.flatMap commaList ≠ [] := fun hnil =>
      hne (List.flatMap_eq_nil_iff.mp hnil line hline')
    -- The request with a forged first line is one the caller can send.
    let forged := join (forgedEntries appended
      ((forwardedLines r.headers).tail.flatMap commaList))
    have hlines : forwardedLines (withFirstLine r forged).headers =
        forged :: (forwardedLines r.headers).tail :=
      forwardedLines_withFirstLine r (latin1_forged hA)
    have harr : Arrives appended (withFirstLine r forged) := by
      rw [Arrives, hlines, commaList_join, List.flatMap_cons, commaList_forged hA]
      rw [Arrives, commaList_lines hfirst] at harrives
      show appended <:+ (List.replicate _ _ ++ _) ++ _
      rw [List.append_assoc]
      exact List.suffix_append_of_suffix (suffix_take_append harrives)
    have htail : (forwardedLines (withFirstLine r forged).headers).tail =
        (forwardedLines r.headers).tail := by rw [hlines, List.tail_cons]
    have haddress := h.trusted (withFirstLine r forged) rfl htail harr
    obtain ⟨after, hforged, hlength⟩ := forgedEntries_eq hlater happended
    have hhops : settings.trustedProxyHops = after.length + 1 := by
      rw [hA.hops, hlength, happended]
      rfl
    have htrusted' : Trusted settings (withFirstLine r forged) := htrusted
    have hfirst' : (forwardedLines (withFirstLine r forged).headers).head? = some forged := by
      rw [hlines]
      rfl
    have hfake : clientIp settings (.request (withFirstLine r forged)) = fake a :=
      clientIp_of_firstLine htrusted' hfirst' ((commaList_forged hA).trans hforged) hhops
        (proxyEntry_fake a)
    rw [hfake, happended] at haddress
    exact fake_ne a (Option.some.inj haddress).symm
  · intro h
    refine ⟨fun r' hclient htail harr => ?_, fun r' => clientIp_untrusted,
      clientIp_scope settings⟩
    obtain ⟨first, hfirst⟩ := hline harr
    refine clientIp_of_suffix hA ?_ hfirst ?_
    · rw [Trusted, hclient]
      exact htrusted
    · have hnil : (forwardedLines r'.headers).tail.flatMap commaList = [] := by
        rw [htail]
        exact List.flatMap_eq_nil_iff.mpr h
      rw [Arrives, commaList_lines hfirst, hnil, List.append_nil] at harr
      exact harr

/-! ### Two lines behind one proxy -/

/-- One proxy, in the network of the containers. -/
def oneProxy : ProxySettings where
  trustedProxyCidrs := "172.16.0.0/12".toList

/-- A request the proxy passed on, with these `X-Forwarded-For` lines. -/
def passedOn (lines : List String) : Scope where
  client := some "172.18.0.2".toList
  headers := (encodeLatin1 "host".toList, encodeLatin1 "a".toList) ::
    lines.map fun line => (xForwardedFor, encodeLatin1 line.toList)

theorem appended_oneProxy : Appended oneProxy ["5.6.7.8".toList] where
  ne_nil := by simp
  hops := rfl
  entry := by
    intro a ha
    obtain rfl := List.mem_singleton.mp ha
    exact proxyEntry_of_all (by decide) (by decide) (by decide)

/-- A request with one line: nothing the caller writes there matters. -/
theorem unforgeable_one_line : Unforgeable oneProxy ["5.6.7.8".toList]
    (passedOn ["1.2.3.4, , unknown, 5.6.7.8"]) :=
  (unforgeable_iff appended_oneProxy (by decide)
    ⟨["1.2.3.4".toList, "unknown".toList], by decide⟩).mpr (by decide)

/-- **A forged address.** The proxy appended its line to the caller's, and the caller's comes
first. -/
theorem forged_address : Appended oneProxy ["5.6.7.8".toList] ∧
    Trusted oneProxy (passedOn ["1.2.3.4", "5.6.7.8"]) ∧
    Arrives ["5.6.7.8".toList] (passedOn ["1.2.3.4", "5.6.7.8"]) ∧
    clientIp oneProxy (.request (passedOn ["1.2.3.4", "5.6.7.8"])) = "1.2.3.4".toList ∧
    ¬Unforgeable oneProxy ["5.6.7.8".toList] (passedOn ["1.2.3.4", "5.6.7.8"]) := by
  have harrives : Arrives ["5.6.7.8".toList] (passedOn ["1.2.3.4", "5.6.7.8"]) :=
    ⟨["1.2.3.4".toList], by decide⟩
  refine ⟨appended_oneProxy, by decide, harrives, by decide, fun h => ?_⟩
  have haddress := h.trusted _ rfl rfl harrives
  revert haddress
  decide

end ClientAddress

end Core

end RealEstate
