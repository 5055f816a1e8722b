import Mathlib.Algebra.Group.Nat.Defs
import RealEstate.Systems.Text

/-!
# IP addresses

`ip_address`, `ip_network` and the classes of addresses of Python's `ipaddress`
module (3.13).

- `Network.contains`: the first `prefixlen` bits agree. `Network.within` and
  `Network.apart` compare whole networks.
- `ipAddress`, `ipNetwork`: what the two constructors accept. An IPv6 address may
  carry a zone, any text without `%` and `/`.
- `isGlobal` and the other classes. `isInternal_of_isGlobal`: of the classes that
  are not for the public internet, only multicast and the reserved IPv6 ranges
  have global addresses.
-/

namespace RealEstate

namespace Systems

/-- The addresses that agree with one address in their first bits. -/
structure Network (w : Nat) where
  address : BitVec w
  prefixlen : Nat
  prefixlen_le : prefixlen ≤ w := by decide

namespace Network

variable {w : Nat} (net net' : Network w)

/-- `ip in network`. -/
def contains (ip : BitVec w) : Bool :=
  ip >>> (w - net.prefixlen) == net.address >>> (w - net.prefixlen)

theorem contains_iff {ip : BitVec w} : net.contains ip = true ↔
    ip.toNat / 2 ^ (w - net.prefixlen) = net.address.toNat / 2 ^ (w - net.prefixlen) := by
  rw [contains, beq_iff_eq, ← BitVec.toNat_inj, BitVec.toNat_ushiftRight,
    BitVec.toNat_ushiftRight, Nat.shiftRight_eq_div_pow, Nat.shiftRight_eq_div_pow]

/-- `net` is a subnet of `net'`. -/
def within : Bool := decide (net'.prefixlen ≤ net.prefixlen) && net'.contains net.address

/-- No address is in both. -/
def apart : Bool := !net.contains net'.address && !net'.contains net.address

/-- Fewer bits agree where more do. -/
theorem div_eq_of_le {x y m n : Nat} (hmn : m ≤ n) (h : x / 2 ^ m = y / 2 ^ m) :
    x / 2 ^ n = y / 2 ^ n := by
  obtain ⟨k, rfl⟩ := Nat.exists_eq_add_of_le hmn
  rw [Nat.pow_add, ← Nat.div_div_eq_div_mul, ← Nat.div_div_eq_div_mul, h]

variable {net net'} {ip : BitVec w}

theorem contains_of_within (h : net.within net' = true) (hip : net.contains ip = true) :
    net'.contains ip = true := by
  obtain ⟨hle, hin⟩ := Bool.and_eq_true_iff.mp h
  rw [contains_iff] at hip hin ⊢
  have hle : w - net.prefixlen ≤ w - net'.prefixlen := by
    have := of_decide_eq_true hle
    omega
  exact (div_eq_of_le hle hip).trans hin

/-- A network holds the address of any narrower one it meets. -/
theorem contains_address (hle : net'.prefixlen ≤ net.prefixlen) (h : net.contains ip = true)
    (h' : net'.contains ip = true) : net'.contains net.address = true := by
  rw [contains_iff] at h h' ⊢
  have hle : w - net.prefixlen ≤ w - net'.prefixlen := by omega
  exact (div_eq_of_le hle h).symm.trans h'

theorem not_contains_of_apart (h : net.apart net' = true) (hip : net.contains ip = true) :
    net'.contains ip = false := by
  rw [Bool.eq_false_iff]
  intro hip'
  simp only [apart, Bool.and_eq_true, Bool.not_eq_true'] at h
  rcases Nat.le_total net'.prefixlen net.prefixlen with hle | hle
  · rw [contains_address hle hip hip'] at h
    exact absurd h.2 (by decide)
  · rw [contains_address hle hip' hip] at h
    exact absurd h.1 (by decide)

end Network

/-- An `IPv4Address` or `IPv6Address`. -/
inductive IpAddress where
  | v4 (ip : BitVec 32)
  | v6 (ip : BitVec 128) (zone : Option Text)
  deriving DecidableEq

/-- An `IPv4Network` or `IPv6Network`. -/
inductive IpNetwork where
  | v4 (net : Network 32)
  | v6 (net : Network 128)

/-- `address in network`. -/
def IpNetwork.contains : IpNetwork → IpAddress → Bool
  | .v4 net, .v4 ip => net.contains ip
  | .v6 net, .v6 ip _ => net.contains ip
  | _, _ => false

namespace IpAddress

/-! ### Reading addresses -/

/-- An ASCII digit. -/
def isDigit (c : Char) : Bool := '0' ≤ c ∧ c ≤ '9'

/-- The value of a hexadecimal digit. -/
def hexValue (c : Char) : Option Nat :=
  if '0' ≤ c ∧ c ≤ '9' then some (c.toNat - '0'.toNat)
  else if 'a' ≤ c ∧ c ≤ 'f' then some (c.toNat - 'a'.toNat + 10)
  else if 'A' ≤ c ∧ c ≤ 'F' then some (c.toNat - 'A'.toNat + 10)
  else none

/-- `int(digits)`, of decimal digits. -/
def decimal (digits : Text) : Nat :=
  digits.foldl (fun n c => 10 * n + (c.toNat - '0'.toNat)) 0

/-- `_parse_octet`. -/
def parseOctet (t : Text) : Option (BitVec 32) :=
  if t = [] ∨ !t.all isDigit ∨ 3 < t.length ∨ (t ≠ ['0'] ∧ t.head? = some '0') then none
  else if 255 < decimal t then none
  else some (BitVec.ofNat 32 (decimal t))

/-- `_parse_hextet`. -/
def parseHextet (t : Text) : Option (BitVec 128) :=
  if t = [] ∨ 4 < t.length then none
  else
    (t.mapM hexValue).map fun digits => BitVec.ofNat 128 (digits.foldl (fun n d => 16 * n + d) 0)

/-- `_BaseV4._ip_int_from_string`. -/
def ipv4FromString (t : Text) : Option (BitVec 32) :=
  let octets := t.splitOn '.'
  if octets.length ≠ 4 then none
  else (octets.mapM parseOctet).map fun bytes => bytes.foldl (fun ip byte => ip <<< 8 ||| byte) 0

/-- `IPv4Address(t)`. -/
def parseIPv4 (t : Text) : Option (BitVec 32) :=
  if '/' ∈ t then none else ipv4FromString t

/-- The parts of an IPv6 address, an IPv4 suffix turned into two hextets. -/
def hextetParts (t : Text) : Option (List Text) :=
  let parts := t.splitOn ':'
  let last := parts.getLastD []
  if parts.length < 3 then none
  else if '.' ∈ last then
    (parseIPv4 last).map fun ip : BitVec 32 =>
      parts.dropLast ++
        [Nat.toDigits 16 (ip >>> 16).toNat, Nat.toDigits 16 (ip &&& 0xffff#32).toNat]
  else some parts

/-- The hextets one after another, below what is there. -/
def shiftIn (ip : BitVec 128) (parts : List Text) : Option (BitVec 128) :=
  parts.foldlM (fun ip part => (parseHextet part).map (ip <<< 16 ||| ·)) ip

/-- `_BaseV6._ip_int_from_string`. -/
def ipv6FromString (t : Text) : Option (BitVec 128) :=
  (hextetParts t).bind fun parts =>
    if 9 < parts.length then none
    else
      -- The places of `::`, the ends apart.
      match (List.range (parts.length - 1)).filter fun i => 0 < i ∧ parts[i]? = some [] with
      | [] => if parts.length ≠ 8 then none else shiftIn 0 parts
      | [skip] =>
        let leading := parts.head? = some []
        let trailing := parts.getLast? = some []
        let hi := if leading then skip - 1 else skip
        let lo := if trailing then parts.length - skip - 2 else parts.length - skip - 1
        if (leading ∧ hi ≠ 0) ∨ (trailing ∧ lo ≠ 0) ∨ 8 < hi + lo + 1 then none
        else
          (shiftIn 0 (parts.take hi)).bind fun ip =>
            shiftIn (ip <<< (16 * (8 - (hi + lo)))) (parts.drop (parts.length - lo))
      | _ => none

/-- `_split_scope_id`. -/
def splitZone (t : Text) : Option (Text × Option Text) :=
  match t.splitOn '%' with
  | [address] => some (address, none)
  | [address, zone] => if zone = [] then none else some (address, some zone)
  | _ => none

/-- `IPv6Address(t)`. -/
def parseIPv6 (t : Text) : Option (BitVec 128 × Option Text) :=
  if '/' ∈ t then none
  else (splitZone t).bind fun p => (ipv6FromString p.1).map fun ip => (ip, p.2)

/-- `ip_address(t)`; `none` is its `ValueError`. -/
def ipAddress (t : Text) : Option IpAddress :=
  match parseIPv4 t with
  | some ip => some (.v4 ip)
  | none => (parseIPv6 t).map fun p => .v6 p.1 p.2

/-- `ipv4_mapped`. -/
def ipv4Mapped (ip : BitVec 128) : Option (BitVec 32) :=
  if ip >>> 32 = 0xffff#128 then some (ip.setWidth 32) else none

/-- The address behind an IPv4-mapped one. -/
def unwrap : IpAddress → IpAddress
  | .v4 ip => .v4 ip
  | .v6 ip zone => match ipv4Mapped ip with
    | some ip => .v4 ip
    | none => .v6 ip zone

/-! ### Reading networks -/

/-- `_prefix_from_prefix_string`. -/
def prefixFromString (width : Nat) (t : Text) : Option Nat :=
  if t = [] ∨ !t.all isDigit ∨ width < decimal t then none else some (decimal t)

/-- `_prefix_from_ip_int`: the prefix length whose netmask it is. -/
def prefixFromMask (mask : BitVec 32) : Option Nat :=
  (List.range 33).find? fun n => mask = BitVec.allOnes 32 <<< (32 - n)

/-- `_BaseV4._make_netmask`: a length, a netmask or a hostmask. -/
def parsePrefix4 (t : Text) : Option Nat :=
  match prefixFromString 32 t with
  | some n => some n
  | none => (ipv4FromString t).bind fun mask =>
    match prefixFromMask mask with
    | some n => some n
    | none => prefixFromMask (~~~mask)

/-- A network of a given address and length. -/
def network {w : Nat} (address : BitVec w) (prefixlen : Nat) : Option (Network w) :=
  if h : prefixlen ≤ w then some ⟨address, prefixlen, h⟩ else none

/-- `ip_network(t, strict=False)`; `none` is its `ValueError`. -/
def ipNetwork (t : Text) : Option IpNetwork :=
  match t.splitOn '/' with
  | [address] => match parseIPv4 address with
    | some ip => (network ip 32).map .v4
    | none => (parseIPv6 address).bind fun p => (network p.1 128).map .v6
  | [address, mask] =>
    let v4 := (parseIPv4 address).bind fun ip =>
      (parsePrefix4 mask).bind fun n => (network ip n).map IpNetwork.v4
    match v4 with
    | some net => some net
    | none => (parseIPv6 address).bind fun p =>
      (prefixFromString 128 mask).bind fun n => (network p.1 n).map .v6
  | _ => none

/-! ### Classes of addresses -/

/-- The network `a.b.c.d/n`. -/
def net4 (a b c d : Nat) (n : Nat) (h : n ≤ 32 := by decide) : Network 32 :=
  ⟨BitVec.ofNat 32 (((a * 256 + b) * 256 + c) * 256 + d), n, h⟩

/-- The network `a:b:c::/n`. -/
def net6 (a b c : Nat) (n : Nat) (h : n ≤ 128 := by decide) : Network 128 :=
  ⟨BitVec.ofNat 128 (((a * 65536 + b) * 65536 + c) * 2 ^ 80), n, h⟩

/-- The network `::n`, of one address. -/
def host6 (n : Nat) : Network 128 := ⟨BitVec.ofNat 128 n, 128, Nat.le_refl _⟩

namespace V4

/-- `_IPv4Constants._private_networks`. -/
def privateNetworks : List (Network 32) :=
  [net4 0 0 0 0 8, net4 10 0 0 0 8, net4 127 0 0 0 8, net4 169 254 0 0 16, net4 172 16 0 0 12,
    net4 192 0 0 0 24, net4 192 0 0 170 31, net4 192 0 2 0 24, net4 192 168 0 0 16,
    net4 198 18 0 0 15, net4 198 51 100 0 24, net4 203 0 113 0 24, net4 240 0 0 0 4,
    net4 255 255 255 255 32]

/-- `_IPv4Constants._private_networks_exceptions`. -/
def privateNetworksExceptions : List (Network 32) := [net4 192 0 0 9 32, net4 192 0 0 10 32]

/-- The shared address space, neither private nor global. -/
def publicNetwork : Network 32 := net4 100 64 0 0 10

/-- `_IPv4Constants._linklocal_network`. -/
def linklocalNetwork : Network 32 := net4 169 254 0 0 16

/-- `_IPv4Constants._loopback_network`. -/
def loopbackNetwork : Network 32 := net4 127 0 0 0 8

/-- `_IPv4Constants._multicast_network`. -/
def multicastNetwork : Network 32 := net4 224 0 0 0 4

/-- `_IPv4Constants._reserved_network`. -/
def reservedNetwork : Network 32 := net4 240 0 0 0 4

end V4

namespace V6

/-- `_IPv6Constants._private_networks`. -/
def privateNetworks : List (Network 128) :=
  [host6 1, host6 0, ⟨0xffff00000000#128, 96, by decide⟩, net6 0x64 0xff9b 1 48,
    net6 0x100 0 0 64, net6 0x2001 0 0 23, net6 0x2001 0xdb8 0 32, net6 0x2002 0 0 16,
    net6 0x3fff 0 0 20, net6 0xfc00 0 0 7, net6 0xfe80 0 0 10]

/-- `_IPv6Constants._private_networks_exceptions`. -/
def privateNetworksExceptions : List (Network 128) :=
  [⟨BitVec.ofNat 128 (0x20010001 * 2 ^ 96 + 1), 128, by decide⟩,
    ⟨BitVec.ofNat 128 (0x20010001 * 2 ^ 96 + 2), 128, by decide⟩,
    net6 0x2001 3 0 32, net6 0x2001 4 0x112 48, net6 0x2001 0x20 0 28, net6 0x2001 0x30 0 28]

/-- `_IPv6Constants._linklocal_network`. -/
def linklocalNetwork : Network 128 := net6 0xfe80 0 0 10

/-- `_IPv6Constants._multicast_network`. -/
def multicastNetwork : Network 128 := net6 0xff00 0 0 8

/-- `_IPv6Constants._reserved_networks`. -/
def reservedNetworks : List (Network 128) :=
  [net6 0 0 0 8, net6 0x100 0 0 8, net6 0x200 0 0 7, net6 0x400 0 0 6, net6 0x800 0 0 5,
    net6 0x1000 0 0 4, net6 0x4000 0 0 3, net6 0x6000 0 0 3, net6 0x8000 0 0 3,
    net6 0xa000 0 0 3, net6 0xc000 0 0 3, net6 0xe000 0 0 4, net6 0xf000 0 0 5,
    net6 0xf800 0 0 6, net6 0xfe00 0 0 9]

end V6

/-- In one of the networks and none of the exceptions. -/
def listed {w : Nat} (networks exceptions : List (Network w)) (ip : BitVec w) : Bool :=
  networks.any (·.contains ip) && exceptions.all fun net => !net.contains ip

/-- `is_private`. -/
def isPrivate : IpAddress → Bool
  | .v4 ip => listed V4.privateNetworks V4.privateNetworksExceptions ip
  | .v6 ip _ => match ipv4Mapped ip with
    | some ip => listed V4.privateNetworks V4.privateNetworksExceptions ip
    | none => listed V6.privateNetworks V6.privateNetworksExceptions ip

/-- `is_global`. -/
def isGlobal : IpAddress → Bool
  | .v4 ip => !V4.publicNetwork.contains ip && !isPrivate (.v4 ip)
  | .v6 ip zone => match ipv4Mapped ip with
    | some ip => !V4.publicNetwork.contains ip && !isPrivate (.v4 ip)
    | none => !isPrivate (.v6 ip zone)

/-- `is_loopback`. -/
def isLoopback : IpAddress → Bool
  | .v4 ip => V4.loopbackNetwork.contains ip
  | .v6 ip _ => match ipv4Mapped ip with
    | some ip => V4.loopbackNetwork.contains ip
    | none => ip = 1

/-- `is_link_local`. -/
def isLinkLocal : IpAddress → Bool
  | .v4 ip => V4.linklocalNetwork.contains ip
  | .v6 ip _ => match ipv4Mapped ip with
    | some ip => V4.linklocalNetwork.contains ip
    | none => V6.linklocalNetwork.contains ip

/-- `is_multicast`. -/
def isMulticast : IpAddress → Bool
  | .v4 ip => V4.multicastNetwork.contains ip
  | .v6 ip _ => match ipv4Mapped ip with
    | some ip => V4.multicastNetwork.contains ip
    | none => V6.multicastNetwork.contains ip

/-- `is_reserved`. -/
def isReserved : IpAddress → Bool
  | .v4 ip => V4.reservedNetwork.contains ip
  | .v6 ip _ => match ipv4Mapped ip with
    | some ip => V4.reservedNetwork.contains ip
    | none => V6.reservedNetworks.any (·.contains ip)

/-- `is_unspecified`. -/
def isUnspecified : IpAddress → Bool
  | .v4 ip => ip = 0
  | .v6 ip _ => match ipv4Mapped ip with
    | some ip => ip = 0
    | none => ip = 0

/-! ### Which classes have no global address -/

/-- A network inside a listed one and apart from the exceptions is listed. -/
theorem listed_of_contains {w : Nat} {networks exceptions : List (Network w)} {net : Network w}
    (hin : networks.any (net.within ·) = true) (hout : exceptions.all (net.apart ·) = true)
    {ip : BitVec w} (hip : net.contains ip = true) : listed networks exceptions ip = true := by
  rw [listed, Bool.and_eq_true, List.any_eq_true, List.all_eq_true]
  constructor
  · obtain ⟨net', hmem, hwithin⟩ := List.any_eq_true.mp hin
    exact ⟨net', hmem, Network.contains_of_within hwithin hip⟩
  · intro net' hmem
    rw [Network.not_contains_of_apart (List.all_eq_true.mp hout net' hmem) hip]
    rfl

theorem isPrivate_of_isLoopback {a : IpAddress} (h : isLoopback a = true) :
    isPrivate a = true := by
  have h4 : ∀ {ip : BitVec 32}, V4.loopbackNetwork.contains ip = true →
      listed V4.privateNetworks V4.privateNetworksExceptions ip = true :=
    listed_of_contains (by decide) (by decide)
  cases a with
  | v4 ip => exact h4 h
  | v6 ip zone =>
    unfold isLoopback at h
    unfold isPrivate
    dsimp only at h ⊢
    split
    · next ip' hmapped =>
      rw [hmapped] at h
      exact h4 h
    · next hmapped =>
      rw [hmapped] at h
      obtain rfl : ip = 1 := of_decide_eq_true h
      decide

theorem isPrivate_of_isLinkLocal {a : IpAddress} (h : isLinkLocal a = true) :
    isPrivate a = true := by
  have h4 : ∀ {ip : BitVec 32}, V4.linklocalNetwork.contains ip = true →
      listed V4.privateNetworks V4.privateNetworksExceptions ip = true :=
    listed_of_contains (by decide) (by decide)
  have h6 : ∀ {ip : BitVec 128}, V6.linklocalNetwork.contains ip = true →
      listed V6.privateNetworks V6.privateNetworksExceptions ip = true :=
    listed_of_contains (by decide) (by decide)
  cases a with
  | v4 ip => exact h4 h
  | v6 ip zone =>
    unfold isLinkLocal at h
    unfold isPrivate
    dsimp only at h ⊢
    split
    · next ip' hmapped =>
      rw [hmapped] at h
      exact h4 h
    · next hmapped =>
      rw [hmapped] at h
      exact h6 h

theorem isPrivate_of_isUnspecified {a : IpAddress} (h : isUnspecified a = true) :
    isPrivate a = true := by
  cases a with
  | v4 ip =>
    obtain rfl : ip = 0 := of_decide_eq_true h
    decide
  | v6 ip zone =>
    unfold isUnspecified at h
    unfold isPrivate
    dsimp only at h ⊢
    split
    · next ip' hmapped =>
      rw [hmapped] at h
      obtain rfl : ip' = 0 := of_decide_eq_true h
      decide
    · next hmapped =>
      rw [hmapped] at h
      obtain rfl : ip = 0 := of_decide_eq_true h
      decide

/-- A global address is not private. -/
theorem not_isPrivate_of_isGlobal {a : IpAddress} (h : isGlobal a = true) :
    isPrivate a = false := by
  cases a with
  | v4 ip =>
    simp only [isGlobal, Bool.and_eq_true, Bool.not_eq_true'] at h
    exact h.2
  | v6 ip zone =>
    unfold isGlobal at h
    dsimp only at h
    split at h
    · next ip' hmapped =>
      simp only [Bool.and_eq_true, Bool.not_eq_true'] at h
      simp only [isPrivate, hmapped]
      exact h.2
    · simpa using h

/-- In one of the classes that are not for the public internet. -/
def isInternal (a : IpAddress) : Bool :=
  isPrivate a || isLoopback a || isLinkLocal a || isMulticast a || isReserved a ||
    isUnspecified a

/-- A global address may still be multicast or reserved, and nothing else. -/
theorem isInternal_of_isGlobal {a : IpAddress} (h : isGlobal a = true) :
    isInternal a = (isMulticast a || isReserved a) := by
  have hprivate : isPrivate a = false := not_isPrivate_of_isGlobal h
  have hloopback : isLoopback a = false := by
    rw [Bool.eq_false_iff]
    intro hl
    simp [isPrivate_of_isLoopback hl] at hprivate
  have hlinklocal : isLinkLocal a = false := by
    rw [Bool.eq_false_iff]
    intro hl
    simp [isPrivate_of_isLinkLocal hl] at hprivate
  have hunspecified : isUnspecified a = false := by
    rw [Bool.eq_false_iff]
    intro hl
    simp [isPrivate_of_isUnspecified hl] at hprivate
  simp [isInternal, hprivate, hloopback, hlinklocal, hunspecified]

end IpAddress

end Systems

end RealEstate
