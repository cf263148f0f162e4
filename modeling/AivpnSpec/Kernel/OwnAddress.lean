import AivpnSpec.Kernel.Address

/-!
# Addresses that pass the fast path

The kernel module accepts a packet only if it carries an address of its own session: the source on
the way up, the destination on the way down and at a client, and both under isolation. The address
is read from the bytes of the packet.
-/

namespace AivpnSpec.Kernel

open AivpnSpec.Base

namespace Pol

variable {p : Pol} {ip : List UInt8} {view : IpView} {offset4 offset6 : Nat}
  {peer : RawIpv4 → Bool}

/-- The IPv6 address that a session is assigned. -/
structure OwnIpv6 (p : Pol) (address : RawIpv6) : Prop where
  enabled : hasFlag p.flags polIpv6 = true
  positive : 0 < p.ipv6PrefixLen.toNat
  short : p.ipv6PrefixLen.toNat ≤ 96
  assigned : address = ipv6Assigned p.ipv6Prefix p.ipv6PrefixLen p.clientIpv4

/-- The packet has an address of the session at the offset that its version gives. -/
def Carried (p : Pol) (ip : List UInt8) (offset4 offset6 : Nat) : Prop :=
  (byteAt ip 0 >>> 4 = 4 ∧ HasAt ip offset4 p.clientIpv4.toList) ∨
  (byteAt ip 0 >>> 4 = 6 ∧ ∃ address, p.OwnIpv6 address ∧ HasAt ip offset6 address.toList)

def OwnSource (p : Pol) (ip : List UInt8) : Prop := p.Carried ip 12 8

def OwnDestination (p : Pol) (ip : List UInt8) : Prop := p.Carried ip 16 24

/-- The check of an IPv6 address. -/
theorem ownIpv6_of_matches {address : RawIpv6} (henabled : hasFlag p.flags polIpv6 = true)
    (h : ipv6Matches p.ipv6Prefix p.ipv6PrefixLen p.clientIpv4 address = true) :
    p.OwnIpv6 address := by
  unfold ipv6Matches at h
  split at h
  · cases h
  next hrange =>
  obtain ⟨hzero, hlong⟩ := not_or.mp hrange
  have hshort : p.ipv6PrefixLen.toNat ≤ 96 := UInt8.le_iff_toNat_le.mp (UInt8.not_lt.mp hlong)
  have hpositive : p.ipv6PrefixLen.toNat ≠ 0 := fun heq => hzero (UInt8.toNat_inj.mp heq)
  exact ⟨henabled, Nat.pos_of_ne_zero hpositive, hshort, (of_decide_eq_true h).symm⟩

def Matches (p : Pol) (version : Nat) (address4 : RawIpv4) (address6 : RawIpv6) : Prop :=
  (version = 4 ∧ address4 = p.clientIpv4) ∨
  (version = 6 ∧ hasFlag p.flags polIpv6 = true ∧
    ipv6Matches p.ipv6Prefix p.ipv6PrefixLen p.clientIpv4 address6 = true)

theorem matches_of_clientVerdict (h : clientVerdict p view = .accept) :
    p.Matches view.version view.dstV4 view.dstV6 := by
  unfold clientVerdict at h
  split_ifs at h <;> simp_all [Matches]

theorem matches_of_uplinkVerdict (h : uplinkVerdict p view peer = .accept) :
    p.Matches view.version view.srcV4 view.srcV6 ∧
      (hasFlag p.flags polPeerIsolate = true → p.Matches view.version view.dstV4 view.dstV6) := by
  unfold uplinkVerdict at h
  dsimp only at h
  split_ifs at h <;> simp_all [Matches]

theorem matches_of_downlinkVerdict (h : downlinkVerdict p view peer = .accept) :
    p.Matches view.version view.dstV4 view.dstV6 ∧
      (hasFlag p.flags polPeerIsolate = true → p.Matches view.version view.srcV4 view.srcV6) := by
  unfold downlinkVerdict at h
  dsimp only at h
  split_ifs at h <;> simp_all [Matches]

/-- What the parser read the fields of a packet from. -/
structure Reads (ip : List UInt8) (view : IpView) : Prop where
  v4 : view.version = 4 → byteAt ip 0 >>> 4 = 4 ∧ 20 ≤ ip.length ∧
    view.srcV4 = arrayAt 4 ip 12 ∧ view.dstV4 = arrayAt 4 ip 16
  v6 : view.version = 6 → byteAt ip 0 >>> 4 = 6 ∧ 40 ≤ ip.length ∧
    view.srcV6 = arrayAt 16 ip 8 ∧ view.dstV6 = arrayAt 16 ip 24

theorem reads_of_ipParse {pktLen : Nat} (h : ipParse ip pktLen = some view) : Reads ip view := by
  unfold ipParse at h
  dsimp only at h
  split_ifs at h with _ hfour hlen _ _ hsix hlen
  · cases h
    exact ⟨fun _ => ⟨hfour, Nat.not_lt.mp hlen, rfl, rfl⟩, by simp⟩
  · cases h
    exact ⟨by simp, fun _ => ⟨hsix, Nat.not_lt.mp hlen, rfl, rfl⟩⟩

theorem Matches.carried {version : Nat} {address4 : RawIpv4} {address6 : RawIpv6}
    (h : p.Matches version address4 address6)
    (h4 : version = 4 → byteAt ip 0 >>> 4 = 4 ∧ offset4 + 4 ≤ ip.length ∧
      address4 = arrayAt 4 ip offset4)
    (h6 : version = 6 → byteAt ip 0 >>> 4 = 6 ∧ offset6 + 16 ≤ ip.length ∧
      address6 = arrayAt 16 ip offset6) : p.Carried ip offset4 offset6 := by
  rcases h with ⟨hversion, hown⟩ | ⟨hversion, henabled, hown⟩
  · obtain ⟨hfirst, hlen, hfield⟩ := h4 hversion
    refine .inl ⟨hfirst, ?_⟩
    rw [← hown, hfield]
    exact hasAt_arrayAt hlen
  · obtain ⟨hfirst, hlen, hfield⟩ := h6 hversion
    refine .inr ⟨hfirst, address6, ownIpv6_of_matches henabled hown, ?_⟩
    rw [hfield]
    exact hasAt_arrayAt hlen

theorem Reads.ownSource (hreads : Reads ip view)
    (h : p.Matches view.version view.srcV4 view.srcV6) : p.OwnSource ip := by
  apply h.carried
  · intro hversion
    obtain ⟨hfirst, hlen, hsource, -⟩ := hreads.v4 hversion
    exact ⟨hfirst, by omega, hsource⟩
  · intro hversion
    obtain ⟨hfirst, hlen, hsource, -⟩ := hreads.v6 hversion
    exact ⟨hfirst, by omega, hsource⟩

theorem Reads.ownDestination (hreads : Reads ip view)
    (h : p.Matches view.version view.dstV4 view.dstV6) : p.OwnDestination ip := by
  apply h.carried
  · intro hversion
    obtain ⟨hfirst, hlen, -, hdestination⟩ := hreads.v4 hversion
    exact ⟨hfirst, by omega, hdestination⟩
  · intro hversion
    obtain ⟨hfirst, hlen, -, hdestination⟩ := hreads.v6 hversion
    exact ⟨hfirst, by omega, hdestination⟩

/-- What the fast path accepts carries the session's own address. -/
theorem accepted_packet_carries_own_address (p : Pol) (dir : Direction) (ip : List UInt8)
    (pktLen : Nat) (peer : RawIpv4 → Bool) (h : polCheckAddrs p dir ip pktLen peer = .accept) :
    (p.role = roleClient → p.OwnDestination ip) ∧
    (p.role ≠ roleClient → dir = .uplink → p.OwnSource ip ∧
      (hasFlag p.flags polPeerIsolate = true → p.OwnDestination ip)) ∧
    (p.role ≠ roleClient → dir = .downlink → p.OwnDestination ip ∧
      (hasFlag p.flags polPeerIsolate = true → p.OwnSource ip)) := by
  unfold polCheckAddrs at h
  split at h
  · cases h
  next view hparse =>
  have hreads := reads_of_ipParse hparse
  split at h
  · cases h
  refine ⟨?_, ?_, ?_⟩
  · intro hrole
    rw [if_pos hrole] at h
    exact hreads.ownDestination (matches_of_clientVerdict h)
  · rintro hrole rfl
    rw [if_neg hrole] at h
    obtain ⟨hsource, hdestination⟩ := matches_of_uplinkVerdict h
    exact ⟨hreads.ownSource hsource, fun hon => hreads.ownDestination (hdestination hon)⟩
  · rintro hrole rfl
    rw [if_neg hrole] at h
    obtain ⟨hdestination, hsource⟩ := matches_of_downlinkVerdict h
    exact ⟨hreads.ownDestination hdestination, fun hon => hreads.ownSource (hsource hon)⟩

def sampleClient : Pol := { Pol.zero with role := roleServer, clientIpv4 := sampleIpv4 }

def sampleHeader : List UInt8 := [0x45, 0, 0, 20, 0, 0, 0, 0, 64, 17, 0, 0, 10, 0, 0, 2, 8, 8, 8, 8]

theorem accepted_packet_carries_own_address_sampleHeader : sampleClient.OwnSource sampleHeader :=
  ((accepted_packet_carries_own_address sampleClient .uplink sampleHeader 20 (fun _ => false)
    (by decide)).2.1 (by decide) rfl).1

end Pol

end AivpnSpec.Kernel
