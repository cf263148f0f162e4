import AivpnSpec.Gateway.Uplink
import AivpnSpec.Offload.Ipv6
import Mathlib.Data.List.TakeDrop

/-!
# Packets from clients on both paths

The kernel's check of an uplink packet, `policy.h:609-703`, against the gateway's, for a policy
that mirrors the session. What the kernel drops is not forwarded by userspace. What it accepts
comes from the session's own address; where clients are isolated it also goes there.
-/

namespace AivpnSpec.Offload

open AivpnSpec.Base AivpnSpec.Common AivpnSpec.Server AivpnSpec.Kernel AivpnSpec.Wire
open AivpnSpec.Gateway

/-- A kernel policy that says what userspace knows of the session. -/
structure Mirrors (text : Ipv6Text) (config : Routing) (index : SessionIndex)
    (session : RoutedSession) (vpnIp : Ipv4Addr) (p : Pol) (peer : RawIpv4 → Bool) : Prop where
  role : p.role = roleServer
  owner : session.vpnIp = some vpnIp
  clientIpv4 : p.clientIpv4 = raw4 vpnIp
  isolate : hasFlag p.flags polPeerIsolate = !config.allowPeerRouting
  ipv6 : hasFlag p.flags polIpv6 = true →
    ipv6PolicyPrefix text config.networkConfig = some (p.ipv6Prefix, p.ipv6PrefixLen)
  /-- the kernel's peers are live sessions that packets are routed to -/
  peers : ∀ ip, peer (raw4 ip) = true → ∃ id other, index.sessions.lookup id = some other ∧
    other.vpnIp = some ip ∧ other.routable = true

/-- The settings are those of a running server, and the addresses in use are its clients'. -/
structure Configured (text : Ipv6Text) (config : Routing) (vpnIp : Ipv4Addr)
    (peer : RawIpv4 → Bool) : Prop where
  valid : config.networkConfig.validate text = .ok ()
  own : isClientAddress config.networkConfig vpnIp = true
  peers : ∀ ip, peer (raw4 ip) = true → isClientAddress config.networkConfig ip = true

/-- Both addresses of a packet have one version. -/
theorem versionOf_destination {bytes : Bytes} {packet : IpPacket}
    (h : IpPacket.parseHeader bytes = some packet) :
    versionOf packet.destination = versionOf packet.source := by
  unfold IpPacket.parseHeader at h
  split at h
  · cases h
  simp only at h
  split at h
  · split at h
    · cases h
    · cases h
      rfl
  · split at h
    · split at h
      · cases h
      · cases h
        rfl
    · cases h

/-- Settings that passed validation assign addresses wherever the kernel was given a prefix. -/
theorem assigns_of_policy {text : Ipv6Text} {network : Wire.VpnNetworkConfig}
    {networkPrefix : RawIpv6} {prefixLen : UInt8} (hvalid : network.validate text = .ok ())
    (h : ipv6PolicyPrefix text network = some (networkPrefix, prefixLen)) :
    ∃ address, Assigns text network address prefixLen ∧
      networkPrefix = raw6 (address &&& VpnNetworkConfig.prefixMask prefixLen) := by
  have henabled : network.ipv6Enabled = true := by
    by_contra hoff
    simp [ipv6PolicyPrefix, hoff] at h
  have hgateway : ∃ gateway len, network.ipv6Gateway text = .ok (gateway, len) := by
    cases hresult : network.ipv6Gateway text with
    | ok gateway => exact ⟨gateway.1, gateway.2, rfl⟩
    | error e =>
      simp [VpnNetworkConfig.validate, VpnNetworkConfig.validateIpv6, henabled, hresult] at hvalid
  obtain ⟨gateway, len, hgateway⟩ := hgateway
  obtain ⟨address, hassigns⟩ := assigns_of_gateway henabled hgateway
  have heq := h.symm.trans hassigns.policy
  injection heq with heq
  injection heq with hprefixed hlen
  subst hlen
  exact ⟨address, hassigns, hprefixed⟩

/-- The check of a whole packet: one that userspace refuses is dropped, and one that it parses is
judged by its addresses or left to userspace. -/
theorem polCheckAddrs_cases {p : Pol} {peer : RawIpv4 → Bool} (hrole : p.role = roleServer)
    (bytes : Bytes) :
    (IpPacket.parse bytes = none ∧ polCheckAddrs p .uplink bytes bytes.length peer = .drop) ∨
    ∃ packet, IpPacket.parse bytes = some packet ∧
      versionOf packet.destination = versionOf packet.source ∧
      (polCheckAddrs p .uplink bytes bytes.length peer = .fallback ∨
        polCheckAddrs p .uplink bytes bytes.length peer =
          uplinkVerdict p (viewOf packet) peer) := by
  have hserver : ¬ p.role = roleClient := by rw [hrole]; decide
  unfold polCheckAddrs IpPacket.parse
  rw [ipParse_eq bytes (le_refl bytes.length)]
  cases hheader : IpPacket.parseHeader bytes with
  | none =>
    left
    exact ⟨rfl, rfl⟩
  | some packet =>
    simp only [Option.bind_some, if_neg hserver]
    by_cases hrefused : bytes.length < packet.length ∨
        (bytes.drop packet.length).any (· ≠ 0) = true
    · left
      rw [if_pos hrefused, if_pos hrefused]
      exact ⟨rfl, rfl⟩
    right
    rw [if_neg hrefused, if_neg hrefused]
    refine ⟨packet, rfl, versionOf_destination hheader, ?_⟩
    simp only
    split
    · left
      rfl
    · right
      rfl

section

variable {text : Ipv6Text} {config : Routing} {index : SessionIndex} {session : RoutedSession}
  {vpnIp : Ipv4Addr} {p : Pol} {peer : RawIpv4 → Bool} {packet : IpPacket}

namespace Mirrors

section

variable (h : Mirrors text config index session vpnIp p peer)

include h

/-- A peer of the kernel is found by its address. -/
theorem peer_found {ip : Ipv4Addr} (hhit : peerHit peer (raw4 ip) = true) :
    peer (raw4 ip) = true ∧ (index.getSessionByVpnIp ip).1.isSome = true := by
  unfold peerHit at hhit
  split at hhit
  · cases hhit
  · obtain ⟨id, other, hlive, hip, hroutable⟩ := h.peers ip hhit
    exact ⟨hhit, SessionIndex.getSessionByVpnIp_isSome hlive hip hroutable⟩

/-- The kernel's rules for an IPv4 packet. -/
theorem uplinkVerdict_v4 (source destination : Ipv4Addr) (length : Nat) :
    uplinkVerdict p (viewOf ⟨.v4 source, .v4 destination, length⟩) peer =
      if source ≠ vpnIp then .drop
      else if config.allowPeerRouting = false ∧ destination ≠ vpnIp then
        if peerHit peer (raw4 destination) then .drop else .fallback
      else .accept := by
  simp only [uplinkVerdict, viewOf, versionOf, field4, h.clientIpv4, h.isolate, ne_eq, raw4_inj,
    Bool.not_eq_true', if_true]
  congr

/-- The kernel's rules for an IPv6 packet. -/
theorem uplinkVerdict_v6 {address : Ipv6Addr} (hflag : hasFlag p.flags polIpv6 = true)
    (hassigns : Assigns text config.networkConfig address p.ipv6PrefixLen)
    (hprefixed : p.ipv6Prefix = raw6 (address &&& VpnNetworkConfig.prefixMask p.ipv6PrefixLen))
    (source destination : Ipv6Addr) (length : Nat) :
    uplinkVerdict p (viewOf ⟨.v6 source, .v6 destination, length⟩) peer =
      if source ≠ assignedIpv6 address p.ipv6PrefixLen vpnIp then .drop
      else if config.allowPeerRouting = false ∧
          destination ≠ assignedIpv6 address p.ipv6PrefixLen vpnIp then
        if destination = assignedIpv6 address p.ipv6PrefixLen (ipv4At (octets6 destination) 12) ∧
            ipv4At (octets6 destination) 12 ≠ vpnIp ∧
            peerHit peer (raw4 (ipv4At (octets6 destination) 12)) = true then .drop
        else .fallback
      else .accept := by
  have hmapped : arrayAt 4 (octets6 destination) 12 = raw4 (ipv4At (octets6 destination) 12) :=
    (raw4_ipv4At (by simp)).symm
  have hmatches : ∀ ip a, ipv6Matches p.ipv6Prefix p.ipv6PrefixLen (raw4 ip) (raw6 a) =
      decide (a = assignedIpv6 address p.ipv6PrefixLen ip) := by
    intro ip a
    rw [hprefixed, Bool.eq_iff_iff, decide_eq_true_iff]
    exact hassigns.ipv6Matches_iff
  simp [uplinkVerdict, viewOf, versionOf, field6, h.clientIpv4, h.isolate, raw4_inj, hflag,
    toList_raw6, hmapped, hmatches]

/-- A packet that the kernel accepts has the session's own address as its source, and also as its
destination where clients are isolated. One that it drops is not from the session's own address, or
goes to a client from which the session is isolated. -/
theorem of_verdict (hconfig : Configured text config vpnIp peer)
    (hversion : versionOf packet.destination = versionOf packet.source) :
    (uplinkVerdict p (viewOf packet) peer = .accept →
      sessionAllowsSource text config session packet.source = true ∧
        (config.allowPeerRouting = false →
          innerClientIpv4 text config packet.destination = some vpnIp)) ∧
    (uplinkVerdict p (viewOf packet) peer = .drop →
      sessionAllowsSource text config session packet.source = false ∨
        (config.allowPeerRouting = false ∧
          (sessionForInnerIp text config index packet.destination).1 ≠ none)) := by
  obtain ⟨source, destination, length⟩ := packet
  cases source with
  | v4 source =>
    cases destination with
    | v6 _ => cases hversion
    | v4 destination =>
      rw [h.uplinkVerdict_v4]
      split
      · next hsource =>
        refine ⟨nofun, fun _ => .inl ?_⟩
        simpa [sessionAllowsSource, h.owner, eq_comm] using hsource
      next hsource =>
      split
      · next hisolated =>
        split
        · next hhit =>
          refine ⟨nofun, fun _ => .inr ⟨hisolated.1, ?_⟩⟩
          exact Option.isSome_iff_ne_none.mp (h.peer_found hhit).2
        · exact ⟨nofun, nofun⟩
      · next hdestination =>
        refine ⟨fun _ => ⟨?_, fun hisolate => ?_⟩, nofun⟩
        · simpa [sessionAllowsSource, h.owner, eq_comm] using hsource
        · simpa [innerClientIpv4, hisolate] using hdestination
  | v6 source =>
    cases destination with
    | v4 _ => cases hversion
    | v6 destination =>
      cases hflag : hasFlag p.flags polIpv6 with
      | false => simp [uplinkVerdict, viewOf, versionOf, hflag]
      | true =>
        obtain ⟨address, hassigns, hprefixed⟩ := assigns_of_policy hconfig.valid (h.ipv6 hflag)
        have hown := hassigns.clientIpForIpv6_iff.mpr ⟨hconfig.own, rfl⟩
        rw [h.uplinkVerdict_v6 hflag hassigns hprefixed]
        split
        · next hsource =>
          refine ⟨nofun, fun _ => .inl ?_⟩
          rw [sessionAllowsSource]
          cases hfound : config.networkConfig.clientIpForIpv6 text source with
          | none => rfl
          | some ip =>
            have hassigned := (hassigns.clientIpForIpv6_iff.mp hfound).2
            simp only [h.owner, Option.some.injEq, decide_eq_false_iff_not]
            rintro rfl
            exact hsource hassigned
        · next hsource =>
          split
          · next hisolated =>
            split
            · next hpeer =>
              have hfound := h.peer_found hpeer.2.2
              have hip := hassigns.clientIpForIpv6_iff.mpr ⟨hconfig.peers _ hfound.1, hpeer.1⟩
              refine ⟨nofun, fun _ => .inr ⟨hisolated.1, ?_⟩⟩
              rw [sessionForInnerIp, innerClientIpv4, hip]
              exact Option.isSome_iff_ne_none.mp hfound.2
            · exact ⟨nofun, nofun⟩
          · next hdestination =>
            refine ⟨fun _ => ⟨?_, fun hisolate => ?_⟩, nofun⟩
            · rw [not_ne_iff.mp hsource, sessionAllowsSource, hown]
              simp [h.owner]
            · rw [not_and_not_right.mp hdestination hisolate, innerClientIpv4, hown]

end

variable {bytes : Bytes}

theorem processData_of_accept (h : Mirrors text config index session vpnIp p peer)
    (hconfig : Configured text config vpnIp peer)
    (haccept : polCheckAddrs p .uplink bytes bytes.length peer = .accept) :
    ∃ packet, IpPacket.parse bytes = some packet ∧
      ((processData text config true index session bytes).1 =
          .forwarded (bytes.take packet.length) ↔
        config.allowPeerRouting = true ∨ (index.getSessionByVpnIp vpnIp).1 = none) ∧
      ((processData text config true index session bytes).1 = .forwarded bytes ↔
        packet.length = bytes.length ∧
          (config.allowPeerRouting = true ∨ (index.getSessionByVpnIp vpnIp).1 = none)) := by
  rcases polCheckAddrs_cases h.role bytes with
    ⟨-, hverdict⟩ | ⟨packet, hparse, hversion, hverdict | hverdict⟩
  · rw [hverdict] at haccept
    cases haccept
  · rw [hverdict] at haccept
    cases haccept
  · obtain ⟨hsource, hown⟩ := (h.of_verdict hconfig hversion).1 (hverdict.symm.trans haccept)
    have hreach : (config.allowPeerRouting = true ∨
          (sessionForInnerIp text config index packet.destination).1 = none) ↔
        (config.allowPeerRouting = true ∨ (index.getSessionByVpnIp vpnIp).1 = none) := by
      cases hpeers : config.allowPeerRouting with
      | true => simp
      | false => rw [sessionForInnerIp, hown hpeers]
    have htail : bytes.take packet.length = bytes ↔ packet.length = bytes.length := by
      have hshort := IpPacket.length_le hparse
      rw [List.take_eq_self_iff]
      omega
    refine ⟨packet, hparse, ?_⟩
    rw [processData_of_parse hparse]
    simp only [hreach, hsource]
    by_cases hforward : config.allowPeerRouting = true ∨ (index.getSessionByVpnIp vpnIp).1 = none
    · simp [hforward, htail]
    · simp [hforward]

theorem processData_of_drop (h : Mirrors text config index session vpnIp p peer)
    (hconfig : Configured text config vpnIp peer)
    (hdrop : polCheckAddrs p .uplink bytes bytes.length peer = .drop) :
    (processData text config true index session bytes).1 = .ignored := by
  rcases polCheckAddrs_cases h.role bytes with
    ⟨hparse, -⟩ | ⟨packet, hparse, hversion, hverdict | hverdict⟩
  · simp [processData, hparse]
  · rw [hverdict] at hdrop
    cases hdrop
  · rw [processData_of_parse hparse]
    rcases (h.of_verdict hconfig hversion).2 (hverdict.symm.trans hdrop) with
      hsource | ⟨hisolate, hfound⟩
    · simp [hsource]
    · simp [hisolate, hfound]

end Mirrors

end

/-- For a policy that mirrors the session the gateway does not forward what the kernel drops. What
the kernel accepts it forwards, without the zeros behind the packet, if clients are not isolated
or no session is found by the session's own address. -/
theorem uplink_verdict_sound (text : Ipv6Text) (config : Routing) (index : SessionIndex)
    (session : RoutedSession) (vpnIp : Ipv4Addr) (p : Pol) (peer : RawIpv4 → Bool)
    (plaintext : Bytes) (h : Mirrors text config index session vpnIp p peer)
    (hconfig : Configured text config vpnIp peer) (hlength : 4 ≤ plaintext.length)
    (hdata : InnerType.fromU16 (ofLe (slice plaintext 0 2)) = some .data) :
    let ip := plaintext.drop 4
    ∃ outcome index', processInnerPayload text config true index session plaintext =
        .ok (outcome, index') ∧
      (polCheckAddrs p .uplink ip ip.length peer = .accept → ∃ packet,
        IpPacket.parse ip = some packet ∧
        (outcome = .forwarded (ip.take packet.length) ↔
          config.allowPeerRouting = true ∨ (index.getSessionByVpnIp vpnIp).1 = none) ∧
        (outcome = .forwarded ip ↔ packet.length = ip.length ∧
          (config.allowPeerRouting = true ∨ (index.getSessionByVpnIp vpnIp).1 = none))) ∧
      (polCheckAddrs p .uplink ip ip.length peer = .drop → outcome = .ignored) := by
  intro ip
  have hrun : processInnerPayload text config true index session plaintext =
      .ok (processData text config true index session ip) := by
    rw [processInnerPayload, if_neg (Nat.not_lt.mpr hlength), hdata]
  exact ⟨(processData text config true index session ip).1,
    (processData text config true index session ip).2, hrun,
    h.processData_of_accept hconfig, h.processData_of_drop hconfig⟩

def sampleSession (vpnIp : Ipv4Addr) : RoutedSession := ⟨some vpnIp, some "client", true⟩

def sampleIndex (vpnIp : Ipv4Addr) : SessionIndex where
  sessions := AList.insert (Vector.replicate 16 1) (sampleSession vpnIp) ∅
  vpnIpMap := AList.insert vpnIp (Vector.replicate 16 1) ∅

variable (allowPeerRouting : Bool)

def samplePol (vpnIp : Ipv4Addr) : Pol :=
  { Pol.zero with
    role := roleServer
    flags := if allowPeerRouting then polIpv6 else polIpv6 ||| polPeerIsolate
    clientIpv4 := raw4 vpnIp
    ipv6Prefix := raw6 (0xfd10cafe#128 <<< 96)
    ipv6PrefixLen := 48 }

def sampleRouting : Routing := ⟨sampleNetwork 0x0a000001, allowPeerRouting⟩

def sampleIpv4 (source destination : Ipv4Addr) : Bytes :=
  [1, 0, 0, 0] ++ [0x45, 0, 0, 20, 0, 0, 0, 0, 64, 59, 0, 0] ++ octets4 source ++
    octets4 destination

def sampleIpv6 (source destination : Ipv6Addr) : Bytes :=
  [1, 0, 0, 0] ++ [0x60, 0, 0, 0, 0, 0, 59, 64] ++ octets6 source ++ octets6 destination

theorem mirrors_samplePol (vpnIp : Ipv4Addr) :
    Mirrors sampleText (sampleRouting allowPeerRouting) (sampleIndex vpnIp) (sampleSession vpnIp)
      vpnIp (samplePol allowPeerRouting vpnIp) fun _ => false where
  role := rfl
  owner := rfl
  clientIpv4 := rfl
  isolate := by
    cases allowPeerRouting with
    | false =>
      show hasFlag (polIpv6 ||| polPeerIsolate) polPeerIsolate = true
      decide
    | true =>
      show hasFlag polIpv6 polPeerIsolate = false
      decide
  ipv6 := by
    intro _
    show ipv6PolicyPrefix sampleText (sampleNetwork 0x0a000001) =
      some (raw6 (0xfd10cafe#128 <<< 96), 48)
    decide +kernel
  peers := by
    intro ip h
    cases h

theorem configured_sampleRouting :
    Configured sampleText (sampleRouting allowPeerRouting) 0x0a000002 fun _ => false where
  valid := by
    show (sampleNetwork 0x0a000001).validate sampleText = .ok ()
    decide +kernel
  own := by
    show isClientAddress (sampleNetwork 0x0a000001) 0x0a000002 = true
    decide
  peers := by
    intro ip h
    cases h

theorem uplink_verdict_sound_sampleIpv4 :
    polCheckAddrs (samplePol true 0x0a000002) .uplink
        ((sampleIpv4 0x0a000002 0x08080808).drop 4) 20 (fun _ => false) = .accept ∧
    ∃ outcome index', processInnerPayload sampleText (sampleRouting true) true
        (sampleIndex 0x0a000002) (sampleSession 0x0a000002) (sampleIpv4 0x0a000002 0x08080808) =
        .ok (outcome, index') ∧
      outcome = .forwarded ((sampleIpv4 0x0a000002 0x08080808).drop 4) := by
  have haccept : polCheckAddrs (samplePol true 0x0a000002) .uplink
      ((sampleIpv4 0x0a000002 0x08080808).drop 4) 20 (fun _ => false) = .accept := by
    decide +kernel
  have h := uplink_verdict_sound sampleText (sampleRouting true) (sampleIndex 0x0a000002)
    (sampleSession 0x0a000002) 0x0a000002 (samplePol true 0x0a000002) (fun _ => false)
    (sampleIpv4 0x0a000002 0x08080808) (mirrors_samplePol true 0x0a000002)
    (configured_sampleRouting true) (by decide) (by decide)
  obtain ⟨outcome, index', hrun, hforward, -⟩ := h
  obtain ⟨packet, hparse, -, hbytes⟩ := hforward haccept
  refine ⟨haccept, outcome, index', hrun, hbytes.mpr ⟨?_, .inl rfl⟩⟩
  have hheader : IpPacket.parse ((sampleIpv4 0x0a000002 0x08080808).drop 4) =
      some ⟨.v4 0x0a000002, .v4 0x08080808, 20⟩ := by decide +kernel
  rw [hheader] at hparse
  cases hparse
  rfl

/-- The kernel accepts a packet that an isolated session sends to its own address, and the gateway
refuses it; the kernel passes on the zeros behind a packet, and the gateway cuts them off; and the
kernel accepts IPv6 from a session whose address is not in the subnet. -/
theorem uplink_accept_diverges :
    (∀ allowPeerRouting vpnIp, Mirrors sampleText (sampleRouting allowPeerRouting)
      (sampleIndex vpnIp) (sampleSession vpnIp) vpnIp (samplePol allowPeerRouting vpnIp)
      fun _ => false) ∧
    (polCheckAddrs (samplePol false 0x0a000002) .uplink
        ((sampleIpv4 0x0a000002 0x0a000002).drop 4) 20 (fun _ => false) = .accept ∧
      (processInnerPayload sampleText (sampleRouting false) true (sampleIndex 0x0a000002)
        (sampleSession 0x0a000002) (sampleIpv4 0x0a000002 0x0a000002)).map Prod.fst =
          .ok .ignored) ∧
    (polCheckAddrs (samplePol true 0x0a000002) .uplink
        ((sampleIpv4 0x0a000002 0x08080808 ++ [0]).drop 4) 21 (fun _ => false) = .accept ∧
      (processInnerPayload sampleText (sampleRouting true) true (sampleIndex 0x0a000002)
        (sampleSession 0x0a000002) (sampleIpv4 0x0a000002 0x08080808 ++ [0])).map Prod.fst =
          .ok (.forwarded ((sampleIpv4 0x0a000002 0x08080808).drop 4))) ∧
    (polCheckAddrs (samplePol true 0xc0a80002) .uplink
        ((sampleIpv6 ((0xfd10cafe#128 <<< 96) ||| 0xc0a80002) 1).drop 4) 40 (fun _ => false) =
          .accept ∧
      (processInnerPayload sampleText (sampleRouting true) true (sampleIndex 0xc0a80002)
        (sampleSession 0xc0a80002)
        (sampleIpv6 ((0xfd10cafe#128 <<< 96) ||| 0xc0a80002) 1)).map Prod.fst = .ok .ignored) :=
  ⟨mirrors_samplePol, by decide +kernel, by decide +kernel, by decide +kernel⟩

end AivpnSpec.Offload
