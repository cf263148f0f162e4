import AivpnSpec.Base.Table
import AivpnSpec.Wire.IpPacket

/-!
# Packets from clients in userspace

`gateway/packet_ingress.rs:1550-1627`, `gateway/mod.rs:458-475` and `session.rs:2140-2182`: which
inner packets of a session the gateway forwards, and the index that finds the session of an inner
address.
-/

namespace AivpnSpec.Gateway

open AivpnSpec.Base AivpnSpec.Common AivpnSpec.Server AivpnSpec.Wire

/-- What the router reads of a session. -/
structure RoutedSession where
  vpnIp : Option Ipv4Addr
  clientId : Option String
  clientAdmitted : Bool

def RoutedSession.routable (session : RoutedSession) : Bool :=
  session.clientId.isNone || session.clientAdmitted

/-- The sessions of `SessionManager` and its index of VPN addresses. -/
structure SessionIndex where
  sessions : Table (Vector UInt8 16) RoutedSession
  vpnIpMap : Table Ipv4Addr (Vector UInt8 16)

namespace SessionIndex

def indexed (index : SessionIndex) (vpnIp : Ipv4Addr) : Option (Vector UInt8 16) :=
  match index.vpnIpMap.lookup vpnIp with
  | none => none
  | some id =>
    match index.sessions.lookup id with
    | none => none
    | some session => if session.routable then some id else none

/-- The scan over all sessions, `session.rs:2161-2171`. -/
def scanned (index : SessionIndex) (vpnIp : Ipv4Addr) : Option (Vector UInt8 16) :=
  (index.sessions.entries.find? fun e => decide (e.2.vpnIp = some vpnIp) && e.2.routable).map
    Sigma.fst

/-- `get_session_by_vpn_ip`, `session.rs:2140-2182`: a session that only the scan finds is put
back into the index. -/
def getSessionByVpnIp (index : SessionIndex) (vpnIp : Ipv4Addr) :
    Option (Vector UInt8 16) × SessionIndex :=
  match index.indexed vpnIp with
  | some id => (some id, index)
  | none =>
    match index.scanned vpnIp with
    | some id => (some id, { index with vpnIpMap := index.vpnIpMap.insert vpnIp id })
    | none => (none, index)

/-- A routable session is found by its address. -/
theorem getSessionByVpnIp_isSome {index : SessionIndex} {vpnIp : Ipv4Addr}
    {id : Vector UInt8 16} {session : RoutedSession}
    (hlive : index.sessions.lookup id = some session) (hip : session.vpnIp = some vpnIp)
    (hroutable : session.routable = true) : (index.getSessionByVpnIp vpnIp).1.isSome = true := by
  unfold getSessionByVpnIp
  cases index.indexed vpnIp with
  | some id => rfl
  | none =>
    have hscan : (index.scanned vpnIp).isSome = true := by
      rw [scanned, Option.isSome_map, List.find?_isSome]
      exact ⟨⟨id, session⟩, Table.mem_entries_iff.mpr hlive, by simp [hip, hroutable]⟩
    cases hfound : index.scanned vpnIp with
    | some id => rfl
    | none => rw [hfound] at hscan; cases hscan

end SessionIndex

/-- What the router reads of `GatewayConfig`. -/
structure Routing where
  networkConfig : Wire.VpnNetworkConfig
  allowPeerRouting : Bool

section

variable (text : Ipv6Text) (config : Routing)

/-- `inner_client_ipv4`, `gateway/mod.rs:3960-3968`. -/
def innerClientIpv4 : IpAddr → Option Ipv4Addr
  | .v4 ip => some ip
  | .v6 ip => config.networkConfig.clientIpForIpv6 text ip

/-- `session_for_inner_ip`, `gateway/mod.rs:458-464`. -/
def sessionForInnerIp (index : SessionIndex) (address : IpAddr) :
    Option (Vector UInt8 16) × SessionIndex :=
  match innerClientIpv4 text config address with
  | none => (none, index)
  | some ip => index.getSessionByVpnIp ip

/-- `session_allows_source`, `gateway/mod.rs:466-475`. -/
def sessionAllowsSource (session : RoutedSession) : IpAddr → Bool
  | .v4 ip => session.vpnIp = some ip
  | .v6 ip =>
    match config.networkConfig.clientIpForIpv6 text ip with
    | none => false
    | some assigned => session.vpnIp = some assigned

/-- What becomes of an inner packet: nothing, the bytes that go to `forward_client_data`, or the
handling of another type. -/
inductive Ingress where
  | ignored
  | forwarded (payload : Bytes)
  | other (kind : InnerType)
  deriving DecidableEq

/-- The branch of `InnerType::Data`, `packet_ingress.rs:1587-1627`, for a packet that came in one
piece; `gatesOpen` says whether the gates of the session are open. -/
def processData (gatesOpen : Bool) (index : SessionIndex) (session : RoutedSession)
    (payload : Bytes) : Ingress × SessionIndex :=
  if !gatesOpen then (.ignored, index)
  else
    match IpPacket.parse payload with
    | none => (.ignored, index)
    | some header =>
      if !sessionAllowsSource text config session header.source then (.ignored, index)
      else if config.allowPeerRouting then (.forwarded (payload.take header.length), index)
      else
        match sessionForInnerIp text config index header.destination with
        | (some _, index) => (.ignored, index)
        | (none, index) => (.forwarded (payload.take header.length), index)

/-- `process_inner_payload`, `packet_ingress.rs:1550-1627`, of the types other than `Data` only
that they are handled elsewhere. -/
def processInnerPayload (gatesOpen : Bool) (index : SessionIndex) (session : RoutedSession)
    (plaintext : Bytes) : Except Error (Ingress × SessionIndex) :=
  if plaintext.length < 4 then .error (.invalidPacket "Inner payload too short")
  else
    match InnerType.fromU16 (ofLe (slice plaintext 0 2)) with
    | none => .error (.invalidPacket "Unknown inner type")
    | some .data => .ok (processData text config gatesOpen index session (plaintext.drop 4))
    | some kind => .ok (.other kind, index)

variable {text config}

/-- A packet that is parsed is forwarded if its source is the session's own and its destination
may be reached. -/
theorem processData_of_parse {index : SessionIndex} {session : RoutedSession} {payload : Bytes}
    {header : IpPacket} (h : IpPacket.parse payload = some header) :
    (processData text config true index session payload).1 =
      if sessionAllowsSource text config session header.source = true ∧
          (config.allowPeerRouting = true ∨
            (sessionForInnerIp text config index header.destination).1 = none) then
        .forwarded (payload.take header.length)
      else .ignored := by
  simp only [processData, h, Bool.not_true, Bool.false_eq_true, if_false]
  cases sessionAllowsSource text config session header.source with
  | false => simp
  | true =>
    cases config.allowPeerRouting with
    | true => simp
    | false =>
      cases hfound : sessionForInnerIp text config index header.destination with
      | mk found index' => cases found <;> simp

end

end AivpnSpec.Gateway
