import AivpnSpec.Wire.NetworkConfig

/-!
# Inner IP packets

`crates/aivpn-common/src/ip_packet.rs`: the checks of length and header before a packet is routed.
-/

namespace AivpnSpec.Wire

open AivpnSpec.Base AivpnSpec.Common AivpnSpec.Server

/-- `std::net::IpAddr`. -/
inductive IpAddr where
  | v4 (ip : Ipv4Addr)
  | v6 (ip : Ipv6Addr)
  deriving DecidableEq

/-- `IpPacket`, `ip_packet.rs:5-10`. -/
structure IpPacket where
  source : IpAddr
  destination : IpAddr
  length : Nat
  deriving DecidableEq

namespace IpPacket

/-- The header fields by version, `ip_packet.rs:15-39`. -/
def parseHeader (bytes : Bytes) : Option IpPacket :=
  match bytes.head? with
  | none => none
  | some first =>
    if first >>> 4 = 4 ∧ 20 ≤ bytes.length then
      let headerLen := (first &&& 15).toNat * 4
      let length := ofBe (slice bytes 2 2)
      if headerLen < 20 ∨ length < headerLen then none
      else
        some
          { source := .v4 (ipv4At bytes 12)
            destination := .v4 (ipv4At bytes 16)
            length := length }
    else if first >>> 4 = 6 ∧ 40 ≤ bytes.length then
      let payload := ofBe (slice bytes 4 2)
      if payload = 0 ∧ byteAt bytes 6 ≠ 59 then none
      else
        some
          { source := .v6 (ipv6At bytes 8)
            destination := .v6 (ipv6At bytes 24)
            length := 40 + payload }
    else none

/-- `IpPacket::parse`, `ip_packet.rs:14-46`: only zeros may follow the packet. -/
def parse (bytes : Bytes) : Option IpPacket :=
  match parseHeader bytes with
  | none => none
  | some packet =>
    if bytes.length < packet.length ∨ (bytes.drop packet.length).any (· ≠ 0) then none
    else some packet

/-- An accepted packet is no longer than the bytes it was parsed from. -/
theorem length_le {bytes : Bytes} {packet : IpPacket} (h : parse bytes = some packet) :
    packet.length ≤ bytes.length := by
  unfold parse at h
  split at h
  · cases h
  split at h
  · cases h
  · next hfits =>
    cases h
    exact Nat.not_lt.mp fun hlt => hfits (.inl hlt)

end IpPacket

end AivpnSpec.Wire
