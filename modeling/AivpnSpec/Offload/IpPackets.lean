import AivpnSpec.Kernel.Address
import AivpnSpec.Wire.IpPacket
import Mathlib

/-!
# One parser of inner packets on both sides

The kernel's `aivpn_ip_parse` on a whole packet is userspace's `IpPacket::parse`: both accept the
same byte strings and read the same version, addresses and length.
-/

namespace AivpnSpec.Offload

open AivpnSpec.Base AivpnSpec.Common AivpnSpec.Server AivpnSpec.Kernel AivpnSpec.Wire List

/-- The bytes of an IPv4 address, as userspace hands them to the kernel. -/
def raw4 (ip : Ipv4Addr) : RawIpv4 := arrayAt 4 (octets4 ip) 0

def raw6 (address : Ipv6Addr) : RawIpv6 := arrayAt 16 (octets6 address) 0

variable {data : List UInt8} {offset : Nat}

/-- An array is read from the bytes that stand at its offset. -/
theorem arrayAt_of_hasAt {n : Nat} {bytes : List UInt8} (h : HasAt data offset bytes)
    (hlength : bytes.length = n) : arrayAt n bytes 0 = arrayAt n data offset := by
  apply Vector.ext
  intro i hi
  simp [arrayAt, byteAt, getD_eq_getElem?_getD, h.getElem?_eq (hlength ▸ hi)]

theorem raw4_ipv4At (h : offset + 4 ≤ data.length) :
    raw4 (ipv4At data offset) = arrayAt 4 data offset :=
  arrayAt_of_hasAt (hasAt_octets4 h) (length_octets4 _)

theorem raw6_ipv6At (h : offset + 16 ≤ data.length) :
    raw6 (ipv6At data offset) = arrayAt 16 data offset :=
  arrayAt_of_hasAt (hasAt_octets6 h) (length_octets6 _)

/-- An array that holds all the bytes. -/
theorem toList_arrayAt {n : Nat} (h : data.length = n) : (arrayAt n data 0).toList = data := by
  apply ext_getElem
  · rw [Vector.length_toList, h]
  · intro i _ hi
    simp [arrayAt, byteAt, getD_eq_getElem?_getD, getElem?_eq_getElem hi]

theorem toList_raw4 (ip : Ipv4Addr) : (raw4 ip).toList = octets4 ip :=
  toList_arrayAt (length_octets4 ip)

theorem toList_raw6 (address : Ipv6Addr) : (raw6 address).toList = octets6 address :=
  toList_arrayAt (length_octets6 address)

theorem raw4_inj {ip ip' : Ipv4Addr} : raw4 ip = raw4 ip' ↔ ip = ip' := by
  refine Function.Injective.eq_iff (Function.LeftInverse.injective
    (g := fun raw => ipv4At raw.toList 0) fun ip => ?_)
  exact ipv4At_eq (hasAt_of_eq (toList_raw4 ip))

theorem raw6_inj {address address' : Ipv6Addr} :
    raw6 address = raw6 address' ↔ address = address' := by
  refine Function.Injective.eq_iff (Function.LeftInverse.injective
    (g := fun raw => ipv6At raw.toList 0) fun address => ?_)
  exact ipv6At_eq (hasAt_of_eq (toList_raw6 address))

def versionOf : IpAddr → Nat
  | .v4 _ => 4
  | .v6 _ => 6

def field4 : IpAddr → RawIpv4
  | .v4 ip => raw4 ip
  | .v6 _ => Vector.replicate 4 0

def field6 : IpAddr → RawIpv6
  | .v4 _ => Vector.replicate 16 0
  | .v6 address => raw6 address

def viewOf (packet : IpPacket) : IpView where
  version := versionOf packet.source
  srcV4 := field4 packet.source
  dstV4 := field4 packet.destination
  srcV6 := field6 packet.source
  dstV6 := field6 packet.destination
  length := packet.length

/-- The kernel reads a 16-bit field as userspace does. -/
theorem be16At_eq {p : List UInt8} (h : offset + 2 ≤ p.length) :
    be16At p offset = ofBe (slice p offset 2) := by
  have hbyte : ∀ k < 2, p[offset + k]? = some (byteAt p (offset + k)) := by
    intro k hk
    rw [byteAt, getD_eq_getElem?_getD, getElem?_eq_getElem (by omega)]
    rfl
  have hslice : slice p offset 2 = [byteAt p offset, byteAt p (offset + 1)] := by
    apply ext_getElem?
    intro i
    rw [slice, getElem?_take, getElem?_drop]
    rcases i with _ | _ | i
    · exact hbyte 0 (by decide)
    · exact hbyte 1 (by decide)
    · rw [if_neg (by omega)]
      rfl
  have hlow := UInt8.toNat_lt (byteAt p (offset + 1))
  rw [hslice, be16At, ← Nat.shiftLeft_add_eq_or_of_lt hlow, Nat.shiftLeft_eq]
  simp [ofBe]

/-- The last checks of both parsers: the packet fits, and only zeros follow it. -/
theorem fits_eq (pktLen : Nat) (packet : IpPacket) {view : IpView} (h : viewOf packet = view)
    (padded : Prop) [Decidable padded] :
    (if pktLen < packet.length then none else if padded then none else some view) =
      if pktLen < packet.length ∨ padded then none else some (viewOf packet) := by
  by_cases hfits : pktLen < packet.length
  · simp [hfits]
  · by_cases hpadded : padded <;> simp [hfits, hpadded, h]

/-- What the kernel reads from a buffer that holds the first bytes of a packet. -/
theorem ipParse_eq (bytes : Bytes) {pktLen : Nat} (hbuffer : bytes.length ≤ pktLen) :
    ipParse bytes pktLen = (IpPacket.parseHeader bytes).bind fun packet =>
      if pktLen < packet.length ∨ (bytes.drop packet.length).any (· ≠ 0) = true then none
      else some (viewOf packet) := by
  by_cases hempty : bytes = []
  · rw [hempty]
    rfl
  have hpos : 0 < bytes.length := length_pos_iff.mpr hempty
  have hhead : bytes.head? = some (byteAt bytes 0) := by
    rw [head?_eq_getElem?, byteAt, getD_eq_getElem?_getD,
      getElem?_eq_getElem hpos]
    rfl
  have hsome : ¬ (bytes.length = 0 ∨ pktLen = 0 ∨ pktLen < bytes.length) := by omega
  unfold ipParse IpPacket.parseHeader
  rw [if_neg hsome, hhead]
  dsimp only
  generalize byteAt bytes 0 = first
  by_cases hfour : first >>> 4 = 4
  · by_cases hlen : 20 ≤ bytes.length
    · rw [if_pos hfour, if_neg (Nat.not_lt.mpr hlen), if_pos (And.intro hfour hlen),
        be16At_eq (show 2 + 2 ≤ bytes.length by omega)]
      generalize (first &&& 15).toNat * 4 = headerLen
      generalize ofBe (slice bytes 2 2) = length
      by_cases hheader : headerLen < 20 ∨ length < headerLen
      · have hrefused : headerLen < 20 ∨ length < headerLen ∨ pktLen < length := by tauto
        rw [if_pos hheader, if_pos hrefused]
        rfl
      have hsame : (headerLen < 20 ∨ length < headerLen ∨ pktLen < length) ↔
          pktLen < length := by tauto
      rw [if_neg hheader, if_congr hsame rfl rfl]
      apply fits_eq pktLen ⟨.v4 (ipv4At bytes 12), .v4 (ipv4At bytes 16), length⟩
      simp [viewOf, versionOf, field4, field6,
        raw4_ipv4At (show 12 + 4 ≤ bytes.length by omega),
        raw4_ipv4At (show 16 + 4 ≤ bytes.length by omega)]
    · have hsix : ¬ first >>> 4 = 6 := by
        rw [hfour]
        decide
      rw [if_pos hfour, if_pos (Nat.not_le.mp hlen), if_neg (mt And.right hlen),
        if_neg (mt And.left hsix)]
      rfl
  · rw [if_neg hfour, if_neg (mt And.left hfour)]
    by_cases hsix : first >>> 4 = 6
    · by_cases hlen : 40 ≤ bytes.length
      · rw [if_pos hsix, if_neg (Nat.not_lt.mpr hlen), if_pos (And.intro hsix hlen),
          be16At_eq (show 4 + 2 ≤ bytes.length by omega)]
        generalize ofBe (slice bytes 4 2) = payload
        by_cases hjumbo : payload = 0 ∧ byteAt bytes 6 ≠ 59
        · rw [if_pos hjumbo, if_pos hjumbo]
          rfl
        rw [if_neg hjumbo, if_neg hjumbo]
        apply fits_eq pktLen ⟨.v6 (ipv6At bytes 8), .v6 (ipv6At bytes 24), 40 + payload⟩
        simp [viewOf, versionOf, field4, field6,
          raw6_ipv6At (show 8 + 16 ≤ bytes.length by omega),
          raw6_ipv6At (show 24 + 16 ≤ bytes.length by omega)]
      · rw [if_pos hsix, if_pos (Nat.not_le.mp hlen), if_neg (mt And.right hlen)]
        rfl
    · rw [if_neg hsix, if_neg (mt And.left hsix)]
      rfl

/-- Both parsers accept the same byte strings, and read the same version, source, destination and
length. -/
theorem ipParse_eq_parse (bytes : Bytes) :
    ipParse bytes bytes.length = (IpPacket.parse bytes).map viewOf := by
  rw [ipParse_eq bytes (le_refl bytes.length), IpPacket.parse]
  cases IpPacket.parseHeader bytes with
  | none => rfl
  | some packet =>
    simp only [Option.bind_some]
    split <;> rfl

end AivpnSpec.Offload
