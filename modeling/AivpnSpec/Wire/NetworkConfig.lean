import AivpnSpec.Server.ClientDb.Addresses
import AivpnSpec.Wire.Text

/-!
# Network settings of server and client

`crates/aivpn-common/src/network_config.rs`. The server's settings extend the subnet that
addresses are allocated from; a client's settings are the part that a `ServerHello` carries, as
30 bytes on the wire.
-/

namespace AivpnSpec.Wire

open AivpnSpec.Base AivpnSpec.Common AivpnSpec.Server

/-- `Ipv4Addr::octets`. -/
def octets4 (ip : Ipv4Addr) : Bytes := beBytes 4 ip.toNat

variable (address : Ipv6Addr) {data : Bytes} {offset : Nat}

/-- `Ipv6Addr::octets`. -/
def octets6 : Bytes := beBytes 16 address.toNat

def ipv4At (data : Bytes) (offset : Nat) : Ipv4Addr := UInt32.ofNat (ofBe (slice data offset 4))

def ipv6At (data : Bytes) (offset : Nat) : Ipv6Addr := BitVec.ofNat 128 (ofBe (slice data offset 16))

@[simp]
theorem length_octets4 (ip : Ipv4Addr) : (octets4 ip).length = 4 := length_beBytes 4 _

@[simp]
theorem length_octets6 : (octets6 address).length = 16 := length_beBytes 16 _

theorem ipv4At_eq {ip : Ipv4Addr} (h : HasAt data offset (octets4 ip)) :
    ipv4At data offset = ip := by
  rw [ipv4At, h.ofBe_eq, show 256 ^ 4 = 2 ^ 32 from rfl, Nat.mod_eq_of_lt (UInt32.toNat_lt ip),
    UInt32.ofNat_toNat]

theorem ipv6At_eq {address : Ipv6Addr} (h : HasAt data offset (octets6 address)) :
    ipv6At data offset = address := by
  rw [ipv6At, h.ofBe_eq, show 256 ^ 16 = 2 ^ 128 from rfl, Nat.mod_eq_of_lt address.isLt,
    BitVec.ofNat_toNat, BitVec.setWidth_eq]

theorem hasAt_octets4 (h : offset + 4 ≤ data.length) :
    HasAt data offset (octets4 (ipv4At data offset)) := by
  have hlt := ofBe_lt (slice data offset 4)
  rw [length_slice h] at hlt
  rw [octets4, ipv4At, UInt32.toNat_ofNat_of_lt' hlt]
  exact hasAt_beBytes h

theorem hasAt_octets6 (h : offset + 16 ≤ data.length) :
    HasAt data offset (octets6 (ipv6At data offset)) := by
  have hlt := ofBe_lt (slice data offset 16)
  rw [length_slice h] at hlt
  rw [octets6, ipv6At, BitVec.toNat_ofNat, show 2 ^ 128 = 256 ^ 16 from rfl, Nat.mod_eq_of_lt hlt]
  exact hasAt_beBytes h

/-- `Ipv6Addr::is_unspecified`. -/
def isUnspecified6 : Bool := address = 0

/-- `Ipv6Addr::is_loopback`. -/
def isLoopback6 : Bool := address = 1

/-- `Ipv6Addr::is_multicast`. -/
def isMulticast6 : Bool := address >>> 120 = 0xff

/-- `Ipv6Addr::is_unicast_link_local`. -/
def isUnicastLinkLocal6 : Bool := address >>> 118 = 0x3fa

/-- `Ipv6Addr::to_ipv4_mapped().is_some()`. -/
def isIpv4Mapped6 : Bool := address >>> 32 = 0xffff

/-- `VpnNetworkConfig`, `network_config.rs:49-66`. -/
structure VpnNetworkConfig extends Server.VpnNetworkConfig where
  mtu : UInt16
  keepaliveSecs : Option UInt8
  ipv6Enabled : Bool
  ipv6Prefix : String

/-- `ClientNetworkConfig`, `network_config.rs:237-258`. -/
structure ClientNetworkConfig where
  clientIp : Ipv4Addr
  serverVpnIp : Ipv4Addr
  prefixLen : UInt8
  mtu : UInt16
  mdhLen : UInt16
  keepaliveSecs : Option UInt8
  ipv6Address : Option String
  ipv6PrefixLen : Option UInt8
  deriving DecidableEq

/-- `default_mdh_len`, `network_config.rs:260-262`. -/
def defaultMdhLen : UInt16 := 20

/-- `MAX_MASK_TUN_MTU`, `network_config.rs:8`. -/
def maxMaskTunMtu : UInt16 := 1500

/-- `default_ipv6_prefix`, `network_config.rs:44-46`. -/
def defaultIpv6Prefix : String := "fd10:cafe::/48"

/-- `str::split_once`. -/
def splitOnce (separator : Char) (s : String) : Option (String × String) :=
  match s.toList.dropWhile (· ≠ separator) with
  | [] => none
  | _ :: rest =>
    some (String.ofList (s.toList.takeWhile (· ≠ separator)), String.ofList rest)

/-- `u8::from_str`: decimal digits behind an optional plus sign. -/
def parseU8 (s : String) : Option UInt8 :=
  let digits := match s.toList with
    | '+' :: rest => rest
    | chars => chars
  if digits.isEmpty || !digits.all Char.isDigit then none
  else
    let value := digits.foldl (fun n c => n * 10 + (c.toNat - '0'.toNat)) 0
    if value < 256 then some (UInt8.ofNat value) else none

namespace VpnNetworkConfig

variable (text : Ipv6Text) (config : VpnNetworkConfig)

/-- `network_addr`, `network_config.rs:107-109`. -/
def networkAddr : Ipv4Addr := config.networkU32

/-- `broadcast_addr`, `network_config.rs:111-113`. -/
def broadcastAddr : Ipv4Addr := config.networkU32 ||| ~~~config.maskU32

/-- `contains`, `network_config.rs:115-117`. -/
def contains (ip : Ipv4Addr) : Bool := ip &&& config.maskU32 = config.networkU32

/-- `is_usable_host`, `network_config.rs:186-188`. -/
def isUsableHost (ip : Ipv4Addr) : Bool :=
  config.contains ip && ip ≠ config.networkAddr && ip ≠ config.broadcastAddr

/-- The bits of an IPv6 prefix, `u128::MAX << (128 - prefix)`. -/
def prefixMask (prefixLen : UInt8) : Ipv6Addr := BitVec.allOnes 128 <<< (128 - prefixLen.toNat)

/-- `ipv6_gateway`, `network_config.rs:124-143`. -/
def ipv6Gateway : Except Error (Ipv6Addr × UInt8) :=
  let invalid := .error (.invalidPacket "Invalid VPN IPv6 prefix")
  match splitOnce '/' config.ipv6Prefix with
  | none => invalid
  | some (addressText, prefixText) =>
    match text.parse addressText, parseU8 prefixText with
    | some address, some prefixLen =>
      if prefixLen = 0 ∨ 96 < prefixLen ∨ isMulticast6 address ∨ isLoopback6 address then invalid
      else
        let gateway := (address &&& prefixMask prefixLen) ||| 1
        if isLoopback6 gateway ∨ isUnicastLinkLocal6 gateway ∨ isIpv4Mapped6 gateway then invalid
        else .ok (gateway, prefixLen)
    | _, _ => invalid

/-- `client_ipv6`, `network_config.rs:146-161`. -/
def clientIpv6 (clientIp : Ipv4Addr) : Except Error (Option (Ipv6Addr × UInt8)) :=
  if !config.ipv6Enabled then .ok none
  else if !config.isUsableHost clientIp || clientIp = config.serverVpnIp then
    .error (.invalidPacket "Invalid client IPv4 for IPv6 allocation")
  else
    match config.ipv6Gateway text with
    | .error e => .error e
    | .ok (gateway, prefixLen) =>
      let base := gateway &&& prefixMask prefixLen
      .ok (some (base ||| clientIp.toBitVec.setWidth 128, prefixLen))

/-- `client_ip_for_ipv6`, `network_config.rs:163-167`. -/
def clientIpForIpv6 (address : Ipv6Addr) : Option Ipv4Addr :=
  let clientIp : Ipv4Addr := ⟨address.setWidth 32⟩
  match config.clientIpv6 text clientIp with
  | .ok (some (assigned, _)) => if assigned = address then some clientIp else none
  | _ => none

/-- What `validate` checks of the IPv6 settings, `network_config.rs:83-88`. -/
def validateIpv6 : Except Error Unit :=
  if !config.ipv6Enabled then .ok ()
  else
    match config.ipv6Gateway text with
    | .error e => .error e
    | .ok _ =>
      if config.mtu < 1280 then .error (.invalidPacket "IPv6 requires MTU of at least 1280")
      else .ok ()

/-- `validate`, `network_config.rs:82-101`. -/
def validate : Except Error Unit :=
  match config.validateIpv6 text with
  | .error e => .error e
  | .ok () =>
    if config.prefixLen < 1 ∨ 30 < config.prefixLen then
      .error (.invalidPacket "VPN prefix length must be in range 1..=30")
    else if config.serverVpnIp = config.networkAddr ∨
        config.serverVpnIp = config.broadcastAddr then
      .error (.invalidPacket "Server VPN IP must be a usable host address")
    else .ok ()

/-- `client_config`, `network_config.rs:197-219`. -/
def clientConfig (clientIp : Ipv4Addr) : Except Error ClientNetworkConfig :=
  match config.validate text with
  | .error e => .error e
  | .ok () =>
    if !config.isUsableHost clientIp then
      .error (.invalidPacket "Client VPN IP is outside configured VPN subnet")
    else if clientIp = config.serverVpnIp then
      .error (.invalidPacket "Client VPN IP cannot equal server VPN IP")
    else
      match config.clientIpv6 text clientIp with
      | .error e => .error e
      | .ok ipv6 =>
        .ok
          { clientIp := clientIp
            serverVpnIp := config.serverVpnIp
            prefixLen := config.prefixLen
            mtu := min config.mtu maxMaskTunMtu
            mdhLen := defaultMdhLen
            keepaliveSecs := config.keepaliveSecs
            ipv6Address := ipv6.map fun assigned => text.toText assigned.1
            ipv6PrefixLen := ipv6.map Prod.snd }

variable {text config}

theorem validate_prefixLen (h : config.validate text = .ok ()) :
    1 ≤ config.prefixLen ∧ config.prefixLen ≤ 30 := by
  unfold validate at h
  split at h
  · cases h
  · split at h
    · cases h
    · next hrange => rwa [not_or, UInt8.not_lt, UInt8.not_lt] at hrange

theorem clientConfig_validate {clientIp : Ipv4Addr} {assigned : ClientNetworkConfig}
    (h : config.clientConfig text clientIp = .ok assigned) : config.validate text = .ok () := by
  unfold clientConfig at h
  split at h
  · cases h
  · next hvalid => exact hvalid

end VpnNetworkConfig

namespace ClientNetworkConfig

/-- `WIRE_SIZE`, `network_config.rs:265`. -/
def wireSize : Nat := 30

/-- `WIRE_VERSION`, `network_config.rs:275`. -/
def wireVersion : UInt8 := 2

variable (text : Ipv6Text) (config : ClientNetworkConfig)

/-- `client_ipv6`, `network_config.rs:291-305`. -/
def clientIpv6 : Except Error (Option (Ipv6Addr × UInt8)) :=
  match config.ipv6Address, config.ipv6PrefixLen with
  | none, none => .ok none
  | some addressText, some prefixLen =>
    if 1 ≤ prefixLen ∧ prefixLen ≤ 96 ∧ 1280 ≤ config.mtu then
      match text.parse addressText with
      | none => .error (.invalidPacket "Invalid client IPv6")
      | some address =>
        if isUnspecified6 address ∨ isLoopback6 address ∨ isMulticast6 address then
          .error (.invalidPacket "Invalid client IPv6")
        else .ok (some (address, prefixLen))
    else .error (.invalidPacket "Invalid client IPv6 configuration")
  | _, _ => .error (.invalidPacket "Invalid client IPv6 configuration")

/-- The settings that `validate` checks the client's address against. -/
def subnet : VpnNetworkConfig where
  serverVpnIp := config.serverVpnIp
  prefixLen := config.prefixLen
  mtu := config.mtu
  keepaliveSecs := none
  ipv6Enabled := false
  ipv6Prefix := defaultIpv6Prefix

/-- `validate`, `network_config.rs:277-289`. -/
def validate : Except Error Unit :=
  match config.clientIpv6 text with
  | .error e => .error e
  | .ok _ =>
    match config.subnet.clientConfig text config.clientIp with
    | .error e => .error e
    | .ok _ => .ok ()

/-- The last 17 bytes of the wire form: prefix length and address. -/
def ipv6Wire : Bytes :=
  match config.clientIpv6 text with
  | .ok (some (address, prefixLen)) => prefixLen :: octets6 address
  | _ => List.replicate 17 0

/-- `encode_wire`, `network_config.rs:319-332`. -/
def encodeWire : Bytes :=
  [wireVersion, config.prefixLen] ++ u16Bytes config.mtu ++ octets4 config.serverVpnIp ++
    octets4 config.clientIp ++ [config.keepaliveSecs.getD 0] ++ config.ipv6Wire text

/-- The record that `decode_wire` builds, `network_config.rs:357-384`. -/
def readWire (data : Bytes) : ClientNetworkConfig :=
  let ipv6 : Bool := data.length = wireSize && byteAt data 13 ≠ 0
  { prefixLen := byteAt data 1
    mtu := u16At data 2
    serverVpnIp := ipv4At data 4
    clientIp := ipv4At data 8
    mdhLen := defaultMdhLen
    keepaliveSecs := if 13 ≤ data.length ∧ 0 < byteAt data 12 then some (byteAt data 12) else none
    ipv6Address := if ipv6 then some (text.toText (ipv6At data 14)) else none
    ipv6PrefixLen := if ipv6 then some (byteAt data 13) else none }

/-- `decode_wire`, `network_config.rs:334-387`. -/
def decodeWire (data : Bytes) : Except Error ClientNetworkConfig :=
  if data.length < 12 then
    .error (.invalidPacket "Client network config has invalid wire length")
  else if byteAt data 0 ≠ wireVersion then
    .error (.invalidPacket "Unsupported client network config wire version")
  else if byteAt data 1 < 1 ∨ 30 < byteAt data 1 then
    .error (.invalidPacket "Client network config prefix length out of range")
  else if 13 < data.length ∧ data.length ≠ wireSize then
    .error (.invalidPacket "Truncated IPv6 network config")
  else if data.length = wireSize ∧ byteAt data 13 = 0 ∧ (data.drop 14).any (· ≠ 0) then
    .error (.invalidPacket "IPv6 address without prefix length")
  else
    match (readWire text data).validate text with
    | .error e => .error e
    | .ok () => .ok (readWire text data)

/-- The settings as the wire carries them: zero seconds stand for no keepalive, the header length
is not sent, and the address is printed anew. -/
def onWire : ClientNetworkConfig :=
  { config with
    mdhLen := defaultMdhLen
    keepaliveSecs := config.keepaliveSecs.filter (0 < ·)
    ipv6Address := config.ipv6Address.map fun s => ((text.parse s).map text.toText).getD s }

variable {text config}

/-- What `validate` checks. -/
theorem validate_eq_ok_iff :
    config.validate text = .ok () ↔ (∃ ipv6, config.clientIpv6 text = .ok ipv6) ∧
      ∃ assigned, config.subnet.clientConfig text config.clientIp = .ok assigned := by
  unfold validate
  cases config.clientIpv6 text <;> cases config.subnet.clientConfig text config.clientIp <;> simp

variable {ipv6 : Option (Ipv6Addr × UInt8)}

/-- The address that settings name, when they name one. -/
theorem clientIpv6_eq_ok (h : config.clientIpv6 text = .ok ipv6) :
    (ipv6 = none ∧ config.ipv6Address = none ∧ config.ipv6PrefixLen = none) ∨
    (∃ s address prefixLen, ipv6 = some (address, prefixLen) ∧ config.ipv6Address = some s ∧
      config.ipv6PrefixLen = some prefixLen ∧ text.parse s = some address ∧ 1 ≤ prefixLen) := by
  unfold clientIpv6 at h
  split at h
  · next haddress hprefixed =>
    cases h
    exact .inl ⟨rfl, haddress, hprefixed⟩
  · next s prefixLen haddress hprefixed =>
    split at h
    · next hrange =>
      split at h
      · cases h
      next address hparse =>
      split at h
      · cases h
      · cases h
        exact .inr ⟨s, address, prefixLen, rfl, haddress, hprefixed, hparse, hrange.1⟩
    · cases h
  · cases h

/-- Printing the address anew does not change it. -/
theorem clientIpv6_onWire (h : config.clientIpv6 text = .ok ipv6) :
    (config.onWire text).clientIpv6 text = .ok ipv6 := by
  rcases clientIpv6_eq_ok h with
    ⟨-, haddress, hprefixed⟩ | ⟨s, address, prefixLen, -, haddress, hprefixed, hparse, -⟩
  · unfold clientIpv6 onWire at *
    simp only [haddress, hprefixed, Option.map_none] at h ⊢
    exact h
  · unfold clientIpv6 onWire at *
    simp only [haddress, hprefixed, hparse, Option.map_some, Option.getD_some,
      text.parse_toText] at h ⊢
    exact h

theorem length_ipv6Wire : (config.ipv6Wire text).length = 17 := by
  unfold ipv6Wire
  split <;> simp

theorem length_encodeWire : (config.encodeWire text).length = wireSize := by
  simp [encodeWire, length_ipv6Wire, wireSize]

/-- Where the fields of the wire form stand. -/
theorem hasAt_encodeWire (h : data = config.encodeWire text) :
    HasAt data 0 [wireVersion] ∧ HasAt data 1 [config.prefixLen] ∧
    HasAt data 2 (u16Bytes config.mtu) ∧ HasAt data 4 (octets4 config.serverVpnIp) ∧
    HasAt data 8 (octets4 config.clientIp) ∧ HasAt data 12 [config.keepaliveSecs.getD 0] ∧
    HasAt data 13 (config.ipv6Wire text) := by
  have hself := hasAt_of_eq h
  simp only [encodeWire, fields_at, length_octets4, Nat.reduceAdd] at hself
  obtain ⟨⟨⟨⟨⟨⟨hversion, hprefixLen⟩, hmtu⟩, hserver⟩, hclient⟩, hsecs⟩, hipv6⟩ := hself
  exact ⟨hversion, hprefixLen, hmtu, hserver, hclient, hsecs, hipv6⟩

/-- The tail of the wire form: zeros, or a prefix length and the address. -/
theorem ipv6Wire_cases (hipv6 : config.clientIpv6 text = .ok ipv6)
    (h : HasAt data 13 (config.ipv6Wire text)) :
    (ipv6 = none → byteAt data 13 = 0 ∧ HasAt data 14 (List.replicate 16 0)) ∧
    (∀ address prefixLen, ipv6 = some (address, prefixLen) →
      byteAt data 13 = prefixLen ∧ ipv6At data 14 = address) := by
  rw [ipv6Wire, hipv6] at h
  constructor
  · rintro rfl
    have hsplit : HasAt data 13 [0] ∧ HasAt data 14 (List.replicate 16 0) := hasAt_append.mp h
    exact ⟨hsplit.1.byteAt_eq, hsplit.2⟩
  · rintro address prefixLen rfl
    have hsplit : HasAt data 13 [prefixLen] ∧ HasAt data 14 (octets6 address) :=
      hasAt_append.mp h
    exact ⟨hsplit.1.byteAt_eq, ipv6At_eq hsplit.2⟩

/-- The record read from the wire form of settings with a proper address. -/
theorem readWire_encodeWire (hipv6 : config.clientIpv6 text = .ok ipv6) :
    readWire text (config.encodeWire text) = config.onWire text := by
  have hlength : (config.encodeWire text).length = wireSize := length_encodeWire
  obtain ⟨-, hprefixLen, hmtu, hserver, hclient, hsecs, htail⟩ :=
    hasAt_encodeWire (rfl : config.encodeWire text = _)
  have hkeep : (if 0 < config.keepaliveSecs.getD 0 then some (config.keepaliveSecs.getD 0)
      else none) = config.keepaliveSecs.filter (0 < ·) := by
    cases config.keepaliveSecs <;> simp [Option.filter]
  obtain ⟨hnone, hsome⟩ := ipv6Wire_cases hipv6 htail
  generalize config.encodeWire text = data at *
  have hlong : 13 ≤ wireSize := by decide
  unfold readWire onWire
  simp only [hprefixLen.byteAt_eq, hmtu.u16At_eq, ipv4At_eq hserver, ipv4At_eq hclient,
    hsecs.byteAt_eq, hlong, true_and, hkeep, hlength, decide_true, Bool.true_and]
  rcases clientIpv6_eq_ok hipv6 with
    ⟨rfl, haddress, hprefixed⟩ | ⟨s, address, prefixLen, rfl, haddress, hprefixed, hparse, hpositive⟩
  · simp [hnone rfl, haddress, hprefixed]
  obtain ⟨hbyte, hat⟩ := hsome address prefixLen rfl
  have hne : prefixLen ≠ 0 := by
    rintro rfl
    exact absurd hpositive (by decide)
  simp [hbyte, hat, hne, haddress, hprefixed, hparse]

/-- The decoder gives back what the wire carries of valid settings. -/
theorem decodeWire_encodeWire (h : config.validate text = .ok ()) :
    decodeWire text (config.encodeWire text) = .ok (config.onWire text) := by
  obtain ⟨⟨ipv6, hipv6⟩, assigned, hassigned⟩ := validate_eq_ok_iff.mp h
  have hprefixed := VpnNetworkConfig.validate_prefixLen
    (VpnNetworkConfig.clientConfig_validate hassigned)
  have hlength : (config.encodeWire text).length = wireSize := length_encodeWire
  obtain ⟨hversion, hprefixLen, -, -, -, -, htail⟩ :=
    hasAt_encodeWire (rfl : config.encodeWire text = _)
  obtain ⟨hnone, hsome⟩ := ipv6Wire_cases hipv6 htail
  unfold decodeWire
  have hvalid : (config.onWire text).validate text = .ok () :=
    validate_eq_ok_iff.mpr ⟨⟨_, clientIpv6_onWire hipv6⟩, (validate_eq_ok_iff.mp h).2⟩
  rw [readWire_encodeWire hipv6, hvalid]
  generalize config.encodeWire text = data at *
  rw [if_neg (by rw [hlength]; decide), if_neg (by rw [hversion.byteAt_eq]; decide),
    hprefixLen.byteAt_eq, if_neg (by rw [not_or, UInt8.not_lt, UInt8.not_lt]; exact hprefixed),
    if_neg (by rw [hlength]; decide), if_neg]
  rintro ⟨-, hzero, hany⟩
  rcases clientIpv6_eq_ok hipv6 with ⟨rfl, -, -⟩ | ⟨s, address, prefixLen, rfl, -, -, -, hpositive⟩
  · rw [(hnone rfl).2.drop_eq (by rw [hlength]; decide)] at hany
    exact absurd hany (by decide)
  · rw [(hsome address prefixLen rfl).1] at hzero
    rw [hzero] at hpositive
    exact absurd hpositive (by decide)

end ClientNetworkConfig

end AivpnSpec.Wire
