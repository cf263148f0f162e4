import AivpnSpec.Offload.IpPackets

/-!
# IPv6 addresses of clients

Userspace computes the IPv6 address of a client by 128-bit arithmetic, `network_config.rs:124-167`,
the kernel by a loop over bytes, `policy.h:182-222`. Both give the same address, and it determines
the client. The gateway holds the address that IPv4 address 0.0.0.1 would get, so it is no client's
exactly if the subnet has no such client.
-/

namespace AivpnSpec.Offload

open AivpnSpec.Base AivpnSpec.Common AivpnSpec.Server AivpnSpec.Kernel AivpnSpec.Wire

/-- Bytes with the same bits are the same. -/
theorem byte_ext {a b : UInt8} (h : ∀ j < 8, a.toNat.testBit j = b.toNat.testBit j) : a = b := by
  apply UInt8.toNat_inj.mp
  apply Nat.eq_of_testBit_eq
  intro j
  by_cases hj : j < 8
  · exact h j hj
  · have hbound : ∀ c : UInt8, c.toNat < 2 ^ j := fun c =>
      lt_of_lt_of_le c.toNat_lt (Nat.pow_le_pow_right (by decide) (Nat.not_lt.mp hj))
    rw [Nat.testBit_lt_two_pow (hbound a), Nat.testBit_lt_two_pow (hbound b)]

theorem byteAt_beBytes {w i : Nat} (x : Nat) (hi : i < w) :
    byteAt (beBytes w x) i = UInt8.ofNat (x / 256 ^ (w - 1 - i)) := by
  induction w generalizing i with
  | zero => omega
  | succ w ih =>
    cases i with
    | zero => rfl
    | succ i =>
      rw [show w + 1 - 1 - (i + 1) = w - 1 - i by omega, ← ih (by omega)]
      rfl

/-- A bit of a big-endian encoding. -/
theorem testBit_beBytes {w i j : Nat} (x : Nat) (hi : i < w) (hj : j < 8) :
    (byteAt (beBytes w x) i).toNat.testBit j = x.testBit (8 * (w - 1 - i) + j) := by
  rw [byteAt_beBytes x hi, UInt8.toNat_ofNat', show (256 : Nat) = 2 ^ 8 from rfl, ← Nat.pow_mul,
    Nat.testBit_mod_two_pow, Nat.testBit_div_two_pow]
  simp [hj, Nat.add_comm]

theorem testBit_octets6 (address : Ipv6Addr) {i j : Nat} (hi : i < 16) (hj : j < 8) :
    (byteAt (octets6 address) i).toNat.testBit j = address.getLsbD (8 * (15 - i) + j) :=
  testBit_beBytes address.toNat hi hj

theorem testBit_octets4 (ip : Ipv4Addr) {i j : Nat} (hi : i < 4) (hj : j < 8) :
    (byteAt (octets4 ip) i).toNat.testBit j = ip.toBitVec.getLsbD (8 * (3 - i) + j) :=
  testBit_beBytes ip.toNat hi hj

theorem testBit_maskOctets6 {prefixLen : Nat} (hlen : prefixLen ≤ 128) (address : Ipv6Addr)
    {i j : Nat} (hi : i < 16) (hj : j < 8) :
    (byteAt (maskOctets prefixLen (octets6 address)) i).toNat.testBit j =
      (decide (128 - prefixLen ≤ 8 * (15 - i) + j) && address.getLsbD (8 * (15 - i) + j)) := by
  rw [testBit_maskOctets _ _ _ hj, testBit_octets6 address hi hj]
  congr 1
  apply decide_eq_decide.mpr
  omega

/-- The address that userspace puts together from a prefix and an IPv4 address. -/
def assignedIpv6 (address : Ipv6Addr) (prefixLen : UInt8) (ip : Ipv4Addr) : Ipv6Addr :=
  (address &&& VpnNetworkConfig.prefixMask prefixLen) ||| ip.toBitVec.setWidth 128

variable {prefixLen : UInt8}

theorem getLsbD_assignedIpv6 (address : Ipv6Addr) (ip : Ipv4Addr) {k : Nat} (hk : k < 128) :
    (assignedIpv6 address prefixLen ip).getLsbD k =
      ((decide (128 - prefixLen.toNat ≤ k) && address.getLsbD k) || ip.toBitVec.getLsbD k) := by
  simp only [assignedIpv6, VpnNetworkConfig.prefixMask, BitVec.getLsbD_or, BitVec.getLsbD_and,
    BitVec.getLsbD_shiftLeft, BitVec.getLsbD_allOnes, BitVec.getLsbD_setWidth]
  by_cases hin : 128 - prefixLen.toNat ≤ k
  · have hbit : k - (128 - prefixLen.toNat) < 128 := by omega
    simp [hin, hk, hbit, Nat.not_lt.mpr hin]
  · simp [hin, hk]

/-- The kernel's bytes are those of the address that userspace computes. -/
theorem ipv6Assigned_eq (hlen : prefixLen.toNat ≤ 128) (address : Ipv6Addr) (ip : Ipv4Addr) :
    ipv6Assigned (raw6 address) prefixLen (raw4 ip) = raw6 (assignedIpv6 address prefixLen ip) := by
  apply Vector.ext
  intro i hi
  have hright : (raw6 (assignedIpv6 address prefixLen ip))[i] =
      byteAt (octets6 (assignedIpv6 address prefixLen ip)) i := by
    simp [raw6, arrayAt]
  rw [hright]
  apply byte_ext
  intro j hj
  rw [testBit_octets6 _ hi hj, getLsbD_assignedIpv6 address ip (by omega)]
  simp only [ipv6Assigned, Vector.getElem_ofFn, toList_raw4, toList_raw6]
  split
  · next hlow =>
    rw [testBit_maskOctets6 hlen address hi hj]
    have hout : ip.toBitVec.getLsbD (8 * (15 - i) + j) = false :=
      BitVec.getLsbD_of_ge _ _ (by omega)
    rw [hout, Bool.or_false]
  · next hhigh =>
    rw [UInt8.toNat_or, Nat.testBit_or, testBit_maskOctets6 hlen address hi hj,
      testBit_octets4 ip (by omega) hj,
      show 3 - (i - 12) = 15 - i by omega]

variable (text : Ipv6Text) (config : Wire.VpnNetworkConfig)

/-- `ipv6_policy_prefix`, `gateway/kernel_offload.rs:416-430`: the prefix that the kernel gets. -/
def ipv6PolicyPrefix : Option (RawIpv6 × UInt8) :=
  if !config.ipv6Enabled then none
  else
    match splitOnce '/' config.ipv6Prefix with
    | none => none
    | some (addressText, prefixText) =>
      match text.parse addressText, parseU8 prefixText with
      | some address, some prefixLen =>
        if prefixLen = 0 ∨ 96 < prefixLen then none
        else some (raw6 (address &&& VpnNetworkConfig.prefixMask prefixLen), prefixLen)
      | _, _ => none

def isClientAddress (ip : Ipv4Addr) : Bool := config.isUsableHost ip && ip ≠ config.serverVpnIp

variable {text config} {gateway : Ipv6Addr} {prefixLen : UInt8}

/-- What the settings hold if there is a gateway. -/
theorem ipv6Gateway_eq_ok (h : config.ipv6Gateway text = .ok (gateway, prefixLen)) :
    ∃ addressText prefixText address,
      splitOnce '/' config.ipv6Prefix = some (addressText, prefixText) ∧
      text.parse addressText = some address ∧ parseU8 prefixText = some prefixLen ∧
      0 < prefixLen.toNat ∧ prefixLen.toNat ≤ 96 ∧
      gateway = assignedIpv6 address prefixLen 1 ∧ ¬isMulticast6 address ∧
      ¬isLoopback6 gateway := by
  unfold VpnNetworkConfig.ipv6Gateway at h
  split at h
  · cases h
  next addressText prefixText hsplit =>
  split at h
  · next address len haddress hlen =>
    split at h
    · cases h
    next hrange =>
    simp only at h
    split at h
    · cases h
    next hown =>
    injection h with h
    injection h with hgateway hprefixed
    subst hprefixed hgateway
    refine ⟨addressText, prefixText, address, hsplit, haddress, hlen, ?_, ?_, rfl,
      fun h => hrange (.inr (.inr (.inl h))), fun h => hown (.inl h)⟩
    · have hzero : len ≠ 0 := fun h => hrange (.inl h)
      exact Nat.pos_of_ne_zero fun h => hzero (UInt8.toNat_inj.mp h)
    · have hlarge : ¬ 96 < len := fun h => hrange (.inr (.inl h))
      exact UInt8.le_iff_toNat_le.mp (UInt8.not_lt.mp hlarge)
  · cases h

/-- Nothing of the gateway's host part gets into the address of a client. -/
theorem assignedIpv6_gateway (address : Ipv6Addr) (ip : Ipv4Addr) (hlen : prefixLen.toNat ≤ 96) :
    assignedIpv6 ((address &&& VpnNetworkConfig.prefixMask prefixLen) ||| 1) prefixLen ip =
      assignedIpv6 address prefixLen ip := by
  have hgateway : (address &&& VpnNetworkConfig.prefixMask prefixLen) ||| 1 =
      assignedIpv6 address prefixLen 1 := rfl
  apply BitVec.eq_of_getLsbD_eq
  intro k hk
  rw [hgateway, getLsbD_assignedIpv6 _ ip hk, getLsbD_assignedIpv6 _ ip hk,
    getLsbD_assignedIpv6 _ 1 hk]
  by_cases hin : 128 - prefixLen.toNat ≤ k
  · have hout : (1 : Ipv4Addr).toBitVec.getLsbD k = false := BitVec.getLsbD_of_ge _ _ (by omega)
    simp only [hin, hout, decide_true, Bool.true_and, Bool.or_false]
  · simp [hin]

/-- The last 32 bits are the client's IPv4 address. -/
theorem setWidth_assignedIpv6 (address : Ipv6Addr) (ip : Ipv4Addr) (hlen : prefixLen.toNat ≤ 96) :
    (assignedIpv6 address prefixLen ip).setWidth 32 = ip.toBitVec := by
  apply BitVec.eq_of_getLsbD_eq
  intro k hk
  rw [BitVec.getLsbD_setWidth, getLsbD_assignedIpv6 _ ip (by omega)]
  have hout : ¬ 128 - prefixLen.toNat ≤ k := by omega
  simp [hk, hout]

theorem assignedIpv6_inj {address : Ipv6Addr} {ip ip' : Ipv4Addr} (hlen : prefixLen.toNat ≤ 96)
    (h : assignedIpv6 address prefixLen ip = assignedIpv6 address prefixLen ip') : ip = ip' := by
  apply UInt32.toBitVec_inj.mp
  rw [← setWidth_assignedIpv6 address ip hlen, h, setWidth_assignedIpv6 address ip' hlen]

/-- Clients get their addresses from the configured prefix. -/
structure Assigns (text : Ipv6Text) (config : Wire.VpnNetworkConfig) (address : Ipv6Addr)
    (prefixLen : UInt8) : Prop where
  positive : 0 < prefixLen.toNat
  short : prefixLen.toNat ≤ 96
  gateway : config.ipv6Gateway text = .ok (assignedIpv6 address prefixLen 1, prefixLen)
  policy : ipv6PolicyPrefix text config =
    some (raw6 (address &&& VpnNetworkConfig.prefixMask prefixLen), prefixLen)
  client : ∀ ip, isClientAddress config ip = true →
    config.clientIpv6 text ip = .ok (some (assignedIpv6 address prefixLen ip, prefixLen))
  foreign : ∀ ip, isClientAddress config ip = false → config.clientIpv6 text ip =
    .error (.invalidPacket "Invalid client IPv4 for IPv6 allocation")

theorem prefixLen_range (hpositive : 0 < prefixLen.toNat) (hshort : prefixLen.toNat ≤ 96) :
    ¬ (prefixLen = 0 ∨ 96 < prefixLen) := by
  rintro (rfl | hlarge)
  · exact absurd hpositive (by decide)
  · exact absurd (UInt8.lt_iff_toNat_lt.mp hlarge) (Nat.not_lt.mpr hshort)

theorem assigns_of_gateway (henabled : config.ipv6Enabled = true)
    (h : config.ipv6Gateway text = .ok (gateway, prefixLen)) :
    ∃ address, Assigns text config address prefixLen := by
  obtain ⟨addressText, prefixText, address, hsplit, haddress, hlen, hpositive, hshort, rfl, -⟩ :=
    ipv6Gateway_eq_ok h
  refine ⟨address, hpositive, hshort, h, ?_, ?_, ?_⟩
  · simp [ipv6PolicyPrefix, henabled, hsplit, haddress, hlen, prefixLen_range hpositive hshort]
  · intro ip hip
    have haccept : (!config.isUsableHost ip || decide (ip = config.serverVpnIp)) = false := by
      simpa [isClientAddress] using hip
    simp only [VpnNetworkConfig.clientIpv6, henabled, haccept, h]
    rw [← assignedIpv6_gateway address ip hshort]
    rfl
  · intro ip hip
    have hrefuse : (!config.isUsableHost ip || decide (ip = config.serverVpnIp)) = true := by
      rw [← Bool.not_eq_false', ← hip, isClientAddress, Bool.not_or, Bool.not_not, decide_not]
    simp [VpnNetworkConfig.clientIpv6, henabled, hrefuse]

namespace Assigns

variable {address a : Ipv6Addr} {ip : Ipv4Addr} {len : UInt8}

section

variable (h : Assigns text config address prefixLen)

include h

theorem clientIpv6_iff : config.clientIpv6 text ip = .ok (some (a, len)) ↔
      isClientAddress config ip = true ∧ a = assignedIpv6 address prefixLen ip ∧
        len = prefixLen := by
  cases hip : isClientAddress config ip with
  | false =>
    rw [h.foreign ip hip]
    simp
  | true =>
    rw [h.client ip hip]
    simp [eq_comm]

/-- Userspace finds the client of an address exactly if the address was assigned to it. -/
theorem clientIpForIpv6_iff : config.clientIpForIpv6 text a = some ip ↔
      isClientAddress config ip = true ∧ a = assignedIpv6 address prefixLen ip := by
  unfold VpnNetworkConfig.clientIpForIpv6
  constructor
  · intro hfound
    simp only at hfound
    split at hfound
    · next assigned len hassigned =>
      split at hfound
      · next heq =>
        injection hfound with hfound
        rw [h.clientIpv6_iff, hfound, heq] at hassigned
        exact ⟨hassigned.1, hassigned.2.1⟩
      · cases hfound
    · cases hfound
  · rintro ⟨hip, rfl⟩
    rw [setWidth_assignedIpv6 address ip h.short]
    simp only [h.client ip hip, if_true]

/-- The kernel computes the address from the prefix that it was given. -/
theorem ipv6Assigned_policy :
    ipv6Assigned (raw6 (address &&& VpnNetworkConfig.prefixMask prefixLen)) prefixLen (raw4 ip) =
      raw6 (assignedIpv6 address prefixLen ip) := by
  rw [ipv6Assigned_eq (le_trans h.short (by decide)), assignedIpv6, BitVec.and_assoc,
    BitVec.and_self]
  rfl

/-- The kernel recognises exactly the address that was assigned. -/
theorem ipv6Matches_iff :
    ipv6Matches (raw6 (address &&& VpnNetworkConfig.prefixMask prefixLen)) prefixLen (raw4 ip)
      (raw6 a) = true ↔ a = assignedIpv6 address prefixLen ip := by
  rw [ipv6Matches, if_neg (prefixLen_range h.positive h.short), h.ipv6Assigned_policy,
    decide_eq_true_iff, raw6_inj, eq_comm]

end

end Assigns

/-- Where IPv6 is enabled and the settings have a gateway, every accepted client has the address
that the kernel computes for it, no other client has it, and userspace finds the client by it. The
gateway is no client's address exactly if 0.0.0.1 is not accepted for a client. -/
theorem clientIpv6_identifies_client (text : Ipv6Text) (config : Wire.VpnNetworkConfig)
    (gateway : Ipv6Addr) (prefixLen : UInt8) (henabled : config.ipv6Enabled = true)
    (hgateway : config.ipv6Gateway text = .ok (gateway, prefixLen)) :
    (∀ ip, isClientAddress config ip = true → ∃ networkPrefix address,
      ipv6PolicyPrefix text config = some (networkPrefix, prefixLen) ∧
      config.clientIpv6 text ip = .ok (some (address, prefixLen)) ∧
      ipv6Assigned networkPrefix prefixLen (raw4 ip) = raw6 address) ∧
    (∀ ip ip', isClientAddress config ip = true → isClientAddress config ip' = true →
      config.clientIpv6 text ip = config.clientIpv6 text ip' → ip = ip') ∧
    (∀ ip address, config.clientIpForIpv6 text address = some ip ↔
      config.clientIpv6 text ip = .ok (some (address, prefixLen))) ∧
    ((∀ ip, config.clientIpv6 text ip ≠ .ok (some (gateway, prefixLen))) ↔
      isClientAddress config 1 = false) := by
  obtain ⟨address, h⟩ := assigns_of_gateway henabled hgateway
  refine ⟨?_, ?_, ?_, ?_⟩
  · intro ip hip
    exact ⟨_, _, h.policy, h.client ip hip, h.ipv6Assigned_policy⟩
  · intro ip ip' hip hip' hsame
    rw [h.client ip hip, h.client ip' hip'] at hsame
    injection hsame with hsame
    injection hsame with hsame
    injection hsame with hsame
    exact assignedIpv6_inj h.short hsame
  · intro ip a
    rw [h.clientIpForIpv6_iff, h.clientIpv6_iff]
    simp
  · have hown : gateway = assignedIpv6 address prefixLen 1 := by
      have heq := hgateway.symm.trans h.gateway
      injection heq with heq
      injection heq
    constructor
    · intro hnone
      apply Bool.eq_false_iff.mpr
      intro hone
      exact hnone 1 (h.clientIpv6_iff.mpr ⟨hone, hown, rfl⟩)
    · intro hone ip hassigned
      obtain ⟨hip, hsame, -⟩ := h.clientIpv6_iff.mp hassigned
      rw [assignedIpv6_inj h.short (hsame.symm.trans hown), hone] at hip
      cases hip

/-- A reader of the default prefix; other addresses are in unary. -/
def sampleText : Ipv6Text where
  parse s := some (if s = "fd10:cafe::" then 0xfd10cafe#128 <<< 96 else BitVec.ofNat 128 s.length)
  toText address := String.ofList (List.replicate address.toNat '1')
  parse_toText := by
    intro address
    have hother : String.ofList (List.replicate address.toNat '1') ≠ "fd10:cafe::" := by
      intro h
      have hmem : 'f' ∈ List.replicate address.toNat '1' := by
        rw [← String.toList_ofList (l := List.replicate address.toNat '1'), h]
        decide
      exact absurd (List.eq_of_mem_replicate hmem) (by decide)
    rw [if_neg hother]
    simp

def sampleNetwork (serverVpnIp : Ipv4Addr) : Wire.VpnNetworkConfig where
  serverVpnIp := serverVpnIp
  prefixLen := 24
  mtu := 1420
  keepaliveSecs := none
  ipv6Enabled := true
  ipv6Prefix := defaultIpv6Prefix

theorem clientIpv6_identifies_client_sampleNetwork :
    (sampleNetwork 0x0a000001).validate sampleText = .ok () ∧
    ∀ ip, (sampleNetwork 0x0a000001).clientIpv6 sampleText ip ≠
      .ok (some ((0xfd10cafe#128 <<< 96) ||| 1, 48)) :=
  ⟨by decide +kernel,
    (clientIpv6_identifies_client sampleText (sampleNetwork 0x0a000001) _ 48 rfl
      (by decide +kernel)).2.2.2.mpr (by decide)⟩

/-- The server at 0.0.0.2 passes validation, and its client at 0.0.0.1 gets the address of the
gateway. -/
theorem clientIpv6_eq_gateway :
    (sampleNetwork 2).validate sampleText = .ok () ∧
    ∃ gateway prefixLen, (sampleNetwork 2).ipv6Gateway sampleText = .ok (gateway, prefixLen) ∧
      (sampleNetwork 2).clientIpv6 sampleText 1 = .ok (some (gateway, prefixLen)) :=
  ⟨by decide +kernel, (0xfd10cafe#128 <<< 96) ||| 1, 48, by decide +kernel, by decide +kernel⟩

end AivpnSpec.Offload
