import AivpnSpec.Offload.Ipv6

/-!
# The settings that a client is sent

What `client_config` returns is valid for the client too, so the wire carries all of it, except that
a keepalive of zero seconds reads as none.
-/

namespace AivpnSpec.Wire

open AivpnSpec.Common AivpnSpec.Offload AivpnSpec.Server

variable {text : Ipv6Text} {config : VpnNetworkConfig} {clientIp : Ipv4Addr}

namespace VpnNetworkConfig

theorem clientConfig_eq_ok {assigned : ClientNetworkConfig}
    (h : config.clientConfig text clientIp = .ok assigned) :
    config.validate text = .ok () ∧ isClientAddress config clientIp = true ∧
      ∃ ipv6, config.clientIpv6 text clientIp = .ok ipv6 ∧
        assigned = ⟨clientIp, config.serverVpnIp, config.prefixLen, min config.mtu maxMaskTunMtu,
          defaultMdhLen, config.keepaliveSecs, ipv6.map fun assigned => text.toText assigned.1,
          ipv6.map Prod.snd⟩ := by
  have hvalid := clientConfig_validate h
  rw [clientConfig, hvalid] at h
  dsimp only at h
  split at h
  · cases h
  next husable =>
  split at h
  · cases h
  next hserver =>
  split at h
  · cases h
  next ipv6 hipv6 =>
  cases h
  refine ⟨hvalid, ?_, ipv6, hipv6, rfl⟩
  simpa [isClientAddress, hserver] using husable

/-- An assigned address is one that a client accepts. -/
theorem assigned_proper {gateway : Ipv6Addr} {prefixLen : UInt8}
    (h : config.ipv6Gateway text = .ok (gateway, prefixLen))
    (hip : isClientAddress config clientIp = true) :
    1 ≤ prefixLen ∧ prefixLen ≤ 96 ∧
      ¬(isUnspecified6 (assignedIpv6 gateway prefixLen clientIp) ∨
        isLoopback6 (assignedIpv6 gateway prefixLen clientIp) ∨
        isMulticast6 (assignedIpv6 gateway prefixLen clientIp)) := by
  obtain ⟨-, -, address, -, -, -, hpositive, hshort, rfl, hmulticast, hloopback⟩ :=
    ipv6Gateway_eq_ok h
  have hlow := setWidth_assignedIpv6 address clientIp hshort
  have hsame : assignedIpv6 (assignedIpv6 address prefixLen 1) prefixLen clientIp =
      assignedIpv6 address prefixLen clientIp := assignedIpv6_gateway address clientIp hshort
  rw [hsame]
  refine ⟨UInt8.le_iff_toNat_le.mpr hpositive, UInt8.le_iff_toNat_le.mpr hshort, ?_⟩
  simp only [isUnspecified6, isLoopback6, isMulticast6, decide_eq_true_eq] at hmulticast hloopback ⊢
  rintro (hzero | hone | hgroup)
  · -- 0.0.0.0 is the network's address wherever it is in the subnet
    obtain rfl : clientIp = 0 := UInt32.toBitVec_inj.mp (by rw [← hlow, hzero]; rfl)
    simp only [isClientAddress, isUsableHost, contains, networkAddr, UInt32.zero_and,
      Bool.and_eq_true, decide_eq_true_eq] at hip
    exact of_decide_eq_true hip.1.1.2 hip.1.1.1
  · obtain rfl : clientIp = 1 := UInt32.toBitVec_inj.mp (by rw [← hlow, hone]; rfl)
    exact hloopback hone
  · apply hmulticast
    rw [← hgroup]
    apply BitVec.eq_of_getLsbD_eq
    intro i hi
    have hbit := congrArg (fun a => a.getLsbD i) hgroup
    simp only [BitVec.getLsbD_ushiftRight] at hbit ⊢
    by_cases hin : i < 8
    · have hones : ∀ i < 8, (255 : Ipv6Addr).getLsbD i = true := by decide
      have hout : clientIp.toBitVec.getLsbD (120 + i) = false := BitVec.getLsbD_of_ge _ _ (by omega)
      rw [hbit, hones i hin]
      rw [getLsbD_assignedIpv6 address clientIp (by omega), hout, Bool.or_false, hones i hin,
        Bool.and_eq_true] at hbit
      exact hbit.2
    · rw [BitVec.getLsbD_of_ge _ _ (by omega), BitVec.getLsbD_of_ge _ _ (by omega)]

end VpnNetworkConfig

namespace ClientNetworkConfig

variable {assigned : ClientNetworkConfig}

/-- Settings that the server accepts are accepted by the client. -/
theorem clientIpv6_assigned (h : config.clientConfig text clientIp = .ok assigned) :
    ∃ ipv6, assigned.clientIpv6 text = .ok ipv6 ∧
      assigned.ipv6Address = ipv6.map fun assigned => text.toText assigned.1 := by
  obtain ⟨hvalid, hip, ipv6, hipv6, rfl⟩ := VpnNetworkConfig.clientConfig_eq_ok h
  refine ⟨ipv6, ?_, rfl⟩
  unfold VpnNetworkConfig.validate VpnNetworkConfig.validateIpv6 at hvalid
  unfold VpnNetworkConfig.clientIpv6 at hipv6
  cases henabled : config.ipv6Enabled with
  | false =>
    rw [henabled] at hipv6
    cases hipv6
    rfl
  | true =>
    have haccept : (!config.isUsableHost clientIp || decide (clientIp = config.serverVpnIp)) =
        false := by simpa [isClientAddress] using hip
    rw [henabled, haccept] at hipv6
    rw [henabled] at hvalid
    cases hgateway : config.ipv6Gateway text with
    | error e =>
      rw [hgateway] at hipv6
      cases hipv6
    | ok gateway =>
      rw [hgateway] at hipv6 hvalid
      cases hipv6
      obtain ⟨hpositive, hshort, hproper⟩ := VpnNetworkConfig.assigned_proper hgateway hip
      have hlarge : ¬config.mtu < 1280 := by
        intro hlow
        simp [hlow] at hvalid
      have hmtu : 1280 ≤ min config.mtu maxMaskTunMtu := by
        show 1280 ≤ if config.mtu ≤ maxMaskTunMtu then config.mtu else maxMaskTunMtu
        split
        · exact UInt16.not_lt.mp hlarge
        · decide
      simp only [clientIpv6, Option.map_some, text.parse_toText]
      rw [if_pos ⟨hpositive, hshort, hmtu⟩]
      exact if_neg hproper

theorem validate_assigned (h : config.clientConfig text clientIp = .ok assigned) :
    assigned.validate text = .ok () := by
  obtain ⟨ipv6, hipv6, -⟩ := clientIpv6_assigned h
  obtain ⟨hvalid, hip, assigned6, -, rfl⟩ := VpnNetworkConfig.clientConfig_eq_ok h
  refine validate_eq_ok_iff.mpr ⟨⟨ipv6, hipv6⟩, ?_⟩
  simp only [isClientAddress, Bool.and_eq_true, decide_eq_true_eq] at hip
  have husable : ¬(!config.isUsableHost clientIp) = true := by simp [hip.1]
  unfold VpnNetworkConfig.validate at hvalid
  split at hvalid
  · cases hvalid
  split_ifs at hvalid with hrange hserver
  have hsubnet : (subnet ⟨clientIp, config.serverVpnIp, config.prefixLen,
      min config.mtu maxMaskTunMtu, defaultMdhLen, config.keepaliveSecs,
      assigned6.map fun assigned => text.toText assigned.1, assigned6.map Prod.snd⟩).validate text =
        .ok () := (if_neg hrange).trans (if_neg hserver)
  unfold VpnNetworkConfig.clientConfig
  rw [hsubnet]
  dsimp only
  exact ⟨_, (if_neg husable).trans (if_neg hip.2)⟩

theorem onWire_assigned (h : config.clientConfig text clientIp = .ok assigned) :
    assigned.onWire text =
      { assigned with keepaliveSecs := assigned.keepaliveSecs.filter (0 < ·) } := by
  obtain ⟨-, -, ipv6, -, rfl⟩ := VpnNetworkConfig.clientConfig_eq_ok h
  cases ipv6 <;> simp [onWire, text.parse_toText]

/-- What a server sends its client is read back, up to a keepalive of zero seconds, which is read as
none; and whatever is read is valid. -/
theorem assigned_round_trip (text : Ipv6Text) :
    (∀ config clientIp assigned, VpnNetworkConfig.clientConfig text config clientIp = .ok assigned →
      decodeWire text (assigned.encodeWire text) =
        .ok { assigned with keepaliveSecs := assigned.keepaliveSecs.filter (0 < ·) } ∧
      (decodeWire text (assigned.encodeWire text) = .ok assigned ↔
        assigned.keepaliveSecs ≠ some 0)) ∧
    ∀ data decoded, decodeWire text data = .ok decoded → decoded.validate text = .ok () := by
  constructor
  · intro config clientIp assigned h
    have hread := decodeWire_encodeWire (validate_assigned h)
    rw [onWire_assigned h] at hread
    refine ⟨hread, ?_⟩
    rw [hread]
    cases assigned with
    | mk clientIp serverVpnIp prefixLen mtu mdhLen keepaliveSecs ipv6Address ipv6PrefixLen =>
    cases keepaliveSecs with
    | none => simp
    | some secs => simp [Option.filter, UInt8.pos_iff_ne_zero]
  · intro data decoded h
    unfold decodeWire at h
    split_ifs at h
    split at h
    · cases h
    next hvalid =>
    cases h
    exact hvalid

def keepaliveNetwork (secs : UInt8) : VpnNetworkConfig :=
  { sampleNetwork 0x0a000001 with keepaliveSecs := some secs, ipv6Enabled := false }

theorem assigned_round_trip_keepaliveNetwork : ∃ assigned,
    (keepaliveNetwork 25).clientConfig sampleText 0x0a000002 = .ok assigned ∧
    decodeWire sampleText (assigned.encodeWire sampleText) = .ok assigned :=
  ⟨_, rfl, ((assigned_round_trip sampleText).1 (keepaliveNetwork 25) 0x0a000002 _ rfl).2.mpr
    (by decide)⟩

/-- A server that asks for a keepalive of zero seconds. -/
theorem zero_keepalive_reads_as_none : ∃ assigned,
    (keepaliveNetwork 0).clientConfig sampleText 0x0a000002 = .ok assigned ∧
    decodeWire sampleText (assigned.encodeWire sampleText) =
      .ok { assigned with keepaliveSecs := none } ∧ assigned.keepaliveSecs = some 0 :=
  ⟨_, rfl, by decide +kernel, rfl⟩

end ClientNetworkConfig

end AivpnSpec.Wire
