import AivpnSpec.Common.Framing
import AivpnSpec.Gateway.Reservation
import AivpnSpec.Kernel.Downlink

/-!
# Packets to clients on both paths

The kernel places the tag where `kernel_downlink_tag_pos` tells it; userspace assembles a packet by
the mask. The two packets differ by the length field of masks that look like STUN without
attributes: userspace writes it once the packet is complete, and the kernel leaves the header as it
was generated.
-/

namespace AivpnSpec.Offload

open AivpnSpec.Base AivpnSpec.Common AivpnSpec.Kernel AivpnSpec.Gateway

/-- Userspace writes no length field into the packet, or the one that stands there. -/
def LengthFieldAgrees (mask : MaskProfile) (packet : Bytes) : Prop :=
  ∀ offset, mask.stunLengthFieldOffset = some offset → 20 ≤ packet.length →
    offset + 2 ≤ packet.length →
    packet.length - 20 ≤ 65535 ∧ HasAt packet offset (beBytes 2 (packet.length - 20))

/-- The packets of the embedded layout. -/
theorem assemble_embedded_iff {mask : MaskProfile} {attr : UInt16} {mdh : Bytes} {tag : Tag}
    {ciphertext : Bytes} (hattributes : mask.usesStunAttributes = false)
    (hlayout : mask.usesEmbeddedLayout mdh.length = true) :
    mask.assemblePacketInto attr mdh tag ciphertext =
        .ok (overwrite mdh mask.tagOffset.toNat tag.toList ++ ciphertext) ↔
      LengthFieldAgrees mask (overwrite mdh mask.tagOffset.toNat tag.toList ++ ciphertext) := by
  have hfits : ¬ mdh.length < mask.tagOffset.toNat + tagSize :=
    Nat.not_lt.mpr (MaskProfile.usesEmbeddedLayout_iff.mp hlayout).2.1
  simp only [MaskProfile.assemblePacketInto, MaskProfile.packetFraming, PacketFraming.assembleInto,
    hlayout, hattributes, Bool.and_false, Bool.false_eq_true, if_true, if_false, if_neg hfits]
  generalize overwrite mdh mask.tagOffset.toNat tag.toList ++ ciphertext = packet
  unfold LengthFieldAgrees
  cases mask.stunLengthFieldOffset with
  | none => simp
  | some offset =>
    dsimp only
    by_cases hlong : 20 ≤ packet.length ∧ offset + 2 ≤ packet.length
    · rw [if_pos hlong]
      have hwrite : offset + (beBytes 2 (packet.length - 20)).length ≤ packet.length := by
        rw [length_beBytes]
        exact hlong.2
      by_cases hlarge : 65535 < packet.length - 20
      · rw [if_pos hlarge]
        constructor
        · intro h
          cases h
        · intro h
          exact absurd (h offset rfl hlong.1 hlong.2).1 (Nat.not_le.mpr hlarge)
      · rw [if_neg hlarge, Except.ok.injEq, overwrite_eq_self_iff hwrite]
        constructor
        · rintro h offset ⟨⟩ - -
          exact ⟨Nat.not_lt.mp hlarge, h⟩
        · intro h
          exact (h offset rfl hlong.1 hlong.2).2
    · rw [if_neg hlong]
      constructor
      · rintro - offset ⟨⟩ hheader hfield
        exact absurd ⟨hheader, hfield⟩ hlong
      · intro _
        rfl

/-- For every block that is handed to the kernel the two packets are the same exactly if userspace
has no length field to write into an embedded packet, or writes what stands there. -/
theorem downlink_framing_iff (env : SendEnv) (armed : Bool) (rng : HeaderRng)
    (timeWindow : UInt64) (s : SendSession) (mask : MaskProfile) (dl : SessionDownlink)
    (hmask : s.mask = some mask)
    (hdl : (s.makeKernelDownlink env armed rng timeWindow).1 = some dl) (attr : UInt16)
    (mdh : Bytes) (hmdh : mdh.length = dl.mdh.length) (tag : Tag) (ciphertext : Bytes) (cap : Nat)
    (hcap : 8 + mdh.length ≤ cap) :
    ∃ header, placeHeader cap tag mdh dl.dlTagPos.toNat = some header ∧
      (mask.assemblePacketInto attr mdh tag ciphertext = .ok (header ++ ciphertext) ↔
        (mask.usesEmbeddedLayout mdh.length = true →
          LengthFieldAgrees mask (header ++ ciphertext))) := by
  rcases s.makeKernelDownlink_cases env armed rng timeWindow with hnone |
    ⟨mask', dl', hmask', hattributes, -, -, htagPos, -, hsome⟩
  · rw [hnone] at hdl
    cases hdl
  rw [hsome] at hdl
  cases hdl
  rw [hmask] at hmask'
  cases hmask'
  rw [htagPos, ← hmdh, kernelDownlinkTagPos]
  cases hlayout : mask.usesEmbeddedLayout mdh.length with
  | false =>
    refine ⟨tag.toList ++ mdh, ?_, ?_⟩
    · rw [placeHeader, if_neg Bool.false_ne_true, if_pos (by decide),
        if_neg (Nat.not_lt.mpr hcap)]
    · simp [MaskProfile.assemblePacketInto, MaskProfile.packetFraming,
        PacketFraming.assembleInto, hlayout]
  | true =>
    obtain ⟨hoffset, hfits, -⟩ := MaskProfile.usesEmbeddedLayout_iff.mp hlayout
    have hembedded : mask.tagOffset.toNat ≠ 0xffff := by
      intro h
      exact hoffset (UInt16.toNat_inj.mp h)
    refine ⟨overwrite mdh mask.tagOffset.toNat tag.toList, ?_, ?_⟩
    · rw [if_pos rfl, placeHeader, if_neg hembedded, if_neg]
      rw [tagSize] at hfits
      omega
    · rw [assemble_embedded_iff hattributes hlayout]
      simp

def sampleSendEnv : SendEnv where
  isInitial _ := false
  resonanceTag _ _ _ := Vector.replicate 8 0xaa

def sampleSend (mask : MaskProfile) : SendSession where
  session := Server.Session.new (sampleKeys 1) (sampleKeys 2) 0
  sessionId := Vector.replicate 16 1
  sendCounter := 0
  sendSeq := 0
  mask := some mask
  kernelDlWindow := 0

def zeroRng : HeaderRng := ⟨fun _ _ => 0, fun _ => 0⟩

def dnsMask : MaskProfile := { stunMask .stunBinding with spoofProtocol := .dnsOverUdp }

theorem downlink_framing_iff_dnsMask :
    ∃ dl header, ((sampleSend dnsMask).makeKernelDownlink sampleSendEnv true zeroRng 5).1 =
        some dl ∧
      placeHeader 1500 (Vector.replicate 8 0xaa) dl.mdh dl.dlTagPos.toNat = some header ∧
      dnsMask.assemblePacketInto 0 dl.mdh (Vector.replicate 8 0xaa) [1, 2, 3, 4] =
        .ok (header ++ [1, 2, 3, 4]) := by
  obtain ⟨header, hplace, hiff⟩ := downlink_framing_iff sampleSendEnv true zeroRng 5
    (sampleSend dnsMask) dnsMask _ rfl rfl 0 (dnsMask.header zeroRng) rfl
    (Vector.replicate 8 0xaa) [1, 2, 3, 4] 1500 (by decide)
  refine ⟨_, header, rfl, hplace, hiff.mpr ?_⟩
  intro _ offset hoffset
  have hnone : dnsMask.stunLengthFieldOffset = none := by decide
  rw [hnone] at hoffset
  cases hoffset

/-- A STUN mask without attributes is left to the kernel, which sends a message length of zero where
userspace writes the length of the message. -/
theorem downlink_framing_differs :
    ∃ dl header, ((sampleSend (stunMask .stunBinding)).makeKernelDownlink sampleSendEnv true
        zeroRng 5).1 = some dl ∧
      placeHeader 1500 (Vector.replicate 8 0xaa) dl.mdh dl.dlTagPos.toNat = some header ∧
      slice (header ++ [1, 2, 3, 4]) 2 2 = [0, 0] ∧
      ∃ packet, (stunMask .stunBinding).assemblePacketInto 0 dl.mdh (Vector.replicate 8 0xaa)
          [1, 2, 3, 4] = .ok packet ∧
        slice packet 2 2 = [0, 4] := by
  refine ⟨_, _, rfl, rfl, ?_, _, rfl, ?_⟩
  · decide +kernel
  · decide +kernel

end AivpnSpec.Offload
