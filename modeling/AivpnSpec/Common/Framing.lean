import AivpnSpec.Base.Overwrite
import AivpnSpec.Common.Mask

/-!
# Framing of packets

`mask.rs:11-66`, `mask.rs:2018-2075` and `stun_wire.rs`: a packet is put together from a header, a
tag and a ciphertext, and for masks that look like STUN the length fields are written into it once
its length is known.
-/

namespace AivpnSpec.Common

open AivpnSpec.Base

/-- The walk over the attributes of a message, `stun_wire.rs:64-76`. Every round passes at least
four bytes, so it ends within as many rounds as there are bytes. -/
def walkAttributes : (fuel : Nat) → Bytes → (offset : Nat) → Except Error Unit
  | 0, _, _ => .ok ()
  | fuel + 1, packet, offset =>
    if packet.length ≤ offset then .ok ()
    else if packet.length - offset < 4 then
      .error (.invalidPacket "Обрезан заголовок атрибута STUN")
    else
      let length := ofBe (slice packet (offset + 2) 2)
      let next := offset + 4 + (length + 3) / 4 * 4
      if packet.length < next then
        .error (.invalidPacket "Атрибут STUN выходит за границу пакета")
      else walkAttributes fuel packet next

/-- `stun_wire::validate`, `stun_wire.rs:52-78`. -/
def validateStun (packet : Bytes) : Except Error Unit :=
  if packet.length < 20 ∨ byteAt packet 0 &&& 0xc0 ≠ 0 ∨
      slice packet 4 4 ≠ [0x21, 0x12, 0xa4, 0x42] then
    .error (.invalidPacket "Некорректный заголовок STUN")
  else
    let length := ofBe (slice packet 2 2)
    if length % 4 ≠ 0 ∨ 20 + length ≠ packet.length then
      .error (.invalidPacket "Некорректная длина STUN")
    else walkAttributes packet.length packet 20

/-- `stun_wire::finalize`, `stun_wire.rs:30-50`; `attr` is drawn at random. -/
def finalizeStun (attr : UInt16) (packet : Bytes) : Except Error Bytes :=
  if packet.length < 24 ∨ packet.length % 4 ≠ 0 ∨ 65535 < packet.length - 20 then
    .error (.invalidPacket "Некорректный размер носителя STUN")
  else
    let bodyLen := packet.length - 20
    let packet := overwrite packet 0 (beBytes 2 0x0011)
    let packet := overwrite packet 2 (beBytes 2 bodyLen)
    let packet := overwrite packet 20 (beBytes 2 attr.toNat)
    let packet := overwrite packet 22 (beBytes 2 (bodyLen - 4))
    match validateStun packet with
    | .error e => .error e
    | .ok () => .ok packet

/-- The fields that `finalize` writes. -/
def stunFields (attr : UInt16) (packet : Bytes) : List (Nat × Bytes) :=
  [(0, beBytes 2 0x0011), (2, beBytes 2 (packet.length - 20)), (20, beBytes 2 attr.toNat),
    (22, beBytes 2 (packet.length - 20 - 4))]

/-- `finalize` writes the type and the length of the message and the header of its attribute. -/
theorem stunFields_spec (attr : UInt16) {packet : Bytes} (h : 24 ≤ packet.length) :
    (overwriteAll packet (stunFields attr packet)).length = packet.length ∧
    EqOutside (fun i => i < 4 ∨ 20 ≤ i ∧ i < 24) packet
      (overwriteAll packet (stunFields attr packet)) ∧
    ∀ w ∈ stunFields attr packet, HasAt (overwriteAll packet (stunFields attr packet)) w.1 w.2 := by
  obtain ⟨hlength, houtside, hstand⟩ := @overwriteAll_spec packet (stunFields attr packet)
    (by simp [stunFields]; omega) (by simp [stunFields])
  refine ⟨hlength, fun i hi => houtside i ?_, hstand⟩
  simp [stunFields]
  omega

/-- `aligned_padding`, `stun_wire.rs:15-28`. -/
def alignedPadding (base : Nat) (requested maximum : UInt16) : Except Error UInt16 :=
  let desired := min requested.toNat maximum.toNat
  let up := desired + (4 - (base + desired) % 4) % 4
  if up ≤ maximum.toNat then .ok (UInt16.ofNat up)
  else
    let last := base + maximum.toNat
    let aligned := last - last % 4
    if aligned < base then .error (.invalidPacket "Нет места для выравнивания STUN")
    else .ok (UInt16.ofNat (aligned - base))

/-- `PacketFraming`, `mask.rs:12-17`. -/
structure PacketFraming where
  tagOffset : Option Nat
  stunAttributes : Bool
  stunLengthOffset : Option Nat
  deriving DecidableEq

/-- `PacketFraming::assemble_into`, `mask.rs:36-66`. -/
def PacketFraming.assembleInto (framing : PacketFraming) (attr : UInt16) (mdh : Bytes)
    (tag : Tag) (ciphertext : Bytes) : Except Error Bytes :=
  match framing.tagOffset with
  | none => .ok (tag.toList ++ mdh ++ ciphertext)
  | some offset =>
    if mdh.length < offset + tagSize then
      .error (.invalidPacket "Тег выходит за границу MDH")
    else
      let output := overwrite mdh offset tag.toList ++ ciphertext
      if framing.stunAttributes then finalizeStun attr output
      else
        match framing.stunLengthOffset with
        | none => .ok output
        | some offset =>
          if 20 ≤ output.length ∧ offset + 2 ≤ output.length then
            if 65535 < output.length - 20 then
              .error (.invalidPacket "Слишком большой STUN-пакет")
            else .ok (overwrite output offset (beBytes 2 (output.length - 20)))
          else .ok output

namespace MaskProfile

variable (mask : MaskProfile)

/-- `packet_framing`, `mask.rs:2067-2074`. -/
def packetFraming (mdhLen : Nat) : PacketFraming :=
  let embedded := mask.usesEmbeddedLayout mdhLen
  { tagOffset := if embedded then some mask.tagOffset.toNat else none
    stunAttributes := embedded && mask.usesStunAttributes
    stunLengthOffset := mask.stunLengthFieldOffset }

/-- `assemble_packet_into`, `mask.rs:2056-2065`. -/
def assemblePacketInto (attr : UInt16) (mdh : Bytes) (tag : Tag) (ciphertext : Bytes) :
    Except Error Bytes :=
  (mask.packetFraming mdh.length).assembleInto attr mdh tag ciphertext

/-- `patch_stun_length`, `mask.rs:2018-2028`; the length is cut to 16 bits. -/
def patchStunLength (packet : Bytes) : Bytes :=
  match mask.stunLengthFieldOffset with
  | none => packet
  | some offset =>
    if packet.length < 20 ∨ packet.length < offset + 2 then packet
    else overwrite packet offset (beBytes 2 (packet.length - 20))

/-- `finalize_packet`, `mask.rs:2046-2053`. -/
def finalizePacket (attr : UInt16) (packet : Bytes) : Except Error Bytes :=
  if mask.usesStunAttributes then finalizeStun attr packet
  else .ok (mask.patchStunLength packet)

/-- `wire_padding`, `mask.rs:2038-2044`. -/
def wirePadding (base : Nat) (requested maximum : UInt16) : Except Error UInt16 :=
  if mask.usesStunAttributes then alignedPadding base requested maximum
  else .ok (min requested maximum)

/-- The tag and the ciphertext stand unchanged where the layout for a header of `mdhLen` bytes
has them. -/
structure Carries (mdhLen : Nat) (tag : Tag) (ciphertext packet : Bytes) : Prop where
  tag : HasAt packet (if mask.usesEmbeddedLayout mdhLen then mask.tagOffset.toNat else 0) tag.toList
  ciphertext : packet.drop (mask.effectiveTagPrefixLen mdhLen + mdhLen) = ciphertext

def Finished (i : Nat) : Prop :=
  if mask.usesStunAttributes then i < 4 ∨ 20 ≤ i ∧ i < 24
  else ∃ offset, mask.stunLengthFieldOffset = some offset ∧ offset ≤ i ∧ i < offset + 2

/-- The length fields lie in a header of `mdhLen` bytes and not in the tag's place. -/
def FinishesInHeader (mdhLen : Nat) : Prop :=
  if mask.usesStunAttributes then 24 ≤ mdhLen
  else ∀ offset, mask.stunLengthFieldOffset = some offset → offset + 2 ≤ mdhLen ∧
    (offset + 2 ≤ mask.tagOffset.toNat ∨ mask.tagOffset.toNat + tagSize ≤ offset)

variable {mask} {attr : UInt16} {mdh : Bytes} {mdhLen : Nat} {tag : Tag} {ciphertext packet : Bytes}

theorem FinishesInHeader.apart (h : mask.FinishesInHeader mdhLen) {i : Nat}
    (hi : mask.Finished i) :
    i < mdhLen ∧ (i < mask.tagOffset.toNat ∨ mask.tagOffset.toNat + tagSize ≤ i) := by
  unfold FinishesInHeader at h
  unfold Finished at hi
  cases hattributes : mask.usesStunAttributes with
  | true =>
    have hoffset : mask.tagOffset = 8 := by
      simp [usesStunAttributes] at hattributes
      exact hattributes.1.2
    simp only [hattributes, if_true] at h hi
    rw [hoffset, tagSize, show (8 : UInt16).toNat = 8 from rfl]
    omega
  | false =>
    simp only [hattributes, Bool.false_eq_true, if_false] at h hi
    obtain ⟨offset, hoffset, hlow, hhigh⟩ := hi
    have := h offset hoffset
    omega

variable {output : Bytes}

/-- What is written into the header afterwards moves neither. -/
theorem Carries.finished (h : mask.Carries mdhLen tag ciphertext packet)
    (hlayout : mask.usesEmbeddedLayout mdhLen = true) (hfinish : mask.FinishesInHeader mdhLen)
    (houtput : EqOutside mask.Finished packet output) :
    mask.Carries mdhLen tag ciphertext output where
  tag := by
    apply houtput.hasAt h.tag
    intro i hlow hhigh hi
    have hapart := (hfinish.apart hi).2
    rw [hlayout] at hlow hhigh
    rw [Vector.length_toList] at hhigh
    simp only [if_true] at hlow hhigh
    rw [tagSize] at hapart
    omega
  ciphertext := by
    rw [houtput.drop_eq, h.ciphertext]
    intro i hlow hi
    have hin := (hfinish.apart hi).1
    omega

end MaskProfile

end AivpnSpec.Common
