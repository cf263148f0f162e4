import AivpnSpec.Common.Framing

/-!
# Packets of the client

`mimicry.rs:204-354` and `client_wire.rs:402-514`: both builders generate a header, pad and encrypt
the payload and put the packet together. Tag derivation, encryption and every random choice are
parameters.
-/

namespace AivpnSpec.Common

open AivpnSpec.Base List

/-- What the builders take from `SessionKeys` at the present time. -/
structure SealingKeys where
  /-- `packet_cipher.is_initial()` -/
  isInitial : Bool
  /-- `generate_resonance_tag` for a counter -/
  resonanceTag : UInt64 → Tag
  /-- `encrypt_session_payload` towards the server -/
  encrypt : UInt64 → Tag → Bytes → Except Error Bytes

/-- `session_payload_overhead`, `crypto.rs:267-273`. -/
def SealingKeys.payloadOverhead (keys : SealingKeys) : Nat := if keys.isInitial then 24 else 0

/-- The random choices for one packet. -/
structure Draws where
  header : HeaderRng
  /-- the padding that the distribution of sizes asks for -/
  requested : UInt16
  filler : Nat → UInt8
  attr : UInt16

def Draws.fill (draws : Draws) (count : Nat) : Bytes := (List.range count).map draws.filler

/-- The payload behind its padding length and in front of the padding. -/
def padded (draws : Draws) (payload : Bytes) (padLen : UInt16) : Bytes :=
  u16Bytes padLen ++ payload ++ draws.fill padLen.toNat

/-- Encrypt a padded payload under the present counter, which is spent in any case, and put the
packet together. -/
def sealPacket (draws : Draws) (keys : SealingKeys) (counter : UInt64) (payload : Bytes)
    (padLen : UInt16) (place : Tag → Bytes → Except Error Bytes) : Except Error Bytes × UInt64 :=
  let tag := keys.resonanceTag counter
  match keys.encrypt counter tag (padded draws payload padLen) with
  | .error e => (.error e, counter + 1)
  | .ok ciphertext => (place tag ciphertext, counter + 1)

/-- `build_mdh`, `mimicry.rs:204-225`. -/
def buildMdh (mask : MaskProfile) (rng : HeaderRng) (ephPub : Option Bytes32) : Bytes :=
  let mdh := mask.header rng
  match ephPub with
  | none => mdh
  | some eph =>
    let offset := mask.ephPubOffset.toNat
    let len := mask.ephPubLength.toNat
    let mdh := mdh ++ List.replicate (offset + len - mdh.length) 0
    overwrite mdh offset (eph.toList.take (min len 32))

/-- `MAX_QUIC_INNER`, `mask_io.rs:26`. -/
def maxQuicInner : Nat := 1140

/-- `rtc_mask::inner_budget`, `rtc_mask.rs:29-32`. -/
def rtcInnerBudget (turn : Bool) : Nat :=
  let available := 1380 - (if turn then 4 else 0) - 32 - 16
  (available / 16 * 16 - 2) / 4 * 4

section

variable (mask : MaskProfile)

/-- The budget of a packet, `mimicry.rs:283-297`. -/
def packetBudget (keys : SealingKeys) : Nat :=
  if mask.needsState then if keys.isInitial then 512 else maxQuicInner
  else if mask.usesRtc then
    if mask.spoofProtocol = .webRtcSdesSrtp then 1358
    else rtcInnerBudget (mask.spoofProtocol = .webRtcTurnDtlsSrtp)
  else min 1380 maxPacketSize

/-- Where `build_packet` puts the tag, `mimicry.rs:247-264`. -/
def engineTagOffset (mdhLen : Nat) : Option Nat :=
  if mask.usesEmbeddedLayout mdhLen then mask.embeddedTagOffset else none

/-- The length of a packet without padding, `mimicry.rs:266-283`. -/
def packetOverhead (keys : SealingKeys) (mdhLen payloadLen : Nat) : Nat :=
  (if (engineTagOffset mask mdhLen).isSome then 0 else tagSize) + mdhLen + keys.payloadOverhead +
    2 + payloadLen + 16

/-- The end of `build_packet`, `mimicry.rs:329-348`. -/
def placeTag (attr : UInt16) (mdh : Bytes) (tag : Tag) (ciphertext : Bytes) : Except Error Bytes :=
  match engineTagOffset mask mdh.length with
  | some offset => mask.finalizePacket attr (overwrite mdh offset tag.toList ++ ciphertext)
  | none => .ok (tag.toList ++ mdh ++ ciphertext)

/-- `build_packet`, `mimicry.rs:227-349`. -/
def buildPacket (draws : Draws) (plaintext : Bytes) (keys : SealingKeys) (counter : UInt64)
    (ephPub : Option Bytes32) : Except Error Bytes × UInt64 :=
  let mdh := buildMdh mask draws.header ephPub
  let overhead := packetOverhead mask keys mdh.length plaintext.length
  let budget := packetBudget mask keys
  if budget < overhead then (.error (.invalidPacket "Packet exceeds mask budget"), counter)
  else
    match mask.wirePadding overhead draws.requested (UInt16.ofNat (budget - overhead)) with
    | .error e => (.error e, counter)
    | .ok padLen => sealPacket draws keys counter plaintext padLen (placeTag mask draws.attr mdh)

/-- The padding of a packet: the part of `build_packet` before the cipher, with the failures that
do not spend the counter; `mimicry.rs:266-305`. -/
def packetPadding (draws : Draws) (payloadLen : Nat) (keys : SealingKeys) (mdhLen : Nat) :
    Except Error UInt16 :=
  let overhead := packetOverhead mask keys mdhLen payloadLen
  let budget := packetBudget mask keys
  if budget < overhead then .error (.invalidPacket "Packet exceeds mask budget")
  else mask.wirePadding overhead draws.requested (UInt16.ofNat (budget - overhead))

/-- The cipher is reached exactly if there is a padding. -/
theorem buildPacket_eq (draws : Draws) (plaintext : Bytes) (keys : SealingKeys) (counter : UInt64)
    (ephPub : Option Bytes32) : buildPacket mask draws plaintext keys counter ephPub =
      let mdh := buildMdh mask draws.header ephPub
      match packetPadding mask draws plaintext.length keys mdh.length with
      | .error e => (.error e, counter)
      | .ok padLen =>
        sealPacket draws keys counter plaintext padLen (placeTag mask draws.attr mdh) := by
  unfold buildPacket packetPadding
  simp only
  split <;> rfl

end

section

variable {mask : MaskProfile} {draws : Draws} {keys : SealingKeys} {counter : UInt64}
  {payload packet ciphertext mdh : Bytes} {headerMask : Option MaskProfile}
  {ephPub : Option Bytes32} {mdhLen : Nat} {attr : UInt16} {tag : Tag}

end

end AivpnSpec.Common
