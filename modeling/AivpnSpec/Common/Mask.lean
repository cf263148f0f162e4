import AivpnSpec.Common.Protocol

/-!
# Masks

`crates/aivpn-common/src/mask.rs`: the parts of a mask profile that decide what a packet looks
like. A header is generated from typed fields or copied from a template; the tag of a packet stands
in front of it, or in it at an offset that the mask names.
-/

namespace AivpnSpec.Common

open AivpnSpec.Base

/-- `TAG_SIZE`, `crypto.rs:24`. -/
def tagSize : Nat := 8

abbrev Tag := Vector UInt8 8

/-- `SpoofProtocol`, `mask.rs:1132-1144`. -/
inductive SpoofProtocol where
  | none
  | quic
  | webRtcStun
  | httpsH2
  | dnsOverUdp
  | webRtcDtlsSrtp
  | webRtcTurnDtlsSrtp
  | webRtcSdesSrtp
  deriving DecidableEq

/-- `is_stun`, `mask.rs:1147-1155`. -/
def SpoofProtocol.isStun : SpoofProtocol → Bool
  | .webRtcStun | .webRtcDtlsSrtp | .webRtcTurnDtlsSrtp | .webRtcSdesSrtp => true
  | _ => false

/-- `HeaderEndian`, `mask.rs:1512-1515`. -/
inductive HeaderEndian where
  | big
  | little
  deriving DecidableEq

/-- `IdFieldMode`, `mask.rs:1518-1522`. -/
inductive IdFieldMode where
  | random
  | zero
  deriving DecidableEq

/-- `HeaderField`, `mask.rs:1486-1509`. -/
inductive HeaderField where
  | fixed (bytes : Bytes)
  | random (len : Nat)
  | length (len : Nat) (endian : HeaderEndian)
  | id (len : Nat) (mode : IdFieldMode)
  | counterLike (len : Nat) (endian : HeaderEndian) (start step : UInt64)
  deriving DecidableEq

/-- `HeaderSpec`, `mask.rs:1470-1482`. -/
inductive HeaderSpec where
  | structured (fields : List HeaderField)
  | rawPrefix (prefixHex : String) (randomizeIndices : List Nat)
  deriving DecidableEq

/-- `MAX_HEADER_FIELD_LEN`, `mask.rs:1744`. -/
def maxHeaderFieldLen : Nat := 1500

def HeaderField.width : HeaderField → Nat
  | .fixed bytes => bytes.length
  | .random len | .length len _ | .id len _ | .counterLike len _ _ _ => min len maxHeaderFieldLen

/-- What the generator of random numbers gives to each field of a header. -/
structure HeaderRng where
  /-- the byte at a position of a field -/
  byte : (field position : Nat) → UInt8
  /-- the number for a counter -/
  number : (field : Nat) → Nat

def HeaderRng.fill (rng : HeaderRng) (field len : Nat) : Bytes :=
  (List.range len).map (rng.byte field)

/-- `encode_semantic_u64`, `mask.rs:1746-1769`. -/
def encodeSemanticU64 (value : UInt64) (len : Nat) (endian : HeaderEndian) : Bytes :=
  let len := min len maxHeaderFieldLen
  match endian with
  | .big =>
    if len < 8 then (beBytes 8 value.toNat).drop (8 - len)
    else List.replicate (len - 8) 0 ++ beBytes 8 value.toNat
  | .little =>
    if len < 8 then (leBytes 8 value.toNat).take len
    else leBytes 8 value.toNat ++ List.replicate (len - 8) 0

/-- `u64::saturating_add`. -/
def saturatingAdd64 (a b : Nat) : UInt64 := UInt64.ofNat (min (a + b) (2 ^ 64 - 1))

/-- The bytes of a field, `mask.rs:1647-1688`. -/
def HeaderField.generate (rng : HeaderRng) (index : Nat) : HeaderField → Bytes
  | .fixed bytes => bytes
  | .random len => rng.fill index (min len maxHeaderFieldLen)
  | .length len endian => encodeSemanticU64 0 len endian
  | .id len .random => rng.fill index (min len maxHeaderFieldLen)
  | .id len .zero => List.replicate (min len maxHeaderFieldLen) 0
  | .counterLike len endian start step =>
    let range := min (max step.toNat 1 * 1024) (2 ^ 64 - 1)
    encodeSemanticU64 (saturatingAdd64 start.toNat (rng.number index % (range + 1))) len endian

namespace HeaderSpec

/-- `stun_binding`, `mask.rs:1533-1558`, with the magic cookie. -/
def stunBinding : HeaderSpec :=
  .structured
    [.fixed [0x00, 0x01], .length 2 .big, .fixed [0x21, 0x12, 0xa4, 0x42], .id 12 .random]

def hexDigit (c : Char) : Option UInt8 :=
  if c.isDigit then some (UInt8.ofNat (c.toNat - '0'.toNat))
  else if 'a' ≤ c ∧ c ≤ 'f' then some (UInt8.ofNat (c.toNat - 'a'.toNat + 10))
  else if 'A' ≤ c ∧ c ≤ 'F' then some (UInt8.ofNat (c.toNat - 'A'.toNat + 10))
  else none

/-- `hex::decode`. -/
def hexDecode : List Char → Option Bytes
  | [] => some []
  | [_] => none
  | high :: low :: rest =>
    match hexDigit high, hexDigit low, hexDecode rest with
    | some high, some low, some bytes => some ((high * 16 + low) :: bytes)
    | _, _, _ => none

def flush (current : Bytes) : List HeaderField :=
  if current.isEmpty then [] else [.fixed current]

/-- The loop over the bytes of a raw prefix, `mask.rs:1622-1638`. -/
def rawFields (randomizeIndices : List Nat) : (idx : Nat) → (current : Bytes) → Bytes →
    List HeaderField
  | _, current, [] => flush current
  | idx, current, b :: rest =>
    if randomizeIndices.contains idx then
      flush current ++ .random 1 :: rawFields randomizeIndices (idx + 1) [] rest
    else rawFields randomizeIndices (idx + 1) (current ++ [b]) rest

/-- `fields`, `mask.rs:1607-1642`. -/
def fields : HeaderSpec → List HeaderField
  | .structured fields => fields
  | .rawPrefix prefixHex randomizeIndices =>
    let bytes := (hexDecode prefixHex.toList).getD [0x00, 0x01, 0x02, 0x03]
    if randomizeIndices.isEmpty then [.fixed bytes] else rawFields randomizeIndices 0 [] bytes

def generateFrom (rng : HeaderRng) : (index : Nat) → List HeaderField → Bytes
  | _, [] => []
  | index, field :: rest => field.generate rng index ++ generateFrom rng (index + 1) rest

variable (spec : HeaderSpec)

/-- `generate`, `mask.rs:1645-1690`. -/
def generate (rng : HeaderRng) : Bytes := generateFrom rng 0 spec.fields

/-- `min_length`, `mask.rs:1693-1703`. -/
def minLength : Nat := (spec.fields.map HeaderField.width).sum

/-- The first length field of a list of fields, as its offset and width. -/
def lengthFieldFrom : (offset : Nat) → List HeaderField → Option (Nat × Nat)
  | _, [] => none
  | offset, field :: rest =>
    match field with
    | .length .. => some (offset, field.width)
    | _ => lengthFieldFrom (offset + field.width) rest

/-- `length_field_offset`, `mask.rs:1713-1729`. -/
def lengthFieldOffset : Option (Nat × Nat) := lengthFieldFrom 0 spec.fields

end HeaderSpec

/-- `MaskProfile`, `mask.rs:975-1073`, as far as it shapes the bytes of a packet. -/
structure MaskProfile where
  spoofProtocol : SpoofProtocol
  headerTemplate : Bytes
  ephPubOffset : UInt16
  ephPubLength : UInt16
  headerSpec : Option HeaderSpec
  tagOffset : UInt16
  deriving DecidableEq

/-- `u16::MAX`, the offset of masks whose tag is a prefix: `default_tag_offset`. -/
def defaultTagOffset : UInt16 := 0xffff

namespace MaskProfile

variable (mask : MaskProfile)

/-- `mdh_len`, `mask.rs:1884-1889`. -/
def mdhLen : Nat :=
  match mask.headerSpec with
  | some spec => spec.minLength
  | none => mask.headerTemplate.length

/-- A header for one packet: `packet_mdh_bytes_for_mask`, `mask_catalog.rs:188-195`. -/
def header (rng : HeaderRng) : Bytes :=
  match mask.headerSpec with
  | some spec => spec.generate rng
  | none => mask.headerTemplate

/-- `embedded_tag_offset`, `mask.rs:1970-1976`. -/
def embeddedTagOffset : Option Nat :=
  if mask.tagOffset = defaultTagOffset then none else some mask.tagOffset.toNat

/-- `stun_length_field_offset`, `mask.rs:1987-1995`. -/
def stunLengthFieldOffset : Option Nat :=
  if !mask.spoofProtocol.isStun then none
  else
    match mask.headerSpec with
    | none => none
    | some spec => spec.lengthFieldOffset.map Prod.fst

/-- `ATTRIBUTE_TEMPLATE`, `stun_wire.rs:12`. -/
def attributeTemplate : Bytes := [0xc0, 0x72, 0, 0]

/-- `uses_stun_attributes`, `mask.rs:2031-2036`. -/
def usesStunAttributes : Bool :=
  mask.spoofProtocol.isStun && decide (slice mask.headerTemplate 20 4 = attributeTemplate) &&
    decide (mask.tagOffset = 8) && decide (24 ≤ mask.ephPubOffset)

/-- `tag_overlaps_eph_pub`, `mask.rs:2085-2095`. -/
def tagOverlapsEphPub (size : Nat) : Bool :=
  match mask.embeddedTagOffset with
  | none => false
  | some tagStart =>
    decide (tagStart < mask.ephPubOffset.toNat + mask.ephPubLength.toNat) &&
      decide (mask.ephPubOffset.toNat < tagStart + size)

/-- `uses_embedded_layout`, `mask.rs:2112-2118`. -/
def usesEmbeddedLayout (mdhLen : Nat) : Bool :=
  match mask.embeddedTagOffset with
  | some off => decide (off + tagSize ≤ mdhLen) && !mask.tagOverlapsEphPub tagSize
  | none => false

/-- `effective_tag_prefix_len`, `mask.rs:2124-2130`. -/
def effectiveTagPrefixLen (mdhLen : Nat) : Nat :=
  if mask.usesEmbeddedLayout mdhLen then 0 else tagSize

/-- `needs_state`, `mask_io.rs:53-55`. -/
def needsState : Bool := mask.spoofProtocol = .quic

/-- `uses_rtc`, `mask_io.rs:57-64`. -/
def usesRtc : Bool :=
  match mask.spoofProtocol with
  | .webRtcDtlsSrtp | .webRtcTurnDtlsSrtp | .webRtcSdesSrtp => true
  | _ => false

/-- `requires_userspace`, `mask_io.rs:93-95`. -/
def requiresUserspace : Bool := mask.needsState || mask.usesRtc

variable {mask}

/-- In the embedded layout the tag's place is in the header. -/
theorem usesEmbeddedLayout_iff {mdhLen : Nat} :
    mask.usesEmbeddedLayout mdhLen = true ↔ mask.tagOffset ≠ defaultTagOffset ∧
      mask.tagOffset.toNat + tagSize ≤ mdhLen ∧ mask.tagOverlapsEphPub tagSize = false := by
  unfold usesEmbeddedLayout embeddedTagOffset
  by_cases hlegacy : mask.tagOffset = defaultTagOffset <;> simp [hlegacy]

end MaskProfile

def stunMask (spec : HeaderSpec) : MaskProfile where
  spoofProtocol := .webRtcStun
  headerTemplate := []
  ephPubOffset := 24
  ephPubLength := 32
  headerSpec := some spec
  tagOffset := 8

end AivpnSpec.Common
