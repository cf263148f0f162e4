import AivpnSpec.Base.Layout

/-!
# Wire vocabulary

Sizes, inner packet types and FEC positions shared by the data-plane codecs.
`crates/aivpn-common/src/protocol.rs:14-60,208-233`, `fec.rs:112-117`, `error.rs`.
Byte strings are lists of bytes; lengths are natural numbers.
-/

namespace AivpnSpec.Common

abbrev Bytes := List UInt8

abbrev Bytes32 := Vector UInt8 32

/-- The error constructors the modelled functions return. -/
inductive Error where
  | invalidPacket (message : String)
  | session (message : String)
  | crypto (message : String)
  deriving DecidableEq, Repr

/-- `MAX_PACKET_SIZE`, `protocol.rs:14`. -/
def maxPacketSize : Nat := 1500

/-- `MAX_MGMT_BODY_SIZE`, `protocol.rs:15`. -/
def maxMgmtBodySize : Nat := 512 * 1024

/-- `MAX_MGMT_PATH_SIZE`, `protocol.rs:16`. -/
def maxMgmtPathSize : Nat := 512

/-- Inner packet types, `protocol.rs:40-47`. -/
inductive InnerType where
  | data
  | control
  | fragment
  | ack
  | fecRepair
  deriving DecidableEq, Repr

/-- The discriminant of an inner type, `protocol.rs:40-47`. -/
def InnerType.toU8 : InnerType → UInt8
  | .data => 1
  | .control => 2
  | .fragment => 3
  | .ack => 4
  | .fecRepair => 5

/-- `InnerType::from_u16`, `protocol.rs:50-59`. -/
def InnerType.fromU16 (value : Nat) : Option InnerType :=
  match value with
  | 1 => some .data
  | 2 => some .control
  | 3 => some .fragment
  | 4 => some .ack
  | 5 => some .fecRepair
  | _ => none

/-- Every inner type is read back from its discriminant. -/
theorem InnerType.fromU16_toU8 (kind : InnerType) : fromU16 kind.toU8.toNat = some kind := by
  cases kind <;> rfl

/-- `InnerHeader`, `protocol.rs:208-211`. -/
structure InnerHeader where
  innerType : InnerType
  seqNum : UInt16
  deriving DecidableEq, Repr

/-- `InnerHeader::decode`, `protocol.rs:221-232`. -/
def InnerHeader.decode (data : Bytes) : Except Error InnerHeader :=
  if data.length < 4 then .error (.invalidPacket "Inner header too short")
  else
    match InnerType.fromU16 (Base.u16At data 0).toNat with
    | none => .error (.invalidPacket "Unknown inner type")
    | some innerType => .ok ⟨innerType, Base.u16At data 2⟩

/-- Position of a source packet inside one XOR group, `fec.rs:112-117`. -/
structure FecMetadata where
  groupSeq : UInt16
  groupSize : UInt8
  index : UInt8
  deriving DecidableEq, Repr

end AivpnSpec.Common
