import AivpnSpec.Base.Xor
import AivpnSpec.Common.Fragment

/-!
# XOR forward error correction: the sender

`crates/aivpn-common/src/fec.rs:14-233`. Every `group_size` payloads the encoder emits one
repair, the XOR of the group. A change of the group size waits for the end of the group.
-/

namespace AivpnSpec.Common

open AivpnSpec.Base

/-- `FecRepair`, `fec.rs:69-74`. -/
structure FecRepair where
  groupSeq : UInt16
  groupSize : UInt8
  xorData : Bytes
  deriving DecidableEq, Repr

namespace FecRepair

/-- `FecRepair::encode`, `fec.rs:77-83`. -/
def encode (repair : FecRepair) : Bytes :=
  leBytes 2 repair.groupSeq.toNat ++ repair.groupSize :: repair.xorData

/-- `FecRepair::decode`, `fec.rs:85-97`. -/
def decode (data : Bytes) : Option FecRepair :=
  if data.length < 3 then none
  else if byteAt data 2 = 0 then none
  else some
    { groupSeq := UInt16.ofNat (ofLe (data.take 2)), groupSize := byteAt data 2,
      xorData := data.drop 3 }

/-- A repair of a non-empty group survives the wire. -/
theorem decode_encoded (repair : FecRepair) (h : repair.groupSize ≠ 0) :
    decode repair.encode = some repair := by
  have hsize : byteAt repair.encode 2 = repair.groupSize := by
    simp [byteAt, encode, leBytes, beBytes]
  have htake : repair.encode.take 2 = leBytes 2 repair.groupSeq.toNat :=
    List.take_left' (by simp)
  have hdrop : repair.encode.drop 3 = repair.xorData := by
    simp [encode, leBytes, beBytes]
  have hlen : ¬ repair.encode.length < 3 := by
    simp [encode]
    omega
  rw [decode, if_neg hlen, hsize, if_neg h, htake, hdrop, ofLe_leBytes, uint16_ofNat_mod]

end FecRepair

/-- `FecEncoder`, `fec.rs:14-21`. -/
structure FecEncoder where
  xorBuf : Bytes
  maxLen : Nat
  count : UInt8
  groupSize : UInt8
  groupSeq : UInt16

namespace FecEncoder

/-- `FecEncoder::new`, `fec.rs:24-33`; the caller has checked `group_size > 0`. -/
def new (groupSize : UInt8) (maxPayload : Nat) : FecEncoder :=
  { xorBuf := List.replicate maxPayload 0, maxLen := 0, count := 0, groupSize, groupSeq := 0 }

/-- `FecEncoder::feed`, `fec.rs:36-59`. -/
def feed (e : FecEncoder) (payload : Bytes) : Option FecRepair × FecEncoder :=
  let len := min payload.length e.xorBuf.length
  let xorBuf := xorInto e.xorBuf (payload.take len)
  let maxLen := if e.maxLen < len then len else e.maxLen
  let count := e.count + 1
  if e.groupSize ≤ count then
    (some { groupSeq := e.groupSeq, groupSize := e.groupSize, xorData := xorBuf.take maxLen },
      { e with xorBuf := List.replicate xorBuf.length 0, maxLen := 0, count := 0,
               groupSeq := e.groupSeq + 1 })
  else (none, { e with xorBuf, maxLen, count })

end FecEncoder

/-- `FecSender`, `fec.rs:120-126`. -/
structure FecSender where
  encoder : Option FecEncoder
  pending : List Bytes
  requestedGroup : UInt8
  nextGroupSeq : UInt16

namespace FecSender

/-- `FecSender::default`. -/
def empty : FecSender := { encoder := none, pending := [], requestedGroup := 0, nextGroupSeq := 0 }

variable (s : FecSender)

/-- A new encoder for the requested size, none for size zero; `fec.rs:148-153`. -/
def startEncoder : FecSender :=
  { s with
    encoder :=
      if 0 < s.requestedGroup then
        some { FecEncoder.new s.requestedGroup maxPacketSize with groupSeq := s.nextGroupSeq }
      else none }

/-- `apply_group_at_boundary`, `fec.rs:134-154`. -/
def applyGroupAtBoundary : FecSender :=
  match s.encoder with
  | none => s.startEncoder
  | some encoder =>
    if encoder.count ≠ 0 then s
    else
      let s := { s with nextGroupSeq := encoder.groupSeq }
      if encoder.groupSize = s.requestedGroup then s else s.startEncoder

/-- `set_group`, `fec.rs:129-132`. -/
def setGroup (size : UInt8) : FecSender :=
  { s with requestedGroup := size }.applyGroupAtBoundary

/-- `enabled_for`, `fec.rs:156-158`. -/
def enabledFor (len : Nat) : Bool :=
  s.encoder.isSome && 0 < len && len ≤ maxPacketSize

/-- `metadata_for`, `fec.rs:162-175`. -/
def metadataFor (len : Nat) : Option FecMetadata :=
  if s.enabledFor len then
    s.encoder.bind fun encoder =>
      if encoder.groupSize = 0 ∨ encoder.groupSize ≤ encoder.count then none
      else some
        { groupSeq := encoder.groupSeq, groupSize := encoder.groupSize, index := encoder.count }
  else none

/-- `discard_pending`, `fec.rs:179-181`. -/
def discardPending : FecSender := { s with pending := [] }

/-- `take_packet`, `fec.rs:183-185`. -/
def takePacket : Option Bytes × FecSender :=
  (s.pending.head?, { s with pending := s.pending.tail })

/-- The part of `feed` up to the repair: the encoder absorbs the payload, and a finished
group lets a new group size in; `fec.rs:194-206`. -/
def absorb (payload : Bytes) : Option FecRepair × FecSender :=
  if s.enabledFor payload.length then
    match s.encoder with
    | none => (none, s)
    | some encoder =>
      match encoder.feed payload with
      | (none, encoder) => (none, { s with encoder := some encoder })
      | (some repair, encoder) =>
        (some repair, { s with encoder := some encoder }.applyGroupAtBoundary)
  else (none, s)

/-- The repair as one packet, or as fragments when it exceeds the limit; `fec.rs:207-218`. -/
def repairParts (repair : FecRepair) (payloadLimit : Nat) (id : UInt64) :
    Option (List (InnerType × Bytes)) :=
  if repair.encode.length ≤ payloadLimit then some [(.fecRepair, repair.encode)]
  else
    match split id .fecRepair repair.encode with
    | .error _ => none
    | .ok parts => some (parts.map fun part => (.fragment, part))

/-- Encrypt the parts in order; the first failure drops them all. `encrypt` also gets the
number of its call, since the closure of the program keeps state. -/
def encryptParts (encrypt : Nat → InnerType → Bytes → Except Error Bytes) :
    Nat → List (InnerType × Bytes) → Option (List Bytes)
  | _, [] => some []
  | n, (kind, payload) :: rest =>
    match encrypt n kind payload with
    | .error _ => none
    | .ok packet => (encryptParts encrypt (n + 1) rest).map (packet :: ·)

/-- `feed`, `fec.rs:187-232`. -/
def feed (payload : Bytes) (payloadLimit : Nat) (id : UInt64)
    (encrypt : Nat → InnerType → Bytes → Except Error Bytes) : FecSender :=
  match s.absorb payload with
  | (none, s) => s
  | (some repair, s) =>
    match (repairParts repair payloadLimit id).bind (encryptParts encrypt 0) with
    | none => s
    | some packets =>
      { s with
        pending := (if 8 < s.pending.length + packets.length then [] else s.pending) ++ packets }

end FecSender

end AivpnSpec.Common
