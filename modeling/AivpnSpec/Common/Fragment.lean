import AivpnSpec.Base.Chunks
import AivpnSpec.Base.Table
import AivpnSpec.Common.Protocol
import Mathlib.Data.List.MinMax

/-!
# Fragmentation and bounded reassembly

`crates/aivpn-common/src/fragment.rs`. A message is cut into 900-byte chunks, each with a
20-byte header; a FEC data message carries four more header bytes. The receiver collects
the chunks of at most four control and eight other messages.
Instants are nanoseconds. The iteration order of the hash map of assemblies is an
explicit argument wherever the program reads it.
-/

namespace AivpnSpec.Common

open AivpnSpec.Base

/-- `FRAGMENT_DATA_SIZE`, `fragment.rs:10`. -/
def fragmentDataSize : Nat := 900

/-- `MAX_REASSEMBLED_SIZE`, `fragment.rs:11-12`. -/
def maxReassembledSize : Nat := maxMgmtBodySize + maxMgmtPathSize + 12

/-- `HEADER_SIZE`, `fragment.rs:13`. -/
def headerSize : Nat := 20

/-- `FEC_META_SIZE`, `fragment.rs:14`. -/
def fecMetaSize : Nat := 4

/-- `MAX_IN_FLIGHT`, `fragment.rs:15`. -/
def maxInFlight : Nat := 4

/-- `MAX_DATA_IN_FLIGHT`, `fragment.rs:16`. -/
def maxDataInFlight : Nat := 8

/-- `ASSEMBLY_TTL`, ten seconds; `fragment.rs:17`. -/
def assemblyTtl : Nat := 10 * 1000000000

/-- The header of `split`: version, kind, two zero bytes, id, total length and offset. -/
def fragmentHeader (id : UInt64) (kind : InnerType) (total offset : Nat) : Bytes :=
  [1, kind.toU8, 0, 0] ++ beBytes 8 id.toNat ++ beBytes 4 total ++ beBytes 4 offset

/-- `split`, `fragment.rs:40-62`, for the drawn message id. -/
def split (id : UInt64) (kind : InnerType) (payload : Bytes) : Except Error (List Bytes) :=
  if ¬ (kind = .data ∨ kind = .control ∨ kind = .fecRepair) ∨ payload = [] ∨
      maxReassembledSize < payload.length then
    .error (.invalidPacket "Invalid fragmented payload")
  else
    .ok ((chunks fragmentDataSize payload).mapIdx fun index chunk =>
      fragmentHeader id kind payload.length (index * fragmentDataSize) ++ chunk)

/-- Set the FEC flag and splice the group position in after the header,
`fragment.rs:77-85`. -/
def tagFecPacket (metadata : FecMetadata) (packet : Bytes) : Bytes :=
  let packet := (packet.set 2 1).set 3 (UInt8.ofNat fecMetaSize)
  packet.take headerSize ++ beBytes 2 metadata.groupSeq.toNat ++
    [metadata.groupSize, metadata.index] ++ packet.drop headerSize

/-- `split_fec_data`, `fragment.rs:68-87`. -/
def splitFecData (id : UInt64) (payload : Bytes) (metadata : FecMetadata) :
    Except Error (List Bytes) :=
  if metadata.groupSize = 0 ∨ metadata.groupSize ≤ metadata.index then
    .error (.invalidPacket "Invalid FEC metadata")
  else if maxPacketSize < payload.length then
    .error (.invalidPacket "FEC data exceeds packet budget")
  else
    match split id .data payload with
    | .error e => .error e
    | .ok packets => .ok (packets.map (tagFecPacket metadata))

/-- `fec_metadata`, `fragment.rs:90-109`. -/
def fecMetadata (bytes : Bytes) : Option FecMetadata :=
  if bytes.length < headerSize + fecMetaSize ∨ byteAt bytes 0 ≠ 1 ∨
      byteAt bytes 1 ≠ InnerType.data.toU8 ∨ byteAt bytes 2 ≠ 1 ∨
      byteAt bytes 3 ≠ UInt8.ofNat fecMetaSize then
    none
  else
    let groupSize := byteAt bytes (headerSize + 2)
    let index := byteAt bytes (headerSize + 3)
    if groupSize = 0 ∨ groupSize ≤ index then none
    else some
      { groupSeq := UInt16.ofNat (ofBe ((bytes.drop headerSize).take 2)), groupSize, index }

/-- A fragment whose header passed every check of `accept_detailed`. -/
structure Fragment where
  kind : InnerType
  fec : Option FecMetadata
  id : UInt64
  total : Nat
  offset : Nat
  data : Bytes
  deriving DecidableEq, Repr

/-- The size and position checks on a decoded header, `fragment.rs:158-168`. -/
def Fragment.BadBounds (f : Fragment) : Prop :=
  f.total = 0 ∨
  (f.kind = .data ∧ maxPacketSize < f.total) ∨
  (f.kind = .fecRepair ∧ maxPacketSize + 3 < f.total) ∨
  maxReassembledSize < f.total ∨
  f.total ≤ f.offset ∨
  f.offset % fragmentDataSize ≠ 0 ∨
  f.data.length ≠ min fragmentDataSize (f.total - f.offset)

instance (f : Fragment) : Decidable f.BadBounds := by
  unfold Fragment.BadBounds
  infer_instance

/-- The header part of `accept_detailed`, `fragment.rs:131-168`: it reads only the packet. -/
def parseFragment (bytes : Bytes) : Except Error Fragment :=
  if bytes.length ≤ headerSize ∨ byteAt bytes 0 ≠ 1 ∨ byteAt bytes 2 &&& ~~~1 ≠ 0 then
    .error (.invalidPacket "Invalid fragment header")
  else
    match InnerType.fromU16 (byteAt bytes 1).toNat with
    | none | some .fragment | some .ack => .error (.invalidPacket "Invalid fragment type")
    | some kind =>
      let flagged := byteAt bytes 2 = 1
      if flagged ∧ kind ≠ .data then
        .error (.invalidPacket "FEC flag requires data fragments")
      else
        let size := headerSize + if flagged then fecMetaSize else 0
        if bytes.length ≤ size ∨ (byteAt bytes 3).toNat ≠ size - headerSize then
          .error (.invalidPacket "Invalid fragment header extension")
        else
          if flagged ∧ fecMetadata bytes = none then
            .error (.invalidPacket "Invalid FEC fragment metadata")
          else
            let fragment : Fragment :=
              { kind
                fec := if flagged then fecMetadata bytes else none
                id := UInt64.ofNat (ofBe ((bytes.drop 4).take 8))
                total := ofBe ((bytes.drop 12).take 4)
                offset := ofBe ((bytes.drop 16).take 4)
                data := bytes.drop size }
            if fragment.BadBounds then .error (.invalidPacket "Invalid fragment bounds")
            else .ok fragment

/-- `Assembly`, `fragment.rs:19-26`. -/
structure Assembly where
  kind : InnerType
  fec : Option FecMetadata
  total : Nat
  created : Nat
  chunks : Table Nat Bytes
  received : Nat

/-- `Reassembled`, `fragment.rs:28-32`. -/
structure Reassembled where
  kind : InnerType
  payload : Bytes
  fec : Option FecMetadata
  deriving DecidableEq, Repr

/-- `Reassembler`, `fragment.rs:34-37`. -/
structure Reassembler where
  pending : Table UInt64 Assembly

namespace Reassembler

/-- `Reassembler::default`. -/
def empty : Reassembler := ⟨∅⟩

variable (r : Reassembler)

/-- `discard_fec_group`, `fragment.rs:114-120`. -/
def discardFecGroup (groupSeq : UInt16) : Reassembler :=
  ⟨r.pending.retain fun _ assembly =>
    !(assembly.fec.any fun metadata => metadata.groupSeq == groupSeq)⟩

/-- Drop the assemblies older than `ASSEMBLY_TTL`, `fragment.rs:129-130`. -/
def expire (now : Nat) : Reassembler :=
  ⟨r.pending.retain fun _ assembly => now - assembly.created < assemblyTtl⟩

/-- The oldest assembly that is not control, the first in iteration order among equals;
`fragment.rs:187-192`. -/
def oldestData (order : List UInt64) : Option UInt64 :=
  ((order.filterMap fun id =>
      (r.pending.lookup id).bind fun assembly =>
        if assembly.kind ≠ .control then some (id, assembly.created) else none).argmin
    Prod.snd).map Prod.fst

/-- How many assemblies share the capacity class of `kind`, `fragment.rs:170-175`. -/
def classCount (kind : InnerType) : Nat :=
  r.pending.count fun _ assembly => (assembly.kind == .control) == (kind == .control)

/-- The capacity of the class of `kind`, `fragment.rs:176-180`. -/
def classLimit (kind : InnerType) : Nat :=
  if kind = .control then maxInFlight else maxDataInFlight

/-- Make room for the first fragment of a message, `fragment.rs:169-197`. -/
def makeRoom (fragment : Fragment) (order : List UInt64) : Except Error Reassembler :=
  if (r.pending.lookup fragment.id).isSome then .ok r
  else if classLimit fragment.kind ≤ r.classCount fragment.kind then
    if fragment.kind = .control then .error (.invalidPacket "Too many fragmented messages")
    else
      match r.oldestData order with
      | some oldest => .ok ⟨r.pending.erase oldest⟩
      | none => .ok r
  else .ok r

/-- Put the chunks of a full assembly together, `fragment.rs:221-223`. -/
def assemble (assembly : Assembly) (total : Nat) : Bytes :=
  (List.range (chunkCount fragmentDataSize total)).flatMap fun i =>
    (assembly.chunks.lookup (i * fragmentDataSize)).getD []

/-- Add the chunk to its assembly and deliver a full message, `fragment.rs:198-226`. -/
def store (fragment : Fragment) (now : Nat) : Except Error (Option Reassembled) × Reassembler :=
  let assembly := (r.pending.lookup fragment.id).getD
    { kind := fragment.kind, fec := fragment.fec, total := fragment.total, created := now,
      chunks := ∅, received := 0 }
  if assembly.kind ≠ fragment.kind ∨ assembly.total ≠ fragment.total ∨
      assembly.fec ≠ fragment.fec then
    (.error (.invalidPacket "Conflicting fragment metadata"), ⟨r.pending.erase fragment.id⟩)
  else
    match assembly.chunks.lookup fragment.offset with
    | some previous =>
      if previous ≠ fragment.data then
        (.error (.invalidPacket "Conflicting duplicate fragment"), ⟨r.pending.erase fragment.id⟩)
      else (.ok none, ⟨r.pending.insert fragment.id assembly⟩)
    | none =>
      let assembly :=
        { assembly with
          received := assembly.received + fragment.data.length
          chunks := assembly.chunks.insert fragment.offset fragment.data }
      if assembly.received ≠ fragment.total then
        (.ok none, ⟨r.pending.insert fragment.id assembly⟩)
      else
        (.ok (some { kind := fragment.kind, payload := assemble assembly fragment.total,
                     fec := assembly.fec }),
          ⟨r.pending.erase fragment.id⟩)

/-- `accept_detailed`, `fragment.rs:128-227`: the answer and the reassembler after it.
`order` is the iteration order of the pending ids at this call. -/
def acceptDetailed (bytes : Bytes) (now : Nat) (order : List UInt64) :
    Except Error (Option Reassembled) × Reassembler :=
  let r := r.expire now
  match parseFragment bytes with
  | .error e => (.error e, r)
  | .ok fragment =>
    match r.makeRoom fragment order with
    | .error e => (.error e, r)
    | .ok r => r.store fragment now

end Reassembler

end AivpnSpec.Common
