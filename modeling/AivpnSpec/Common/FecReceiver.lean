import AivpnSpec.Base.Bitmap
import AivpnSpec.Common.Fec
import Mathlib.Data.Prod.Lex

/-!
# XOR forward error correction: the receiver

`crates/aivpn-common/src/fec.rs:235-642`. At most eight groups are pending, each with the
XOR of its members and the set of indices seen. Finished groups are remembered by number,
expired and evicted ones by number, size and indices, 512 of each.
Positions, the highest position and tickets are unbounded here; the program counts them
in 64 bits. `order` is the iteration order of the hash map of pending groups.
-/

namespace AivpnSpec.Common

open AivpnSpec.Base

/-- `MAX_PENDING_GROUPS`, `fec.rs:235`. -/
def maxPendingGroups : Nat := 8

/-- `COMPLETED_GROUPS`, `fec.rs:236`. -/
def completedGroups : Nat := 512

/-- `RETIRED_GROUPS`, `fec.rs:237`. -/
def retiredGroups : Nat := 512

/-- `PENDING_TTL`, ten seconds; `fec.rs:238`. -/
def pendingTtl : Nat := 10 * 1000000000

/-- `FecRxResult`, `fec.rs:241-247`. -/
structure FecRxResult where
  accepted : Bool
  recovered : Option Bytes
  complete : Bool
  deriving DecidableEq, Repr

/-- `ignored`, `fec.rs:577-583`. -/
def FecRxResult.ignored : FecRxResult := { accepted := false, recovered := none, complete := false }

/-- `StoredRepair`, `fec.rs:280-283`. -/
structure StoredRepair where
  data : Bytes
  len : Nat

/-- `PendingGroup`, `fec.rs:269-278`. -/
structure PendingGroup where
  groupSize : UInt8
  xorBuf : Bytes
  xorLen : Nat
  seen : Bitmap 4
  count : UInt8
  repair : Option StoredRepair
  created : Nat
  ticket : Nat

namespace PendingGroup

/-- The group `ensure_group` inserts, `fec.rs:434-443`. -/
def new (groupSize : UInt8) (now ticket : Nat) : PendingGroup :=
  { groupSize, xorBuf := List.replicate maxPacketSize 0, xorLen := 0, seen := Bitmap.zero 4,
    count := 0, repair := none, created := now, ticket }

variable (group : PendingGroup)

/-- `absorb`, `fec.rs:616-621`. -/
def absorb (payload : Bytes) : PendingGroup :=
  { group with
    xorBuf := xorInto group.xorBuf payload
    xorLen := max group.xorLen payload.length }

/-- `mark`, `fec.rs:612-614`. -/
def mark (index : UInt8) : PendingGroup :=
  { group with seen := group.seen.setBit index.toNat }

/-- One more member, saturating; `fec.rs:332`. -/
def countMember : PendingGroup :=
  { group with count := if group.count = 255 then 255 else group.count + 1 }

/-- `store_repair`, `fec.rs:623-630`. -/
def storeRepair (xorData : Bytes) : PendingGroup :=
  { group with repair := some { data := padTo maxPacketSize xorData, len := xorData.length } }

/-- `missing_packet`, `fec.rs:632-640`. -/
def missingPacket : Option Bytes :=
  group.repair.map fun repair =>
    (List.range (max repair.len group.xorLen)).map fun i =>
      repair.data.getD i 0 ^^^ group.xorBuf.getD i 0

end PendingGroup

/-- `RetiredGroup`, `fec.rs:287-290`. -/
structure RetiredGroup where
  groupSize : UInt8
  seen : Bitmap 4

/-- `FecReceiver`, `fec.rs:257-267`. -/
structure FecReceiver where
  pending : Table Nat PendingGroup
  completed : List Nat
  completedSet : Finset Nat
  retired : Table Nat RetiredGroup
  retiredOrder : List Nat
  highestGroup : Option Nat
  nextTicket : Nat

/-- `validate_member`, `fec.rs:585-593`. -/
def validateMember (metadata : FecMetadata) (len : Nat) : Except Error Unit :=
  if metadata.groupSize = 0 ∨ metadata.groupSize ≤ metadata.index then
    .error (.invalidPacket "Invalid FEC metadata")
  else if len = 0 ∨ maxPacketSize < len then
    .error (.invalidPacket "FEC data exceeds packet budget")
  else .ok ()

namespace FecReceiver

/-- `FecReceiver::default`. -/
def empty : FecReceiver :=
  { pending := ∅, completed := [], completedSet := ∅, retired := ∅, retiredOrder := [],
    highestGroup := none, nextTicket := 0 }

variable (r : FecReceiver)

/-- `position`, `fec.rs:389-399`. -/
def position (seq : UInt16) : Nat :=
  match r.highestGroup with
  | none => 65536 + seq.toNat
  | some highest =>
    let distance := seq - UInt16.ofNat highest
    if distance < 0x8000 then highest + distance.toNat else highest - (0 - distance).toNat

/-- `advance`, `fec.rs:401-405`: the position, and the receiver that has seen it. -/
def advance (seq : UInt16) : Nat × FecReceiver :=
  let position := r.position seq
  (position, { r with highestGroup := some (max (r.highestGroup.getD position) position) })

/-- The loop of `remember_incomplete` that forgets the oldest retired groups,
`fec.rs:559-563`. -/
def trimRetired : Table Nat RetiredGroup → List Nat → Table Nat RetiredGroup × List Nat
  | retired, [] => (retired, [])
  | retired, old :: rest =>
    if retiredGroups < (old :: rest).length then trimRetired (retired.erase old) rest
    else (retired, old :: rest)

variable (seq : Nat)

/-- `remember_incomplete`, `fec.rs:548-564`. -/
def rememberIncomplete (groupSize : UInt8) (seen : Bitmap 4) : FecReceiver :=
  match r.retired.lookup seq with
  | some existing =>
    if existing.groupSize = groupSize then
      { r with retired := r.retired.insert seq { existing with seen := existing.seen.union seen } }
    else r
  | none =>
    let trimmed := trimRetired (r.retired.insert seq { groupSize, seen }) (r.retiredOrder ++ [seq])
    { r with retired := trimmed.1, retiredOrder := trimmed.2 }

/-- `retire`, `fec.rs:541-546`. -/
def retire : FecReceiver :=
  match r.pending.lookup seq with
  | none => r
  | some group =>
    { r with pending := r.pending.erase seq }.rememberIncomplete seq group.groupSize group.seen

/-- `sweep`, `fec.rs:498-508`. -/
def sweep (now : Nat) (order : List Nat) : FecReceiver :=
  let expired := order.filter fun seq =>
    (r.pending.lookup seq).any fun group => pendingTtl ≤ now - group.created
  expired.foldl retire r

/-- The pending group with the least creation time and ticket, `fec.rs:421-426`. -/
def oldest : Option Nat :=
  (r.pending.entries.argmin fun e => toLex (e.2.created, e.2.ticket)).map Sigma.fst

def setPending (group : PendingGroup) : FecReceiver :=
  { r with pending := r.pending.insert seq group }

/-- `ensure_group`, `fec.rs:407-446`: the group, in the receiver that holds it. -/
def ensureGroup (groupSize : UInt8) (now : Nat) : Except Error PendingGroup × FecReceiver :=
  match r.pending.lookup seq with
  | some group =>
    if group.groupSize ≠ groupSize then
      (.error (.invalidPacket "Conflicting FEC group size"), r)
    else (.ok group, r)
  | none =>
    let r :=
      if maxPendingGroups ≤ r.pending.entries.length then
        match r.oldest with
        | some oldest => r.retire oldest
        | none => r
      else r
    let group := PendingGroup.new groupSize now r.nextTicket
    (.ok group, { r with nextTicket := r.nextTicket + 1 }.setPending seq group)

/-- `complete_group`, `fec.rs:486-496`. -/
def completeGroup : FecReceiver :=
  let r := { r with pending := r.pending.erase seq }
  if seq ∈ r.completedSet then r
  else
    let completed := r.completed ++ [seq]
    let completedSet := insert seq r.completedSet
    if completedGroups < completed.length then
      { r with completed := completed.tail,
               completedSet := completed.head?.elim completedSet completedSet.erase }
    else { r with completed, completedSet }

/-- `finish`, `fec.rs:448-484`. -/
def finish (accepted : Bool) : FecRxResult × FecReceiver :=
  match r.pending.lookup seq with
  | none => (.ignored, r)
  | some group =>
    if group.count = group.groupSize then
      ({ accepted, recovered := none, complete := true }, r.completeGroup seq)
    else if group.groupSize ≠ 0 ∧ group.count = group.groupSize - 1 ∧ group.repair.isSome then
      ({ accepted, recovered := group.missingPacket, complete := true }, r.completeGroup seq)
    else ({ accepted, recovered := none, complete := false }, r)

/-- `accept_retired`, `fec.rs:512-539`. -/
def acceptRetired (position : Nat) (groupSize index : UInt8) :
    Except Error (Option FecRxResult) × FecReceiver :=
  match r.retired.lookup position with
  | none => (.ok none, r)
  | some group =>
    if group.groupSize ≠ groupSize then
      (.error (.invalidPacket "Conflicting FEC group size"), r)
    else if group.seen.testBit index.toNat then (.ok (some .ignored), r)
    else
      (.ok (some { accepted := true, recovered := none, complete := false }),
        { r with
          retired := r.retired.insert position
            { group with seen := group.seen.setBit index.toNat } })

/-- `record`, `fec.rs:305-335`. -/
def record (metadata : FecMetadata) (payload : Bytes) (now : Nat) (order : List Nat) :
    Except Error FecRxResult × FecReceiver :=
  match validateMember metadata payload.length with
  | .error e => (.error e, r)
  | .ok () =>
    let (position, r) := (r.sweep now order).advance metadata.groupSeq
    if position ∈ r.completedSet then (.ok .ignored, r)
    else
      match r.acceptRetired position metadata.groupSize metadata.index with
      | (.error e, r) => (.error e, r)
      | (.ok (some result), r) => (.ok result, r)
      | (.ok none, r) =>
        match r.ensureGroup position metadata.groupSize now with
        | (.error e, r) => (.error e, r)
        | (.ok group, r) =>
          if group.seen.testBit metadata.index.toNat then (.ok .ignored, r)
          else if group.repair.any fun repair => repair.len < payload.length then
            (.error (.invalidPacket "FEC data exceeds repair length"), r)
          else
            let group := ((group.absorb payload).mark metadata.index).countMember
            let (result, r) := (r.setPending position group).finish position true
            (.ok result, r)

/-- `repair`, `fec.rs:337-371`. -/
def repair (r : FecReceiver) (repair : FecRepair) (now : Nat) (order : List Nat) :
    Except Error FecRxResult × FecReceiver :=
  if repair.groupSize = 0 then (.error (.invalidPacket "Invalid FEC group size"), r)
  else if repair.xorData = [] ∨ maxPacketSize < repair.xorData.length then
    (.error (.invalidPacket "FEC repair exceeds packet budget"), r)
  else
    let (position, r) := (r.sweep now order).advance repair.groupSeq
    if position ∈ r.completedSet then (.ok .ignored, r)
    else
      match r.retired.lookup position with
      | some group =>
        if group.groupSize ≠ repair.groupSize then
          (.error (.invalidPacket "Conflicting FEC group size"), r)
        else (.ok .ignored, r)
      | none =>
        match r.ensureGroup position repair.groupSize now with
        | (.error e, r) => (.error e, r)
        | (.ok group, r) =>
          match group.repair with
          | some existing =>
            if existing.len = repair.xorData.length ∧
                existing.data.take existing.len = repair.xorData then
              (.ok .ignored, r)
            else (.error (.invalidPacket "Conflicting FEC repair"), r)
          | none =>
            if repair.xorData.length < group.xorLen then
              (.error (.invalidPacket "FEC repair is shorter than data"), r)
            else
              let group := group.storeRepair repair.xorData
              let (result, r) := (r.setPending position group).finish position true
              (.ok result, r)

/-- `is_duplicate`, `fec.rs:373-385`. -/
def isDuplicate (r : FecReceiver) (metadata : FecMetadata) : Bool :=
  let position := r.position metadata.groupSeq
  let found (groupSize : UInt8) (seen : Bitmap 4) :=
    groupSize == metadata.groupSize && seen.testBit metadata.index.toNat
  if position ∈ r.completedSet then true
  else
    match r.pending.lookup position with
    | some group => found group.groupSize group.seen
    | none => (r.retired.lookup position).any fun group => found group.groupSize group.seen

end FecReceiver

end AivpnSpec.Common
